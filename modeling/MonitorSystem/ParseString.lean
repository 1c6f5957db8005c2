import MonitorSystem.Parsing

/-! # Strings in the parsed text

The block for a string is measured in a first loop, in which an escape counts as
one byte. What the second loop writes always fits, whatever the escapes are.
-/

namespace MonitorSystem.Parsing

open CJson Lib.CString Lib.Cleanup

def units : Bytes → Nat
  | [] => 0
  | [_] => 1
  | b :: c :: rest => if b = backslash then units rest + 1 else units (c :: rest) + 1

/-- The length of a \u sequence and the bytes for it, from what is behind the \u. -/
def literal (rest : Bytes) : Option (Nat × Bytes) :=
  match rest with
  | h₁ :: h₂ :: h₃ :: h₄ :: more =>
    let firstCode := CJson.parseHex4 h₁ h₂ h₃ h₄
    if 0xDC00 ≤ firstCode ∧ firstCode ≤ 0xDFFF then none
    else if 0xD800 ≤ firstCode ∧ firstCode ≤ 0xDBFF then
      match more with
      | b :: u :: l₁ :: l₂ :: l₃ :: l₄ :: _ =>
        let secondCode := CJson.parseHex4 l₁ l₂ l₃ l₄
        if b ≠ backslash ∨ u ≠ 0x75 then none
        else if secondCode < 0xDC00 ∨ 0xDFFF < secondCode then none
        else some (12, utf8 (0x10000 + (((firstCode &&& 0x3FF) <<< 10) ||| (secondCode &&& 0x3FF))))
      | _ => none
    else some (6, utf8 firstCode)
  | _ => none

section Units

theorem units_backslash (c : UInt8) (rest : Bytes) : units (backslash :: c :: rest) = units rest + 1 := by
  rw [units, if_pos rfl]

theorem units_plain {b : UInt8} (h : b ≠ backslash) (rest : Bytes) : units (b :: rest) = units rest + 1 := by
  cases rest with
  | nil => rfl
  | cons c rest => rw [units, if_neg h]

theorem units_tail (b : UInt8) (rest : Bytes) : units rest ≤ units (b :: rest) ∧ units (b :: rest) ≤ units rest + 1 := by
  induction rest generalizing b with
  | nil => exact ⟨Nat.zero_le 1, le_rfl⟩
  | cons c rest ih =>
    by_cases hBackslash : b = backslash
    · obtain ⟨hLow, hHigh⟩ := ih c
      rw [hBackslash, units_backslash]
      omega
    · rw [units_plain hBackslash]
      omega

theorem units_drop (n : Nat) (s : Bytes) : units (s.drop n) ≤ units s := by
  induction n generalizing s with
  | zero => exact le_rfl
  | succ n ih =>
    cases s with
    | nil => exact le_rfl
    | cons b rest => exact (ih rest).trans (units_tail b rest).1

theorem length_utf8_le (codepoint : Nat) : (utf8 codepoint).length ≤ 4 := by
  rw [utf8]
  split
  · exact Nat.le_of_ble_eq_true rfl
  split
  · exact Nat.le_of_ble_eq_true rfl
  split
  · exact Nat.le_of_ble_eq_true rfl
  · exact Nat.le_of_ble_eq_true rfl

theorem units_hex {h₁ h₂ h₃ h₄ : UInt8} (h : CJson.parseHex4 h₁ h₂ h₃ h₄ ≠ 0) (rest : Bytes) :
    units (h₁ :: h₂ :: h₃ :: h₄ :: rest) = units rest + 4 := by
  have hNone : hexDigit backslash = none := rfl
  have hDigits : h₁ ≠ backslash ∧ h₂ ≠ backslash ∧ h₃ ≠ backslash ∧ h₄ ≠ backslash := by
    refine ⟨?_, ?_, ?_, ?_⟩ <;> rintro rfl <;> refine h ?_ <;> rw [CJson.parseHex4, hNone]
    · cases hexDigit h₁ <;> rfl
    · cases hexDigit h₁ <;> cases hexDigit h₂ <;> rfl
    · cases hexDigit h₁ <;> cases hexDigit h₂ <;> cases hexDigit h₃ <;> rfl
  rw [units_plain hDigits.1, units_plain hDigits.2.1, units_plain hDigits.2.2.1, units_plain hDigits.2.2.2]

theorem literal_units {rest : Bytes} {r : Nat × Bytes} (h : literal rest = some r) :
    6 ≤ r.1 ∧ r.1 ≤ rest.length + 2 ∧
      r.2.length + units (rest.drop (r.1 - 2)) ≤ units (backslash :: 0x75 :: rest) := by
  rw [units_backslash]
  rw [literal.eq_def] at h
  split at h
  · rename_i h₁ h₂ h₃ h₄ more
    dsimp only at h
    split at h
    · cases h
    split at h
    · rename_i hFirst
      have hUnits := units_hex (show CJson.parseHex4 h₁ h₂ h₃ h₄ ≠ 0 by omega) more
      split at h
      · rename_i b u l₁ l₂ l₃ l₄ more
        split at h
        · cases h
        rename_i hMark
        obtain ⟨rfl, rfl⟩ := not_or.mp hMark |>.imp not_not.mp not_not.mp
        split at h
        · cases h
        rename_i hSecond
        obtain rfl := Option.some.inj h
        have hUnits' := units_hex (show CJson.parseHex4 l₁ l₂ l₃ l₄ ≠ 0 by omega) more
        refine ⟨Nat.le_of_ble_eq_true rfl, by simp, ?_⟩
        have hLength := length_utf8_le (0x10000 + (((CJson.parseHex4 h₁ h₂ h₃ h₄ &&& 0x3FF) <<< 10) |||
          (CJson.parseHex4 l₁ l₂ l₃ l₄ &&& 0x3FF)))
        rw [hUnits, units_backslash, hUnits']
        simp only [Nat.reduceSub, List.drop_succ_cons, List.drop_zero]
        omega
      · cases h
    · obtain rfl := Option.some.inj h
      refine ⟨Nat.le_of_ble_eq_true rfl, by simp, ?_⟩
      have hLength := length_utf8_le (CJson.parseHex4 h₁ h₂ h₃ h₄)
      simp only [Nat.reduceSub, List.drop_succ_cons, List.drop_zero]
      by_cases hZero : CJson.parseHex4 h₁ h₂ h₃ h₄ = 0
      · have hOne : (utf8 0).length = 1 := rfl
        have hTail := units_drop 4 (h₁ :: h₂ :: h₃ :: h₄ :: more)
        rw [hZero, hOne]
        simp only [List.drop_succ_cons, List.drop_zero] at hTail
        omega
      · rw [units_hex hZero]
        omega
  · cases h

theorem unescape_lone : unescape [backslash] = some [quote] := rfl

theorem unescape_bad {c : UInt8} (hNotU : c ≠ 0x75) (hChar : unescapeChar c = none) (rest : Bytes) :
    unescape (backslash :: c :: rest) = none := by
  rw [unescape.eq_def]
  apply (if_neg (not_not.mpr rfl)).trans
  apply (if_neg hNotU).trans
  rw [hChar]

theorem unescape_literal (rest : Bytes) : unescape (backslash :: 0x75 :: rest) =
    (literal rest).bind fun r => (unescape (rest.drop (r.1 - 2))).map (r.2 ++ ·) := by
  rw [unescape.eq_def]
  apply (if_neg (not_not.mpr rfl)).trans
  apply (if_pos rfl).trans
  rw [literal.eq_def]
  obtain _ | ⟨h₁, _ | ⟨h₂, _ | ⟨h₃, _ | ⟨h₄, more⟩⟩⟩⟩ := rest
  · rfl
  · rfl
  · rfl
  · rfl
  obtain _ | ⟨b, _ | ⟨u, _ | ⟨l₁, _ | ⟨l₂, _ | ⟨l₃, _ | ⟨l₄, more⟩⟩⟩⟩⟩⟩ := more
  all_goals
    dsimp only
    split_ifs <;> rfl

end Units

section Loops

variable {content : Bytes} {p : ParseBuffer}

theorem byteAt_eq {i : Nat} {b : UInt8} {more : Bytes} (h : content.drop i = b :: more) (p : ParseBuffer) :
    byteAt content i p = some (some b, p) := by
  have hByte : content[i]? = some b := by rw [← List.head?_drop, h, List.head?_cons]
  rw [byteAt, hByte, Option.map_some]

theorem drop_behind {i : Nat} {front more : Bytes} (h : content.drop i = front ++ more) :
    content.drop (i + front.length) = more := by
  rw [← List.drop_drop, h, List.drop_left]

theorem parseHex4_cons {i : Nat} {b : UInt8} {rest : Bytes} (h : content.drop i = b :: rest) (more n : Nat) :
    parseHex4 content i (more + 1) n p = match hexDigit b with
      | some digit => parseHex4 content (i + 1) more (if more = 0 then n + digit else (n + digit) <<< 4) p
      | none => some (some 0, p) := by
  rw [parseHex4, Step.bind_of_some (byteAt_eq h p)]
  cases hexDigit b <;> rfl

theorem parseHex4_eq {i : Nat} {h₁ h₂ h₃ h₄ : UInt8} {more : Bytes}
    (h : content.drop i = h₁ :: h₂ :: h₃ :: h₄ :: more) (p : ParseBuffer) :
    parseHex4 content i 4 0 p = some (some (CJson.parseHex4 h₁ h₂ h₃ h₄), p) := by
  have hSecond : content.drop (i + 1) = h₂ :: h₃ :: h₄ :: more := @drop_behind content i [h₁] _ h
  have hThird : content.drop (i + 1 + 1) = h₃ :: h₄ :: more := @drop_behind content (i + 1) [h₂] _ hSecond
  have hFourth : content.drop (i + 1 + 1 + 1) = h₄ :: more := @drop_behind content (i + 1 + 1) [h₃] _ hThird
  rw [parseHex4_cons h, CJson.parseHex4]
  cases hexDigit h₁ with
  | none => rfl
  | some a =>
    dsimp only
    rw [parseHex4_cons hSecond]
    cases hexDigit h₂ with
    | none => rfl
    | some b =>
      dsimp only
      rw [parseHex4_cons hThird]
      cases hexDigit h₃ with
      | none => rfl
      | some c =>
        dsimp only
        rw [parseHex4_cons hFourth]
        cases hexDigit h₄ with
        | none => rfl
        | some d =>
          have hShift : ∀ n : Nat, n <<< 4 = n * 16 := fun n => Nat.shiftLeft_eq n 4
          simp [parseHex4, hShift]
          rfl

def Moved (p q : ParseBuffer) : Prop := ∃ i, q = { p with offset := i }

theorem failAt_spec {α : Type} {post : α → ParseBuffer → Prop} {failed : ParseBuffer → Prop} {i : Nat}
    (h : failed { p with offset := i }) : (failAt i : Parser α).Meets p post failed := h

theorem four_bytes {s : Bytes} (h : 4 ≤ s.length) : ∃ h₁ h₂ h₃ h₄ more, s = h₁ :: h₂ :: h₃ :: h₄ :: more := by
  obtain _ | ⟨h₁, _ | ⟨h₂, _ | ⟨h₃, _ | ⟨h₄, more⟩⟩⟩⟩ := s
  · simp at h
  · simp at h
  · simp at h
  · simp at h
  · exact ⟨h₁, h₂, h₃, h₄, more, rfl⟩

theorem literal_short {rest : Bytes} (h : rest.length < 4) : literal rest = none := by
  rw [literal.eq_def]
  split
  · simp only [List.length_cons] at h
    omega
  · rfl

theorem utf16LiteralToUtf8_spec {inputPointer inputEnd : Nat} {raw rest : Bytes}
    (h : content.drop inputPointer = backslash :: 0x75 :: raw ++ quote :: rest)
    (hEnd : inputEnd = inputPointer + (raw.length + 2)) :
    (utf16LiteralToUtf8 content inputPointer inputEnd).Meets p (fun r q => q = p ∧ literal raw = some r)
      (fun q => Moved p q ∧ literal raw = none) := by
  have hDigits : content.drop (inputPointer + 2) = raw ++ quote :: rest :=
    @drop_behind content inputPointer [backslash, 0x75] _ h
  rw [utf16LiteralToUtf8]
  split
  · exact failAt_spec ⟨⟨_, rfl⟩, literal_short (by omega)⟩
  obtain ⟨h₁, h₂, h₃, h₄, more, rfl⟩ := @four_bytes raw (by omega)
  have hMore : content.drop (inputPointer + 6) = more ++ quote :: rest :=
    @drop_behind content (inputPointer + 2) [h₁, h₂, h₃, h₄] _ hDigits
  refine Step.Meets.next (parseHex4_eq hDigits p) ?_
  rw [literal.eq_def]
  dsimp only
  split
  · exact failAt_spec ⟨⟨_, rfl⟩, rfl⟩
  split
  · split
    · refine failAt_spec ⟨⟨_, rfl⟩, ?_⟩
      split
      · simp only [List.length_cons] at *
        omega
      · rfl
    obtain ⟨b, u, l₁, l₂, more, rfl⟩ := @four_bytes more (by simp only [List.length_cons] at *; omega)
    obtain _ | ⟨l₃, _ | ⟨l₄, more⟩⟩ := more
    · simp only [List.length_cons, List.length_nil] at *
      omega
    · simp only [List.length_cons, List.length_nil] at *
      omega
    have hU : content.drop (inputPointer + 6 + 1) = u :: l₁ :: l₂ :: l₃ :: l₄ :: more ++ quote :: rest :=
      @drop_behind content (inputPointer + 6) [b] _ hMore
    have hCode : content.drop (inputPointer + 6 + 2) = l₁ :: l₂ :: l₃ :: l₄ :: more ++ quote :: rest :=
      @drop_behind content (inputPointer + 6) [b, u] _ hMore
    refine Step.Meets.next (byteAt_eq hMore p) ?_
    split
    · rename_i hMark
      exact failAt_spec ⟨⟨_, rfl⟩, if_pos (.inl hMark)⟩
    rename_i hMark
    refine Step.Meets.next (byteAt_eq hU p) ?_
    split
    · rename_i hMark'
      exact failAt_spec ⟨⟨_, rfl⟩, if_pos (.inr hMark')⟩
    rename_i hMark'
    refine Step.Meets.next (parseHex4_eq hCode p) ?_
    dsimp only
    rw [if_neg (not_or.mpr ⟨hMark, hMark'⟩)]
    split
    · exact failAt_spec ⟨⟨_, rfl⟩, rfl⟩
    · exact ⟨rfl, rfl⟩
  · exact ⟨rfl, rfl⟩

theorem put_eq {capacity : Nat} {output bytes : Bytes} (h : output.length + bytes.length ≤ capacity) (p : ParseBuffer) :
    put capacity output bytes p = some (some (output ++ bytes), p) := by
  rw [put, if_pos h]
  rfl

/-- The rest of the string is unescaped, in no more bytes than are counted for it. -/
structure Unescaped (p : ParseBuffer) (output raw out : Bytes) (q : ParseBuffer) : Prop where
  same : q = p
  text : ∃ s, unescape raw = some s ∧ out = output ++ s
  fits : out.length ≤ output.length + units raw

theorem Unescaped.prepend {q : ParseBuffer} {output bytes raw raw' out : Bytes}
    (h : Unescaped p (output ++ bytes) raw out q) (hText : unescape raw' = (unescape raw).map (bytes ++ ·))
    (hUnits : bytes.length + units raw ≤ units raw') : Unescaped p output raw' out q := by
  obtain ⟨s, hSome, rfl⟩ := h.text
  have hFits := h.fits
  refine ⟨h.same, ⟨bytes ++ s, by rw [hText, hSome, Option.map_some], List.append_assoc _ _ _⟩, ?_⟩
  simp only [List.length_append] at hFits ⊢
  omega

theorem unescapeTo_done {capacity inputEnd fuel inputPointer : Nat} (output : Bytes) (h : inputEnd ≤ inputPointer)
    (hFuel : 0 < fuel) (p : ParseBuffer) :
    unescapeTo content capacity inputEnd fuel inputPointer output p = some (some output, p) := by
  obtain ⟨fuel, rfl⟩ := Nat.exists_eq_succ_of_ne_zero (Nat.ne_of_gt hFuel)
  rw [unescapeTo, if_neg (Nat.not_lt.mpr h)]
  rfl

theorem unescapeTo_spec {capacity inputEnd fuel inputPointer : Nat} {output raw rest : Bytes}
    (h : content.drop inputPointer = raw ++ quote :: rest) (hEnd : inputEnd = inputPointer + raw.length)
    (hFuel : raw.length < fuel) (hRoom : output.length + units raw ≤ capacity) :
    (unescapeTo content capacity inputEnd fuel inputPointer output).Meets p (Unescaped p output raw)
      (fun q => Moved p q ∧ unescape raw = none) := by
  induction fuel generalizing inputPointer output raw with
  | zero => exact absurd hFuel (Nat.not_lt_zero _)
  | succ fuel ih =>
    rw [unescapeTo]
    cases raw with
    | nil =>
      rw [if_neg (by simp only [List.length_nil] at hEnd; omega)]
      exact ⟨rfl, ⟨[], rfl, (List.append_nil _).symm⟩, Nat.le_add_right _ _⟩
    | cons b raw =>
      rw [List.length_cons] at hEnd hFuel
      have hNext : content.drop (inputPointer + 1) = raw ++ quote :: rest := @drop_behind content inputPointer [b] _ h
      rw [if_pos (by omega)]
      refine Step.Meets.next (byteAt_eq h p) ?_
      split
      · rename_i hPlain
        have hUnits := units_plain hPlain raw
        have hText := unescape_plain hPlain raw
        refine Step.Meets.next (put_eq (by rw [List.length_singleton]; omega) p) ?_
        refine (ih hNext (by omega) (by omega) (by rw [List.length_append, List.length_singleton]; omega)).mono
          (fun out q hq => hq.prepend hText (by rw [List.length_singleton]; omega)) (fun q hq => ⟨hq.1, ?_⟩)
        rw [hText, hq.2, Option.map_none]
      rename_i hBackslash
      obtain rfl := not_not.mp hBackslash
      cases raw with
      | nil =>
        -- a malformed sequence has taken the backslash that escapes this one
        rw [units] at hRoom
        refine Step.Meets.next (byteAt_eq hNext p) ?_
        refine Step.Meets.next (put_eq (show output.length + [quote].length ≤ capacity from hRoom) p) ?_
        rw [Step.Meets, unescapeTo_done _ (by simp only [List.length_nil] at hEnd; omega) (by omega)]
        exact ⟨rfl, ⟨[quote], unescape_lone, rfl⟩, by rw [List.length_append, units, List.length_singleton]⟩
      | cons c raw =>
        have hBehind : content.drop (inputPointer + 2) = raw ++ quote :: rest :=
          @drop_behind content inputPointer [backslash, c] _ h
        rw [List.length_cons] at hEnd hFuel
        refine Step.Meets.next (byteAt_eq hNext p) ?_
        split
        · rename_i hU
          subst hU
          have hFailed : ∀ q, Moved p q ∧ literal raw = none →
              Moved p q ∧ unescape (backslash :: 0x75 :: raw) = none := by
            rintro q ⟨hMoved, hNone⟩
            rw [unescape_literal, hNone, Option.bind_none]
            exact ⟨hMoved, rfl⟩
          refine ((utf16LiteralToUtf8_spec h (by omega)).mono (fun r q hr => hr) hFailed).bind ?_
          · rintro r q ⟨rfl, hLiteral⟩
            obtain ⟨hSix, hLength, hUnits⟩ := literal_units hLiteral
            have hText : unescape (backslash :: 0x75 :: raw) = (unescape (raw.drop (r.1 - 2))).map (r.2 ++ ·) := by
              rw [unescape_literal, hLiteral, Option.bind_some]
            have hRest : content.drop (inputPointer + r.1) = raw.drop (r.1 - 2) ++ quote :: rest := by
              have hFront : inputPointer + r.1 = inputPointer + 2 + (r.1 - 2) := by omega
              rw [hFront, ← List.drop_drop, hBehind, List.drop_append_of_le_length (by omega)]
            have hLeft : (raw.drop (r.1 - 2)).length = raw.length - (r.1 - 2) := List.length_drop
            refine Step.Meets.next (put_eq (by omega) q) ?_
            refine (ih hRest (by omega) (by omega) (by rw [List.length_append]; omega)).mono
              (fun out t ht => ht.prepend hText hUnits) (fun t ht => ⟨ht.1, ?_⟩)
            rw [hText, ht.2, Option.map_none]
        · rename_i hU
          have hUnits := units_backslash c raw
          cases hChar : unescapeChar c with
          | none => exact failAt_spec ⟨⟨_, rfl⟩, unescape_bad hU hChar raw⟩
          | some d =>
            have hText := unescape_char hU hChar raw
            refine Step.Meets.next (put_eq (show output.length + [d].length ≤ capacity by
              rw [List.length_singleton]; omega) p) ?_
            refine (ih hBehind (by omega) (by omega) (by rw [List.length_append, List.length_singleton]; omega)).mono
              (fun out q hq => hq.prepend hText (by rw [List.length_singleton]; omega)) (fun q hq => ⟨hq.1, ?_⟩)
            rw [hText, hq.2, Option.map_none]

theorem findEnd_quote (rest : Bytes) : findEnd (quote :: rest) = some (0, 0) := by
  rw [findEnd.eq_def]
  exact if_pos rfl

theorem findEnd_escape (c : UInt8) (rest : Bytes) :
    findEnd (backslash :: c :: rest) = (findEnd rest).map fun r => (r.1 + 2, r.2 + 1) := by
  rw [findEnd.eq_def]
  exact (if_neg (by decide)).trans (if_pos rfl)

theorem findEnd_plain {b : UInt8} (hQuote : b ≠ quote) (hBackslash : b ≠ backslash) (rest : Bytes) :
    findEnd (b :: rest) = (findEnd rest).map fun r => (r.1 + 1, r.2) := by
  rw [findEnd.eq_def]
  exact (if_neg hQuote).trans (if_neg hBackslash)

theorem findEnd_spec (s : Bytes) : match scanString s with
    | none => findEnd s = none
    | some (raw, rest) => s = raw ++ quote :: rest ∧
        ∃ skippedBytes, findEnd s = some (raw.length, skippedBytes) ∧ units raw + skippedBytes = raw.length := by
  fun_induction scanString s with
  | case1 => rfl
  | case2 rest => exact ⟨rfl, 0, findEnd_quote rest, rfl⟩
  | case3 => rfl
  | case4 c rest _ ih =>
    rw [findEnd_escape]
    cases hScan : scanString rest with
    | none =>
      rw [hScan] at ih
      rw [Option.map_none, ih, Option.map_none]
    | some r =>
      rw [hScan] at ih
      obtain ⟨hText, skippedBytes, hEnd, hUnits⟩ := ih
      rw [Option.map_some, hEnd, Option.map_some]
      refine ⟨by rw [hText]; rfl, skippedBytes + 1, rfl, ?_⟩
      rw [units_backslash, List.length_cons, List.length_cons]
      omega
  | case5 b rest hQuote hBackslash ih =>
    rw [findEnd_plain hQuote hBackslash]
    cases hScan : scanString rest with
    | none =>
      rw [hScan] at ih
      rw [Option.map_none, ih, Option.map_none]
    | some r =>
      rw [hScan] at ih
      obtain ⟨hText, skippedBytes, hEnd, hUnits⟩ := ih
      rw [Option.map_some, hEnd, Option.map_some]
      refine ⟨by rw [hText]; rfl, skippedBytes, rfl, ?_⟩
      rw [units_plain hBackslash, List.length_cons]
      omega

end Loops

/-- What was parsed from the position i on ends at the offset, and these blocks are live. -/
structure Read {β : Type} (content : Bytes) (i : Nat) (live : Multiset Nat) (parsed : Option (β × Bytes)) (v : β)
    (q : ParseBuffer) : Prop where
  forward : i < q.offset
  inside : q.offset ≤ content.length
  live : q.live = live
  parsed : parsed = some (v, content.drop q.offset)

/-- Nothing could be parsed, or an allocation has failed; these blocks are live. -/
structure Refused {γ : Type} (grants : Nat → Bool) (live : Multiset Nat) (parsed : Option γ)
    (q : ParseBuffer) : Prop where
  live : q.live = live
  reason : parsed = none ∨ ∃ n, grants n = false

theorem Refused.mono {γ δ : Type} {grants : Nat → Bool} {live : Multiset Nat} {parsed : Option γ} {parsed' : Option δ}
    {q : ParseBuffer} (h : Refused grants live parsed q) (hNone : parsed = none → parsed' = none) :
    Refused grants live parsed' q :=
  ⟨h.live, h.reason.imp_left hNone⟩

section Strings

variable {grants : Nat → Bool} {content : Bytes} {p : ParseBuffer}

theorem allocate_spec : (allocate grants).Meets p (fun block q => q.offset = p.offset ∧ q.live = block ::ₘ p.live)
    (fun q => q.live = p.live ∧ ∃ n, grants n = false) := by
  rw [Step.Meets, allocate]
  split <;> rename_i hRun <;> split at hRun
  · cases hRun
    exact ⟨rfl, rfl⟩
  · cases hRun
  · cases hRun
  · rename_i hDenied
    cases hRun
    exact ⟨rfl, p.requests, Bool.eq_false_of_not_eq_true hDenied⟩
  · cases hRun
  · cases hRun

theorem deallocate_spec {block : Nat} {live : Multiset Nat} {failed : ParseBuffer → Prop} (h : p.live = block ::ₘ live) :
    (deallocate block).Meets p (fun _ q => q.offset = p.offset ∧ q.live = live) failed := by
  have hLive : block ∈ p.live := by
    rw [h]
    exact Multiset.mem_cons_self block live
  rw [Step.Meets, deallocate, if_pos hLive]
  exact ⟨rfl, by rw [h, Multiset.erase_cons_head]⟩

theorem parseString_spec (hStart : p.offset < content.length) : (parseString grants content).Meets p
    (fun t => Read content p.offset (t.block ::ₘ p.live) (CJson.parseString (content.drop p.offset)) t.bytes)
    (Refused grants p.live (CJson.parseString (content.drop p.offset))) := by
  obtain ⟨b, rest, hText⟩ : ∃ b rest, content.drop p.offset = b :: rest := ⟨_, _, List.drop_eq_getElem_cons hStart⟩
  have hRest : content.drop (p.offset + 1) = rest := @drop_behind content p.offset [b] _ hText
  rw [parseString]
  refine Step.Meets.next (show offset p = some (some p.offset, p) from rfl) ?_
  refine Step.Meets.next (byteAt_eq hText p) ?_
  rw [hText, CJson.parseString]
  split
  · exact failAt_spec ⟨rfl, .inl rfl⟩
  rw [hRest]
  have hEnd := findEnd_spec rest
  cases hScan : scanString rest with
  | none =>
    rw [hScan] at hEnd
    rw [hEnd]
    exact failAt_spec ⟨rfl, .inl rfl⟩
  | some r =>
    obtain ⟨raw, after⟩ := r
    rw [hScan] at hEnd
    obtain ⟨hRaw, skippedBytes, hFind, hUnits⟩ := hEnd
    have hInside : raw.length + 1 ≤ content.length - (p.offset + 1) := by
      rw [← List.length_drop, hRest, hRaw, List.length_append, List.length_cons]
      omega
    have hQuote : content.drop (p.offset + 1 + raw.length) = quote :: after := drop_behind (hRest.trans hRaw)
    have hAfter : content.drop (p.offset + 1 + raw.length + 1) = after := @drop_behind content _ [quote] _ hQuote
    rw [hFind]
    dsimp only [Option.bind_some]
    refine Step.Meets.bind (Step.Meets.onFail allocate_spec fun q hq => ⟨hq.1, .inr hq.2⟩) ?_
    rintro block q ⟨hOffset, hLive⟩
    have hLoop := @unescapeTo_spec content q (p.offset + 1 + raw.length - p.offset - skippedBytes + 1)
      (p.offset + 1 + raw.length) (raw.length + 2) (p.offset + 1) [] raw after (hRest.trans hRaw) rfl (by omega)
      (by rw [List.length_nil]; omega)
    refine Step.Meets.bind (Step.Meets.onFail hLoop ?_) ?_
    · rintro t ⟨⟨i, rfl⟩, hNone⟩
      refine Step.Meets.mono (@deallocate_spec { q with offset := i } block p.live _ hLive) ?_ fun u hu => hu
      rintro _ u ⟨_, hFreed⟩
      exact ⟨hFreed, .inl (by rw [hNone, Option.map_none])⟩
    · rintro out t ⟨rfl, ⟨s, hSome, rfl⟩, hFits⟩
      refine Step.Meets.next (put_eq (by rw [List.length_nil] at hFits; rw [List.length_singleton]; omega) t) ?_
      refine ⟨?_, ?_, hLive, ?_⟩
      · dsimp only
        omega
      · dsimp only
        omega
      · rw [hSome, Option.map_some, hAfter]

end Strings

end MonitorSystem.Parsing
