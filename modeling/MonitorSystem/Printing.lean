import MonitorSystem.PrintBuffer

/-! # What cJSON prints

Each function of the printer writes its part of the text into the buffer behind
what is there. So print returns the text of the value, and the prints into other
blocks hold it too.
-/

namespace MonitorSystem.PrintBuffer

open CJson CJsonTree Lib.CString Lib.Fallible

section Values

variable {H : Hooks} {F : NumberFormat} {format : Bool} {J : Job} {p : Printbuffer} {t : Bytes} {d : Nat}

def Prints (H : Hooks) (F : NumberFormat) (format : Bool) (J : Job) (v : CJSON) : Prop :=
  ∀ p t d, Ready J t d p → 0 ∉ t → t.length + (CJsonTree.printValue F format d v).length ≤ J.total →
    (printValue H F J.noalloc format p v).Meets (J.Excused H) (Pending J (t ++ CJsonTree.printValue F format d v) d)

theorem printIndent_spec (hSafe : J.Safe H) (h : Ready J t d p) (hTotal : t.length + (tabs format d).length ≤ J.total) :
    (printIndent H J.noalloc format p).Meets (J.Excused H) (Ready J (t ++ tabs format d) d) := by
  have hDepth := h.filled.depth
  rw [printIndent]
  cases format with
  | false =>
    have hNone : tabs false d = [] := rfl
    rw [if_neg Bool.false_ne_true, hNone, List.append_nil]
    exact h
  | true =>
    have hTabs : tabs true d = List.replicate d 0x09 := rfl
    rw [hTabs, List.length_replicate] at hTotal
    rw [if_pos rfl, hTabs, hDepth]
    exact emitAdvance_bare hSafe h (by omega) (by rw [List.length_replicate]) (by rw [List.length_replicate])

theorem printComma_spec (hSafe : J.Safe H) (h : Ready J t d p) (last : Bool)
    (hTotal : t.length + (if last then [] else lit "," ++ ifFormat format (lit " ")).length ≤ J.total) :
    (printComma H J.noalloc format p last).Meets (J.Excused H)
      (Ready J (t ++ if last then [] else lit "," ++ ifFormat format (lit " ")) d) := by
  rw [printComma]
  cases last with
  | true =>
    rw [if_pos rfl, if_pos rfl, List.append_nil]
    exact h
  | false =>
    rw [if_neg Bool.false_ne_true] at hTotal
    rw [if_neg Bool.false_ne_true, if_neg Bool.false_ne_true]
    exact emitAdvance_ready hSafe h [0] (by omega) (by rw [List.length_append, List.length_singleton])

theorem printElements_cons (v : CJSON) (next : List CJSON) : CJsonTree.printElements F format d (v :: next) =
    CJsonTree.printValue F format d v ++ (if next.isEmpty then [] else lit "," ++ ifFormat format (lit " ")) ++
      CJsonTree.printElements F format d next := by
  rw [CJsonTree.printElements]
  cases next with
  | nil => simp [CJsonTree.printElements]
  | cons w next => simp

theorem printElements_spec (hSafe : J.Safe H) {child : List CJSON} (hChild : ∀ v ∈ child, Prints H F format J v)
    (h : Ready J t d p) (hNul : 0 ∉ t) (hTotal : t.length + (CJsonTree.printElements F format d child).length ≤ J.total) :
    (printElements H F J.noalloc format p child).Meets (J.Excused H)
      (fun q => Ready J (t ++ CJsonTree.printElements F format d child) d q ∧
        0 ∉ t ++ CJsonTree.printElements F format d child) := by
  induction child generalizing p t with
  | nil =>
    rw [CJsonTree.printElements, List.append_nil]
    exact ⟨h, hNul⟩
  | cons v next ih =>
    rw [printElements_cons, List.length_append, List.length_append] at hTotal
    rw [printElements_cons, ← List.append_assoc, ← List.append_assoc, printElements]
    have hValue : 0 ∉ t ++ CJsonTree.printValue F format d v := by
      rw [List.mem_append, not_or]
      exact ⟨hNul, noNul_printValue F format v d⟩
    refine (hChild v List.mem_cons_self p t d h hNul (by omega)).bind fun q hq => ?_
    refine (updateOffset_spec hq hValue).bind fun q hq => ?_
    refine (printComma_spec hSafe hq next.isEmpty (by rw [List.length_append]; omega)).bind fun q hq => ?_
    refine ih (fun w hw => hChild w (List.mem_cons_of_mem v hw)) hq ?_ ?_
    · rw [List.mem_append, not_or]
      refine ⟨hValue, ?_⟩
      split
      · exact List.not_mem_nil
      · rw [List.mem_append, not_or]
        exact ⟨by decide, noNul_ifFormat format (by decide)⟩
    · rw [List.length_append, List.length_append]
      omega

theorem printPairs_spec (hSafe : J.Safe H) {child : List (Bytes × CJSON)}
    (hChild : ∀ m ∈ child, Prints H F format J m.2) (h : Ready J t d p) (hNul : 0 ∉ t)
    (hTotal : t.length + (CJsonTree.printPairs F format d child).length ≤ J.total) :
    (printPairs H F J.noalloc format p child).Meets (J.Excused H)
      (fun q => Ready J (t ++ CJsonTree.printPairs F format d child) d q ∧
        0 ∉ t ++ CJsonTree.printPairs F format d child) := by
  induction child generalizing p t with
  | nil =>
    rw [CJsonTree.printPairs, List.append_nil]
    exact ⟨h, hNul⟩
  | cons m next ih =>
    obtain ⟨name, v⟩ := m
    rw [CJsonTree.printPairs] at hTotal
    simp only [List.length_append] at hTotal
    rw [CJsonTree.printPairs, printPairs]
    simp only [← List.append_assoc]
    have hName : 0 ∉ t ++ tabs format d ++ CJson.printStringPtr (cstr name) := by
      simp only [List.mem_append, not_or]
      exact ⟨⟨hNul, noNul_tabs format d⟩, not_mem_printStringPtr (by decide) _⟩
    have hColon : 0 ∉ lit ":" ++ ifFormat format (lit "\t") := by
      rw [List.mem_append, not_or]
      exact ⟨by decide, noNul_ifFormat format (by decide)⟩
    have hValue : 0 ∉ t ++ tabs format d ++ CJson.printStringPtr (cstr name) ++ (lit ":" ++ ifFormat format (lit "\t")) ++
        CJsonTree.printValue F format d v := by
      rw [List.mem_append, not_or, List.mem_append, not_or]
      exact ⟨⟨hName, hColon⟩, noNul_printValue F format v d⟩
    have hComma : 0 ∉ (if next.isEmpty then [] else lit ",") ++ ifFormat format (lit "\n") := by
      rw [List.mem_append, not_or]
      refine ⟨?_, noNul_ifFormat format (by decide)⟩
      split <;> decide
    refine (printIndent_spec hSafe h (by omega)).bind fun q hq => ?_
    refine (printStringPtr_spec hSafe hq (cstr name) (by rw [List.length_append]; omega)).bind fun q hq => ?_
    refine (updateOffset_spec hq hName).bind fun q hq => ?_
    refine (emitAdvance_bare hSafe hq (by simp only [List.length_append]; omega) le_rfl rfl).bind fun q hq => ?_
    refine (hChild (name, v) List.mem_cons_self q _ d hq ?_ (by simp only [List.length_append]; omega)).bind
      fun q hq => ?_
    · rw [List.mem_append, not_or]
      exact ⟨hName, hColon⟩
    refine (updateOffset_spec hq hValue).bind fun q hq => ?_
    refine (emitAdvance_ready hSafe hq [0] (by simp only [List.length_append]; omega)
      (by rw [List.length_append, List.length_singleton])).bind fun q hq => ?_
    have hRest := ih (fun w hw => hChild w (List.mem_cons_of_mem _ hw)) hq
      (by rw [List.mem_append, not_or]; exact ⟨hValue, hComma⟩) (by simp only [List.length_append]; omega)
    simpa only [List.append_assoc] using hRest

theorem prints_array (hSafe : J.Safe H) {child : List CJSON} (hChild : ∀ v ∈ child, Prints H F format J v) :
    Prints H F format J (.array child) := by
  intro p t d h hNul hTotal
  have hOpen : (lit "[").length = 1 := rfl
  have hClose : (lit "]").length = 1 := rfl
  rw [CJsonTree.printValue] at hTotal
  simp only [List.length_append] at hTotal
  rw [CJsonTree.printValue, printValue]
  simp only [← List.append_assoc]
  refine (emitAdvance_bare hSafe h (by omega) hOpen.le hOpen.symm).bind fun q hq => ?_
  refine (printElements_spec hSafe hChild hq.deeper ?_ (by rw [List.length_append]; omega)).bind fun q hq => ?_
  · rw [List.mem_append, not_or]
    exact ⟨hNul, by decide⟩
  refine (emit_terminated hSafe hq.1 (lit "]") rfl (by simp only [List.length_append]; omega)).bind fun q hq => ?_
  exact Outcome.Meets.pure hq.higher

theorem prints_object (hSafe : J.Safe H) {child : List (Bytes × CJSON)} (hChild : ∀ m ∈ child, Prints H F format J m.2) :
    Prints H F format J (.object child) := by
  intro p t d h hNul hTotal
  have hClose : (lit "\x7d").length = 1 := rfl
  rw [CJsonTree.printValue] at hTotal
  simp only [List.length_append] at hTotal
  rw [CJsonTree.printValue, printValue]
  simp only [← List.append_assoc]
  have hHead : 0 ∉ t ++ (lit "\x7b" ++ ifFormat format (lit "\n")) := by
    rw [List.mem_append, not_or, List.mem_append, not_or]
    exact ⟨hNul, by decide, noNul_ifFormat format (by decide)⟩
  refine (emitAdvance_bare hSafe h (by simp only [List.length_append]; omega) (Nat.le_succ _) rfl).bind fun q hq => ?_
  refine (printPairs_spec hSafe hChild hq.deeper hHead (by simp only [List.length_append]; omega)).bind fun q hq => ?_
  have hDepth : q.depth = d + 1 := hq.1.filled.depth
  have hTail : (if format then q.depth + 1 else 2) = (tabs format d ++ lit "\x7d").length + 1 := by
    rw [List.length_append, hClose, hDepth]
    cases format with
    | false => rfl
    | true => exact congrArg (· + 2) List.length_replicate.symm
  have hOuter : q.depth - 1 = d := by omega
  rw [hOuter]
  refine (emit_terminated hSafe hq.1 (tabs format d ++ lit "\x7d") hTail (by simp only [List.length_append]; omega)).bind
    fun q hq => ?_
  simp only [← List.append_assoc] at hq
  exact Outcome.Meets.pure hq.higher

theorem prints_all (hSafe : J.Safe H) (v : CJSON) : Prints H F format J v := by
  induction v using CJSON.cases_in with
  | hNull => exact fun p t d h _ hTotal => emit_terminated hSafe h (lit "null") rfl hTotal
  | hFalse => exact fun p t d h _ hTotal => emit_terminated hSafe h (lit "false") rfl hTotal
  | hTrue => exact fun p t d h _ hTotal => emit_terminated hSafe h (lit "true") rfl hTotal
  | hNumber text =>
    intro p t d h _ hTotal
    rw [CJsonTree.printValue] at hTotal
    rw [CJsonTree.printValue, printValue]
    refine (emitAdvance_spec hSafe h [0] (by omega) (by rw [List.length_append, List.length_singleton])).mono
      fun q hq => ?_
    exact hq.pending le_rfl (by rw [List.length_append]; omega)
  | hString s =>
    intro p t d h _ hTotal
    rw [CJsonTree.printValue] at hTotal
    rw [CJsonTree.printValue, printValue]
    exact printStringPtr_spec hSafe h (cstr s) hTotal
  | hArray child ih => exact prints_array hSafe ih
  | hObject child ih => exact prints_object hSafe ih

end Values

section Printed

variable {H : Hooks} {F : NumberFormat} {format : Bool} {J : Job} {p : Printbuffer}

theorem Ready.start {block : Bytes} (hLeast : block.length = J.length) (hMost : block.length ≤ intMax) (requests : Nat) :
    Ready J [] 0 ⟨block, 0, 0, requests⟩ :=
  ⟨⟨List.nil_prefix, rfl, Nat.zero_le _, rfl, hLeast.ge, hMost, fun _ => hLeast⟩, id⟩

theorem printed_value (hSafe : J.Safe H) {block : Bytes} (hLeast : block.length = J.length) (hMost : block.length ≤ intMax)
    (requests : Nat) {item : CJSON} (hTotal : J.total = (CJsonTree.print F format item).length) :
    (printValue H F J.noalloc format ⟨block, 0, 0, requests⟩ item).Meets (J.Excused H)
      (Pending J (CJsonTree.print F format item) 0) := by
  refine prints_all hSafe item _ [] 0 (Ready.start hLeast hMost requests) List.not_mem_nil ?_
  rw [hTotal, List.length_nil, Nat.zero_add]
  exact le_rfl

theorem length_fresh (request size : Nat) : (H.fresh request size).length = size := by
  rw [Hooks.fresh, List.length_map, List.length_range]

theorem shrink_spec {t : Bytes} {d : Nat} (h : Filled J (t ++ [0]) t.length (t.length + 2) d p) :
    (shrink H p).Meets (∃ n, H.grants n = false) (fun block => block = t ++ [0]) := by
  have hRoom := h.room
  have hCount : min p.buffer.length (p.offset + 1) = (t ++ [0]).length := by
    rw [h.offset, List.length_append, List.length_singleton]
    omega
  have hFront : p.buffer.take (t ++ [0]).length = t ++ [0] := (List.prefix_iff_eq_take.mp h.text).symm
  have hRest : (H.fresh p.requests (p.offset + 1)).drop (t ++ [0]).length = [] := by
    rw [List.drop_eq_nil_iff, length_fresh, h.offset, List.length_append, List.length_singleton]
  have hSet : (t ++ [0]).set t.length 0 = t ++ [0] := by
    rw [List.set_append_right _ _ le_rfl, Nat.sub_self]
    rfl
  rw [shrink, hCount, Hooks.moved, hFront, hRest, List.append_nil, h.offset, hSet, ite_self]
  split
  · rfl
  · rename_i hDenied
    exact ⟨p.requests, Bool.eq_false_of_not_eq_true hDenied⟩

theorem print_spec (H : Hooks) (F : NumberFormat) (format : Bool) (item : CJSON) :
    (print H F format item).Meets
      ((∃ n, H.grants n = false) ∨ intMax < (CJsonTree.print F format item).length + 2)
      (fun block => block = CJsonTree.print F format item ++ [0] ∧
        (CJsonTree.print F format item).length + 2 ≤ intMax) := by
  have hNul : 0 ∉ CJsonTree.print F format item := noNul_printValue F format item 0
  have hBlock := length_fresh (H := H) 0 256
  have hValue := @printed_value H F format ⟨false, 256, (CJsonTree.print F format item).length⟩ (.inl (Nat.zero_lt_succ 255))
    (H.fresh 0 256) hBlock (hBlock.trans_le (by decide)) 1 item rfl
  have hExcuse : ∀ {J : Job}, J.noalloc = false → J.Excused H →
      (∃ n, H.grants n = false) ∨ intMax < J.total + 2 := by
    rintro J hGrow (⟨_, hFixed | hDenied⟩ | hLong)
    · rw [hGrow] at hFixed
      cases hFixed
    · exact .inl hDenied
    · exact .inr hLong
  rw [print]
  split
  · refine (hValue.excused (hExcuse rfl)).bind fun p hp => ?_
    refine ((updateOffset_filled hp hNul).excused (hExcuse rfl)).bind fun p hp => ?_
    refine ((shrink_spec hp).excused .inl).mono fun block hText => ⟨hText, hp.room.trans hp.most⟩
  · rename_i hDenied
    exact .inl ⟨0, Bool.eq_false_of_not_eq_true hDenied⟩

theorem cJSONPrintPreallocated_spec (H : Hooks) (F : NumberFormat) (format : Bool) (item : CJSON) {buffer : Bytes}
    (hInt : buffer.length ≤ intMax) :
    (cJSONPrintPreallocated H F format item buffer).Meets (buffer.length < (CJsonTree.print F format item).length + 2)
      (fun out => CJsonTree.print F format item ++ [0] <+: out ∧ out.length = buffer.length ∧
        (CJsonTree.print F format item).length + 2 ≤ buffer.length) := by
  have hValue := @printed_value H F format ⟨true, buffer.length, (CJsonTree.print F format item).length⟩
    (.inr (.inr rfl)) buffer rfl hInt 0 item rfl
  refine (hValue.excused ?_).bind fun p hp => ?_
  · rintro (⟨hShort, _⟩ | hLong)
    · exact hShort
    · exact hInt.trans_lt hLong
  · have hFixed : p.buffer.length = buffer.length := hp.filled.fixed rfl
    exact Outcome.Meets.pure ⟨hp.filled.text, hFixed, hFixed ▸ hp.filled.room⟩

theorem null_in_six : ∃ out, cJSONPrintPreallocated ⟨true, fun _ => false, fun _ _ => 0⟩ naturals true .null
    (List.replicate 6 0xff) = .ok out ∧ lit "null" ++ [0] <+: out := by
  have hInt : (List.replicate 6 (0xff : UInt8)).length ≤ intMax := by decide
  obtain ⟨out, hOut, hText, _⟩ := (cJSONPrintPreallocated_spec ⟨true, fun _ => false, fun _ _ => 0⟩ naturals true .null
    hInt).result (by decide)
  exact ⟨out, hOut, hText⟩

theorem cJSONPrintBuffered_spec (H : Hooks) (F : NumberFormat) (format : Bool) (item : CJSON) {prebuffer : Int}
    (hInt : prebuffer ≤ intMax) (hBlock : prebuffer ≠ 0 ∨ H.reallocates = true) :
    (cJSONPrintBuffered H F format item prebuffer).Meets
      (prebuffer < 0 ∨ (∃ n, H.grants n = false) ∨ intMax < (CJsonTree.print F format item).length + 2)
      (fun block => CJsonTree.print F format item ++ [0] <+: block ∧
        (CJsonTree.print F format item).length + 2 ≤ block.length ∧ prebuffer ≤ block.length ∧ block.length ≤ intMax) := by
  have hFresh := length_fresh (H := H) 0 prebuffer.toNat
  rw [cJSONPrintBuffered]
  split
  · exact .inl ‹_›
  rename_i hPos
  have hSafe : Job.Safe ⟨false, prebuffer.toNat, (CJsonTree.print F format item).length⟩ H := by
    obtain hNonzero | hReal := hBlock
    · exact .inl (show 0 < prebuffer.toNat by omega)
    · exact .inr (.inl hReal)
  have hValue := @printed_value H F format _ hSafe (H.fresh 0 prebuffer.toNat) hFresh (by omega) 1 item rfl
  split
  · refine (hValue.excused ?_).bind fun p hp => ?_
    · rintro (⟨_, hFixed | hDenied⟩ | hLong)
      · cases hFixed
      · exact .inr (.inl hDenied)
      · exact .inr (.inr hLong)
    · have hLeast : prebuffer.toNat ≤ p.buffer.length := hp.filled.least
      exact Outcome.Meets.pure ⟨hp.filled.text, hp.filled.room, by omega, hp.filled.most⟩
  · rename_i hDenied
    exact .inr (.inl ⟨0, Bool.eq_false_of_not_eq_true hDenied⟩)

theorem null_in_none : ∃ block, cJSONPrintBuffered ⟨true, fun _ => true, fun _ _ => 0⟩ naturals true .null 0 = .ok block ∧
    lit "null" ++ [0] <+: block := by
  have hExcuse : ¬ ((0 : Int) < 0 ∨ (∃ n : Nat, (fun _ => true) n = false) ∨
      intMax < (CJsonTree.print naturals true .null).length + 2) := by
    rintro (hNegative | ⟨_, hDenied⟩ | hLong)
    · cases hNegative
    · cases hDenied
    · revert hLong
      decide
  obtain ⟨block, hBlock, hText, _⟩ := (cJSONPrintBuffered_spec ⟨true, fun _ => true, fun _ _ => 0⟩ naturals true .null
    (by decide) (.inr rfl)).result hExcuse
  exact ⟨block, hBlock, hText⟩

/-- Without realloc it is read outside of. -/
example : cJSONPrintBuffered ⟨false, fun _ => true, fun _ _ => 0⟩ naturals true .null 0 = .undefined := rfl

end Printed

end MonitorSystem.PrintBuffer
