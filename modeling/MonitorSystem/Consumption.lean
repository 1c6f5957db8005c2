import Mathlib.Data.List.Forall2
import MonitorSystem.Payload

/-! # How much text a parsed value takes

Whatever the layout, a string takes its bytes and two quotes, a member also a
colon, and between the brackets every item is followed by a comma or by the
closing one. What a function leaves of its text is always an end of the text.
-/

namespace MonitorSystem.Consumption

open Msg CJson Report MonitorSystem.Insert Payload Lib.CString

/-- The rest is an end of the text, at least n bytes shorter. -/
structure Takes (n : Nat) (buf rest : Bytes) : Prop where
  suffix : rest <:+ buf
  length : n + rest.length ≤ buf.length

def Consumes {α : Type} (item : Bytes → Option (α × Bytes)) (weight : α → Nat) : Prop :=
  ∀ buf x rest, item buf = some (x, rest) → Takes (weight x) buf rest

def weight : CJSON → Nat
  | .string s => s.length + 2
  | _ => 0

def memberWeight (m : Bytes × CJSON) : Nat := m.1.length + 3 + weight m.2

theorem takes_trans {m n : Nat} {buf buf' rest : Bytes} (h : Takes m buf buf') (hRest : Takes n buf' rest) :
    Takes (m + n) buf rest := by
  refine ⟨hRest.suffix.trans h.suffix, ?_⟩
  have hFirst := h.length
  have hSecond := hRest.length
  omega

theorem takes_cons (b : UInt8) (rest : Bytes) : Takes 1 (b :: rest) rest := by
  refine ⟨List.suffix_cons b rest, ?_⟩
  rw [List.length_cons, Nat.add_comm]

theorem takes_of_suffix {buf rest : Bytes} (h : rest <:+ buf) : Takes 0 buf rest := by
  refine ⟨h, ?_⟩
  have hLength := h.length_le
  omega

theorem bufferSkipWhitespace_suffix (buf : Bytes) : bufferSkipWhitespace buf <:+ buf := by
  induction buf with
  | nil => exact List.nil_suffix
  | cons b buf ih =>
    obtain hSpace | hText := UInt8.le_or_lt b 32
    · cases buf with
      | nil => simp [bufferSkipWhitespace, hSpace]
      | cons c buf =>
        rw [bufferSkipWhitespace_space hSpace (List.cons_ne_nil c buf)]
        exact ih.trans (List.suffix_cons b _)
    · simp [bufferSkipWhitespace_of_gt hText]

theorem takes_skip (buf : Bytes) : Takes 0 buf (bufferSkipWhitespace buf) :=
  takes_of_suffix (bufferSkipWhitespace_suffix buf)

theorem takes_skip_cons {buf rest : Bytes} {b : UInt8} (h : bufferSkipWhitespace buf = b :: rest) :
    Takes 1 buf rest := by
  have hSkip := takes_skip buf
  rw [h] at hSkip
  have hAll := takes_trans hSkip (takes_cons b rest)
  rwa [Nat.zero_add] at hAll

theorem scanString_eq {buf raw rest : Bytes} (h : scanString buf = some (raw, rest)) :
    buf = raw ++ quote :: rest := by
  fun_induction scanString buf generalizing raw with
  | case1 => cases h
  | case2 text =>
    cases h
    rfl
  | case3 => cases h
  | case4 c text hBackslash ih =>
    obtain ⟨⟨raw, rest⟩, hScan, hEq⟩ := Option.map_eq_some_iff.mp h
    cases hEq
    rw [ih hScan]
    rfl
  | case5 b text hQuote hBackslash ih =>
    obtain ⟨⟨raw, rest⟩, hScan, hEq⟩ := Option.map_eq_some_iff.mp h
    cases hEq
    rw [ih hScan]
    rfl

theorem length_utf8_append (codepoint : Nat) (more : Bytes) : (utf8 codepoint ++ more).length ≤ more.length + 4 := by
  have hCode : (utf8 codepoint).length ≤ 4 := by
    unfold utf8
    split_ifs <;> simp [utf8Bytes]
  rw [List.length_append]
  omega

theorem length_unescape {raw s : Bytes} (h : unescape raw = some s) : s.length ≤ raw.length := by
  fun_induction unescape raw generalizing s with
  | case1 =>
    cases h
    exact Nat.le_refl 0
  | case2 b rest hPlain ih =>
    obtain ⟨more, hMore, rfl⟩ := Option.map_eq_some_iff.mp h
    exact Nat.succ_le_succ (ih hMore)
  | case3 =>
    cases h
    exact Nat.le_refl 1
  | case4 | case5 | case6 | case8 | case10 | case12 => cases h
  | case7 | case9 =>
    rename_i ih
    obtain ⟨more, hMore, rfl⟩ := Option.map_eq_some_iff.mp h
    have hRest := ih hMore
    apply (length_utf8_append _ more).trans
    simp only [List.length_cons]
    omega
  | case11 b hBackslash c rest hNotU c' hChar ih =>
    obtain ⟨more, hMore, rfl⟩ := Option.map_eq_some_iff.mp h
    have hRest := ih hMore
    simp only [List.length_cons]
    omega

theorem parseString_consumes : Consumes parseString (fun s => s.length + 2) := by
  intro buf s rest h
  cases buf with
  | nil => cases h
  | cons b text =>
    rw [parseString] at h
    split_ifs at h with hQuote
    obtain ⟨⟨raw, rest⟩, hScan, hUnescape⟩ := Option.bind_eq_some_iff.mp h
    obtain ⟨s, hs, hEq⟩ := Option.map_eq_some_iff.mp hUnescape
    cases hEq
    have hText := scanString_eq hScan
    have hRaw : s.length ≤ raw.length := length_unescape hs
    refine ⟨?_, ?_⟩
    · rw [hText]
      exact (List.suffix_cons quote rest).trans ((List.suffix_append raw _).trans (List.suffix_cons b _))
    · rw [hText]
      simp only [List.length_cons, List.length_append]
      omega

theorem parseItems_takes {α : Type} {item : Bytes → Option (α × Bytes)} {itemWeight : α → Nat} {close : UInt8}
    (hItem : Consumes item itemWeight) {fuel : Nat} {buf rest : Bytes} {items : List α}
    (h : parseItems item close fuel buf = some (items, rest)) :
    close :: rest <:+ buf ∧ Takes (items.map fun x => itemWeight x + 1).sum buf rest := by
  induction fuel generalizing buf items with
  | zero => cases h
  | succ fuel ih =>
    rw [parseItems] at h
    obtain ⟨⟨x, buf'⟩, hx, hMore⟩ := Option.bind_eq_some_iff.mp h
    have hFirst : Takes (itemWeight x) buf buf' := by
      simpa using takes_trans (takes_skip buf) (hItem _ _ _ hx)
    cases hSkip : bufferSkipWhitespace buf' with
    | nil =>
      rw [hSkip] at hMore
      cases hMore
    | cons b text =>
      have hNext := takes_trans hFirst (takes_skip_cons hSkip)
      have hEnd : b :: text <:+ buf := by
        rw [← hSkip]
        exact (bufferSkipWhitespace_suffix buf').trans hFirst.suffix
      simp only [hSkip] at hMore
      split_ifs at hMore with hComma hClose
      · obtain ⟨⟨items, rest⟩, hItems, hEq⟩ := Option.map_eq_some_iff.mp hMore
        cases hEq
        obtain ⟨hSuffix, hTakes⟩ := ih hItems
        refine ⟨hSuffix.trans ((List.suffix_cons b text).trans hEnd), ?_⟩
        rw [List.map_cons, List.sum_cons]
        exact takes_trans hNext hTakes
      · cases hMore
        refine ⟨hClose ▸ hEnd, ?_⟩
        simpa using hNext

theorem parseBracket_takes {α : Type} {item : Bytes → Option (α × Bytes)} {itemWeight : α → Nat} {close : UInt8}
    (hItem : Consumes item itemWeight) {buf rest : Bytes} {items : List α}
    (h : parseBracket item close buf = some (items, rest)) :
    close :: rest <:+ buf ∧ Takes (items.map fun x => itemWeight x + 1).sum buf rest := by
  rw [parseBracket] at h
  cases hSkip : bufferSkipWhitespace buf with
  | nil =>
    rw [hSkip] at h
    cases h
  | cons b text =>
    have hSuffix := bufferSkipWhitespace_suffix buf
    have hTakes := takes_skip buf
    rw [hSkip] at hSuffix hTakes
    simp only [hSkip] at h
    split_ifs at h with hClose
    · cases h
      refine ⟨hClose ▸ hSuffix, takes_of_suffix ?_⟩
      exact (List.suffix_cons b _).trans hSuffix
    · obtain ⟨hEnd, hItems⟩ := parseItems_takes hItem h
      refine ⟨hEnd.trans hSuffix, ?_⟩
      simpa using takes_trans hTakes hItems

theorem parseMember_consumes {value : Bytes → Option (CJSON × Bytes)} (hValue : Consumes value weight) :
    Consumes (parseMember value) memberWeight := by
  intro buf m rest h
  obtain ⟨⟨name, text⟩, hName, hMore⟩ := Option.bind_eq_some_iff.mp h
  have hString := parseString_consumes _ _ _ hName
  cases hSkip : bufferSkipWhitespace text with
  | nil =>
    simp only [hSkip] at hMore
    cases hMore
  | cons b after =>
    simp only [hSkip] at hMore
    split_ifs at hMore with hColon
    obtain ⟨⟨v, rest⟩, hv, hEq⟩ := Option.map_eq_some_iff.mp hMore
    cases hEq
    have hColonTaken := takes_trans hString (takes_skip_cons hSkip)
    have hAll := takes_trans (takes_trans hColonTaken (takes_skip after)) (hValue _ _ _ hv)
    exact hAll

theorem parseValue_cases {depth : Nat} {buf rest : Bytes} {v : CJSON} (h : parseValue depth buf = some (v, rest)) :
    (weight v = 0 ∧ (∀ child, v ≠ .object child) ∧ rest <:+ buf) ∨
    (∃ s, v = .string s ∧ parseString buf = some (s, rest)) ∨
    (∃ d b text items, depth = d + 1 ∧ buf = b :: text ∧ v = .array items ∧
      parseBracket (parseValue d) 0x5d text = some (items, rest)) ∨
    (∃ d b text child, depth = d + 1 ∧ buf = b :: text ∧ v = .object child ∧
      parseBracket (parseMember (parseValue d)) 0x7d text = some (child, rest)) := by
  rw [parseValue.eq_def] at h
  split_ifs at h with hNull hFalse hTrue
  · cases h
    exact .inl ⟨rfl, fun _ => CJSON.noConfusion, List.drop_suffix 4 buf⟩
  · cases h
    exact .inl ⟨rfl, fun _ => CJSON.noConfusion, List.drop_suffix 5 buf⟩
  · cases h
    exact .inl ⟨rfl, fun _ => CJSON.noConfusion, List.drop_suffix 4 buf⟩
  cases buf with
  | nil => cases h
  | cons b text =>
    dsimp only at h
    split_ifs at h with hQuote hNumber hArray hObject
    · obtain ⟨⟨s, rest⟩, hString, hEq⟩ := Option.map_eq_some_iff.mp h
      cases hEq
      exact .inr (.inl ⟨s, rfl, hString⟩)
    · rw [parseNumber] at h
      split_ifs at h with hEmpty
      cases h
      exact .inl ⟨rfl, fun _ => CJSON.noConfusion, List.drop_suffix _ _⟩
    · cases depth with
      | zero => cases h
      | succ depth =>
        obtain ⟨⟨items, rest⟩, hBracket, hEq⟩ := Option.map_eq_some_iff.mp h
        cases hEq
        exact .inr (.inr (.inl ⟨depth, b, text, items, rfl, rfl, rfl, hBracket⟩))
    · cases depth with
      | zero => cases h
      | succ depth =>
        obtain ⟨⟨child, rest⟩, hBracket, hEq⟩ := Option.map_eq_some_iff.mp h
        cases hEq
        exact .inr (.inr (.inr ⟨depth, b, text, child, rfl, rfl, rfl, hBracket⟩))
    · cases depth with
      | zero => cases h
      | succ depth => cases h

theorem parseValue_consumes (depth : Nat) : Consumes (parseValue depth) weight := by
  induction depth with
  | zero =>
    intro buf v rest h
    obtain ⟨hWeight, _, hSuffix⟩ | ⟨s, rfl, hString⟩ | ⟨d, b, text, items, hDepth, _⟩ | ⟨d, b, text, child, hDepth, _⟩ :=
      parseValue_cases h
    · rw [hWeight]
      exact takes_of_suffix hSuffix
    · exact parseString_consumes _ _ _ hString
    · cases hDepth
    · cases hDepth
  | succ depth ih =>
    intro buf v rest h
    obtain ⟨hWeight, _, hSuffix⟩ | ⟨s, rfl, hString⟩ | ⟨d, b, text, items, hDepth, rfl, rfl, hBracket⟩ |
      ⟨d, b, text, child, hDepth, rfl, rfl, hBracket⟩ := parseValue_cases h
    · rw [hWeight]
      exact takes_of_suffix hSuffix
    · exact parseString_consumes _ _ _ hString
    · cases hDepth
      have hTakes := (parseBracket_takes ih hBracket).2
      exact takes_of_suffix (hTakes.suffix.trans (List.suffix_cons b text))
    · cases hDepth
      have hTakes := (parseBracket_takes (parseMember_consumes ih) hBracket).2
      exact takes_of_suffix (hTakes.suffix.trans (List.suffix_cons b text))

theorem skipUtf8Bom_suffix (buf : Bytes) : skipUtf8Bom buf <:+ buf := by
  unfold skipUtf8Bom
  split_ifs
  · exact List.drop_suffix 3 buf
  · exact List.suffix_rfl

theorem cJSONParse_object {text : Bytes} {child : List (Bytes × CJSON)}
    (h : cJSONParse text = some (.object child)) :
    (child.map fun m => memberWeight m + 1).sum + 1 ≤ text.length := by
  obtain ⟨⟨v, rest⟩, hValue, hEq⟩ := Option.map_eq_some_iff.mp h
  have hStart : Takes 0 (text ++ [0]) (bufferSkipWhitespace (skipUtf8Bom (text ++ [0]))) :=
    takes_of_suffix ((bufferSkipWhitespace_suffix _).trans (skipUtf8Bom_suffix _))
  obtain ⟨_, hOther, _⟩ | ⟨s, rfl, _⟩ | ⟨d, b, after, items, _, _, rfl, _⟩ |
    ⟨d, b, after, child, hDepth, hBuf, rfl, hBracket⟩ := parseValue_cases hValue
  · exact absurd hEq (hOther child)
  · cases hEq
  · cases hEq
  · cases hEq
    rw [hBuf] at hStart
    obtain ⟨hEnd, hItems⟩ := parseBracket_takes (parseMember_consumes (parseValue_consumes d)) hBracket
    have hTakes := takes_trans (takes_trans hStart (takes_cons b after)) hItems
    have hRest : rest ≠ [] := by
      rintro rfl
      have hLast : [0x7d] <:+ text ++ [0] := hEnd.trans ((List.suffix_cons b after).trans hStart.suffix)
      exact absurd (List.singleton_suffix_append_singleton_iff.mp hLast) (by decide)
    have hLength := hTakes.length
    have hPos := List.length_pos_iff.mpr hRest
    rw [List.length_append, List.length_singleton] at hLength
    omega

def Holds (name value : Bytes) (m : Bytes × CJSON) : Prop :=
  (cstr m.1).map tolower = name.map tolower ∧ name.length + value.length + 5 ≤ memberWeight m

theorem object_of_found {parsed : Option CJSON} {name : Bytes} {item : CJSON}
    (h : cJSONGetObjectItem parsed name = some item) : ∃ child, parsed = some (.object child) := by
  unfold cJSONGetObjectItem at h
  split at h
  · exact ⟨_, rfl⟩
  · cases h

theorem holds_of_found {child : List (Bytes × CJSON)} {name value : Bytes}
    (h : (cJSONGetObjectItem (some (.object child)) name).bind CJSON.valuestring = some value) :
    ∃ m ∈ child, Holds name value m := by
  obtain ⟨item, hItem, hValue⟩ := Option.bind_eq_some_iff.mp h
  obtain ⟨m, hFind, rfl⟩ := Option.map_eq_some_iff.mp hItem
  have hName : (cstr m.1).map tolower = name.map tolower := by simpa using List.find?_some hFind
  refine ⟨m, List.mem_of_find?_eq_some hFind, hName, ?_⟩
  have hKey : name.length ≤ m.1.length := by
    have hEqual := congrArg List.length hName
    rw [List.length_map, List.length_map] at hEqual
    exact hEqual ▸ length_cstr_le m.1
  obtain ⟨key, item⟩ := m
  cases item with
  | string s =>
    cases hValue
    have hLength := length_cstr_le s
    rw [memberWeight, weight]
    omega
  | null | false | true | number | array | object => cases hValue

theorem forall₂_of_mapM {f : Bytes → Option Bytes} {names values : List Bytes} (h : names.mapM f = some values) :
    List.Forall₂ (fun name value => f name = some value) names values := by
  induction names generalizing values with
  | nil =>
    cases h
    exact .nil
  | cons name names ih =>
    rw [List.mapM_cons] at h
    obtain ⟨value, hValue, hMore⟩ := Option.bind_eq_some_iff.mp h
    obtain ⟨more, hRest, hEq⟩ := Option.bind_eq_some_iff.mp hMore
    cases hEq
    exact .cons hValue (ih hRest)

theorem sum_found {names values : List Bytes} {child : List (Bytes × CJSON)}
    (hDistinct : (names.map fun name => name.map tolower).Nodup)
    (hFound : List.Forall₂ (fun name value => ∃ m ∈ child, Holds name value m) names values) :
    names.flatten.length + values.flatten.length + 6 * names.length ≤
      (child.map fun m => memberWeight m + 1).sum := by
  induction names generalizing values child with
  | nil =>
    cases hFound
    exact Nat.zero_le _
  | cons name names ih =>
    obtain ⟨hName, hNames⟩ := List.nodup_cons.mp hDistinct
    cases hFound with
    | @cons _ value _ values hFirst hRest =>
      obtain ⟨m, hm, hHolds⟩ := hFirst
      obtain ⟨before, after, rfl⟩ := List.append_of_mem hm
      have hApart : ∀ other ∈ names, other.map tolower ≠ name.map tolower := by
        intro other hOther hEq
        exact hName (List.mem_map.mpr ⟨other, hOther, hEq⟩)
      have hOthers : List.Forall₂ (fun name value => ∃ m ∈ before ++ after, Holds name value m) names values := by
        apply (List.forall₂_and_left _ _ |>.mpr ⟨hApart, hRest⟩).imp
        rintro other value ⟨hOther, m', hm', hHolds'⟩
        refine ⟨m', ?_, hHolds'⟩
        obtain hBefore | hAfter := List.mem_append.mp hm'
        · exact List.mem_append_left after hBefore
        · obtain rfl | hAfter := List.mem_cons.mp hAfter
          · exact absurd (hHolds'.1.symm.trans hHolds.1) hOther
          · exact List.mem_append_right before hAfter
      have hSum := ih hNames hOthers
      have hWeight := hHolds.2
      simp only [List.map_append, List.sum_append, List.map_cons, List.sum_cons, List.flatten_cons,
        List.length_append, List.length_cons] at hSum ⊢
      omega

def spread : Kind → Nat
  | .mem => 36
  | .cpu => 36
  | .disk => 37
  | .sys => 36

theorem object_of_strings {kind : Kind} {msg : MonitorMsgDs} {values : List Bytes}
    (h : strings kind msg = some values) : ∃ child, cJSONParse msg.text = some (.object child) := by
  have hAll := forall₂_of_mapM h
  obtain ⟨name, names, hColumns⟩ : ∃ name names, kind.columns = name :: names := by
    cases kind <;> exact ⟨_, _, rfl⟩
  rw [hColumns] at hAll
  cases hAll with
  | cons hFirst _ =>
    obtain ⟨item, hItem, _⟩ := Option.bind_eq_some_iff.mp hFirst
    exact object_of_found hItem

theorem length_strings {kind : Kind} {msg : MonitorMsgDs} {values : List Bytes}
    (h : strings kind msg = some values) :
    kind.columns.flatten.length + values.flatten.length + 6 * kind.columns.length + 1 ≤ msg.text.length := by
  obtain ⟨child, hParse⟩ := object_of_strings h
  have hObject := cJSONParse_object hParse
  rw [strings, hParse] at h
  have hFound := (forall₂_of_mapM h).imp fun name value => holds_of_found
  have hSum := sum_found (columns_distinct kind) hFound
  omega

/-- The statement fits sql[500] exactly when the values fit its room, and it is at most 37 bytes
longer than the payload. -/
theorem sql_fits_iff {kind : Kind} {msg : MonitorMsgDs} {values : List Bytes}
    (hStrings : strings kind msg = some values) :
    ((strcatSql (headOf kind) values).length < sqlSize ↔ values.flatten.length ≤ room kind) ∧
      (strcatSql (headOf kind) values).length ≤ msg.text.length + spread kind := by
  have hLength := length_strcatSql (length_of_mapM hStrings)
  have hPayload := length_strings hStrings
  have hOverhead : kind.columns.flatten.length + 6 * kind.columns.length + 1 + room kind + spread kind = 499 := by
    cases kind <;> decide +kernel
  rw [sqlSize]
  constructor
  · constructor
    · intro hFits
      omega
    · intro hRoom
      omega
  · omega

def tight : MonitorMsgDs where
  type := sysDisk
  buff := lit "\x7b\"now_time\":\"" ++ List.replicate 419 0x74 ++
    lit "\",\"disk_size\":\"\",\"used_space\":\"\",\"avail_space\":\"\",\"utilization\":\"\"\x7d" ++ [0]
  buff_length := by decide +kernel

theorem tight_too_long : tight.text.length = 499 ∧ ∃ values, strings .disk tight = some values ∧
    ¬ (strcatSql (headOf .disk) values).length < sqlSize := by
  refine ⟨by decide +kernel, [List.replicate 419 0x74, [], [], [], []], by decide +kernel, by decide +kernel⟩

theorem sql_fits_wellFormed :
    ((strcatSql (headOf .disk) [lit "t", lit "1", lit "2", lit "3", lit "4"]).length < sqlSize ↔
      [lit "t", lit "1", lit "2", lit "3", lit "4"].flatten.length ≤ room .disk) ∧
      (strcatSql (headOf .disk) [lit "t", lit "1", lit "2", lit "3", lit "4"]).length ≤
        wellFormed.text.length + spread .disk :=
  sql_fits_iff (by decide +kernel)

end MonitorSystem.Consumption
