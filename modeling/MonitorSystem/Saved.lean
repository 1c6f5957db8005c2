import MonitorSystem.SendFile

/-! # The records of a persistence file

The sender keeps a report as its text and a newline, in two writes. A file of
complete reports can be cut back into them, also while the last newline is due.
-/

namespace MonitorSystem.Saved

open Msg CJson Report SendFile Lib.CString Lib.Stdio

/-- A text that do_with_file can collect as one record. -/
structure Complete (kind : Kind) (text : Bytes) : Prop where
  noNul : 0 ∉ text
  lines : text.count 0x0a + 1 = linesOf kind
  unended : ¬ Ended text
  fits : text.length + 1 < msgBuffSize

def stored (texts : List Bytes) : Bytes := texts.flatMap (· ++ [0x0a])

/-- The text of a record, which may have been read before its newline was written. -/
def recordOf (text : Bytes) : Bytes := if text.getLast? = some 0x0a then text.dropLast else text

@[simp] theorem stored_cons (text : Bytes) (texts : List Bytes) :
    stored (text :: texts) = text ++ 0x0a :: stored texts := by
  rw [stored, List.flatMap_cons, List.append_assoc]
  rfl

theorem stored_concat (texts : List Bytes) (text : Bytes) :
    stored (texts ++ [text]) = stored texts ++ text ++ [0x0a] := by
  rw [stored, List.flatMap_append, List.flatMap_singleton, List.append_assoc]
  rfl

theorem stored_eq_nil {texts : List Bytes} (h : stored texts = []) : texts = [] := by
  cases texts with
  | nil => rfl
  | cons text texts => simp at h

theorem recordOf_ended (text : Bytes) : recordOf (text ++ [0x0a]) = text := by
  rw [recordOf, if_pos List.getLast?_concat, List.dropLast_concat]

theorem Complete.recordOf_eq {kind : Kind} {text : Bytes} (h : Complete kind text) : recordOf text = text := by
  rw [recordOf, if_neg fun hLast => h.unended (.inr hLast)]

theorem linesOf_pos (kind : Kind) : 0 < linesOf kind := by
  cases kind <;> decide

theorem linesOf_eq (kind : Kind) : linesOf kind = kind.keys.length + 3 := by
  cases kind <;> rfl

theorem line_cases {file tail first rest : Bytes} (hTail : tail = [] ∨ tail = [0x0a])
    (h : file ++ tail = first ++ 0x0a :: rest) :
    (∃ rest', file = first ++ 0x0a :: rest' ∧ rest' ++ tail = rest) ∨
      (file = first ∧ tail = [0x0a] ∧ rest = []) := by
  obtain rfl | rfl := hTail
  · rw [List.append_nil] at h
    exact .inl ⟨rest, h, List.append_nil rest⟩
  · obtain rfl | ⟨rest', b, rfl⟩ := List.eq_nil_or_concat' rest
    · exact .inr ⟨List.append_cancel_right h, rfl, rfl⟩
    · have hEnd : (first ++ 0x0a :: rest') ++ [b] = file ++ [0x0a] := by
        rw [h, List.append_assoc, List.cons_append]
      obtain ⟨hFile, hLast⟩ := List.append_inj' hEnd rfl
      exact .inl ⟨rest', hFile.symm, by rw [hLast]⟩

theorem flatMap_cstr {lines : List Bytes} (h : 0 ∉ lines.flatten) : lines.flatMap cstr = lines.flatten := by
  induction lines with
  | nil => rfl
  | cons line lines ih =>
    rw [List.flatten_cons, List.mem_append, not_or] at h
    rw [List.flatMap_cons, List.flatten_cons, cstr_of_noNul h.1, ih h.2]

section

variable {kind : Kind} {text : Bytes}

theorem Complete.noNul_ended (h : Complete kind text) : 0 ∉ text ++ [0x0a] := by
  rw [List.mem_append, not_or]
  exact ⟨h.noNul, by decide⟩

theorem Complete.count_ended (h : Complete kind text) : (text ++ [0x0a]).count 0x0a = linesOf kind := by
  rw [List.count_append, List.count_singleton_self]
  exact h.lines

theorem Complete.length_ended (h : Complete kind text) : (text ++ [0x0a]).length < msgBuffSize := by
  rw [List.length_append]
  exact h.fits

theorem Complete.line_facts (h : Complete kind text) {temp first more : Bytes}
    (hPlain : 0x0a ∉ first) (hRecord : text ++ [0x0a] = temp ++ (first ++ 0x0a :: more)) :
    0 ∉ first ∧ temp.length + first.length + more.length + 1 < msgBuffSize ∧
      temp.count 0x0a + more.count 0x0a + 1 = linesOf kind := by
  have hNul := h.noNul_ended
  have hFits := h.length_ended
  have hNewlines := h.count_ended
  rw [hRecord, List.mem_append, List.mem_append, not_or, not_or] at hNul
  rw [hRecord, List.length_append, List.length_append, List.length_cons] at hFits
  rw [hRecord, List.count_append, List.count_append, List.count_eq_zero_of_not_mem hPlain,
    List.count_cons_self] at hNewlines
  exact ⟨hNul.2.1, by omega, by omega⟩

theorem flatMap_fgetsLines {s : Bytes} (hs : 0 ∉ s) :
    (fgetsLines msgBuffSize s).flatMap cstr = s := by
  have hFlatten : (fgetsLines msgBuffSize s).flatten = s := flatten_fgetsLines (by decide) s
  rw [flatMap_cstr (by rwa [hFlatten]), hFlatten]

theorem Complete.records_line (h : Complete kind text) (rest : Bytes) :
    records (linesOf kind) (text ++ 0x0a :: rest) = (text ++ [0x0a]) :: records (linesOf kind) rest := by
  have hLength := (length_fgetsLines h.length_ended).1 (ended_concat text)
  rw [h.count_ended] at hLength
  rw [records, ← List.singleton_append, ← List.append_assoc, fgetsLines_append (ended_concat text) h.length_ended,
    texts_append (linesOf_pos kind) hLength, flatMap_fgetsLines h.noNul_ended]
  rfl

theorem Complete.records_last (h : Complete kind text) : records (linesOf kind) text = [text] := by
  have hLength := (length_fgetsLines (Nat.lt_of_succ_lt h.fits)).2 h.unended
  rw [h.lines] at hLength
  rw [records, ← List.append_nil (fgetsLines msgBuffSize text), texts_append (linesOf_pos kind) hLength,
    flatMap_fgetsLines h.noNul, texts_short (linesOf_pos kind)]

end

theorem records_stored {kind : Kind} {texts : List Bytes} (hComplete : ∀ t ∈ texts, Complete kind t)
    {file tail : Bytes} (hTail : tail = [] ∨ tail = [0x0a]) (h : file ++ tail = stored texts) :
    (records (linesOf kind) file).map recordOf = texts := by
  induction texts generalizing file with
  | nil =>
    rw [(List.append_eq_nil_iff.mp h).1, records_nil (linesOf_pos kind)]
    rfl
  | cons text texts ih =>
    have hText := hComplete text List.mem_cons_self
    rw [stored_cons] at h
    obtain ⟨rest, rfl, hRest⟩ | ⟨rfl, _, hNone⟩ := line_cases hTail h
    · rw [hText.records_line, List.map_cons, recordOf_ended,
        ih (fun t ht => hComplete t (List.mem_cons_of_mem text ht)) hRest]
    · rw [hText.records_last, stored_eq_nil hNone, List.map_singleton, hText.recordOf_eq]

theorem length_memData {kind : Kind} {line : Bytes} {mem_data : List (Bytes × Bytes)}
    (h : memData kind.keys line = some mem_data) (hNeed : kind.need ≤ (tokens delim line).length) :
    mem_data.length = kind.keys.length + 1 := by
  obtain ⟨date, clock, fields, hTokens, _, rfl⟩ := memData_inv h
  rw [hTokens, Kind.need, List.length_cons, List.length_cons, Nat.add_le_add_iff_right] at hNeed
  rw [List.length_zip, values_length hTokens hNeed, Nat.min_self]
  rfl

theorem serialise_str {kind : Kind} {m stack : MonitorMsgDs} {out : Outgoing}
    (h : serialise kind m stack = some out) :
    ∃ mem_data, memData kind.keys m.text = some mem_data ∧ out.str = cJSONPrint mem_data := by
  obtain ⟨mem_data, hData, hStr, _⟩ := serialise_inv h
  exact ⟨mem_data, hData, hStr⟩

theorem unended_cJSONPrint (members : List (Bytes × Bytes)) : ¬ Ended (cJSONPrint members) := by
  have hLast : (cJSONPrint members).getLast? = some 0x7d := List.getLast?_concat
  rintro (hNil | hNewline)
  · rw [hNil] at hLast
    cases hLast
  · rw [hLast] at hNewline
    cases hNewline

theorem complete_of_serialise {kind : Kind} {m stack : MonitorMsgDs} {out : Outgoing}
    (h : serialise kind m stack = some out) (hNeed : kind.need ≤ (tokens delim m.text).length)
    (hFits : out.str.length + 1 < msgBuffSize) : Complete kind out.str := by
  obtain ⟨mem_data, hData, hStr⟩ := serialise_str h
  rw [hStr] at hFits ⊢
  have hLength := length_memData hData hNeed
  refine ⟨noNul_cJSONPrint mem_data, ?_, unended_cJSONPrint mem_data, hFits⟩
  rw [count_cJSONPrint, hLength, linesOf_eq]

end MonitorSystem.Saved
