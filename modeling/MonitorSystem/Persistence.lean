import MonitorSystem.Lib.Records
import MonitorSystem.Saved
import MonitorSystem.SendData

/-! # Reports that were kept in a file

A report whose send failed is appended as the lines of its JSON text. A field
that the line of the report lacks is a line less.
-/

namespace MonitorSystem.Persistence

open Msg CJson Report SendData SendFile Saved Lib.CString Lib.Records Lib.Stdio

/-- A report for which the send failed and the append succeeded. -/
structure Persisted (kind : Kind) where
  m : MonitorMsgDs
  stack : MonitorMsgDs
  out : Outgoing
  io : Io
  type : m.type = kind.type
  serialised : serialise kind m stack = some out
  tcp : out.urgent = false
  error : io.send = .error
  stores : io.Stores out.str

variable {kind : Kind}

def Persisted.text (r : Persisted kind) : Bytes := r.out.str

def Persisted.missing (r : Persisted kind) : Nat := kind.need - (tokens delim r.m.text).length

def persistAll : List (Persisted kind) → Client → Option Client
  | [], c => some c
  | r :: rs, c => (iteration r.m r.stack r.io c).bind (persistAll rs)

theorem Persisted.appended (r : Persisted kind) {c : Client} (hRun : c.running = true) :
    ∃ c', iteration r.m r.stack r.io c = some c' ∧ c'.running = true ∧
      c'.files kind = some ((c.files kind).getD [] ++ r.text ++ lit "\n") := by
  refine ⟨_, iteration_eq (r.type ▸ kindOf_type kind) r.serialised r.io c, ?_⟩
  have hTcp : transmit kind r.out r.io c = sendTcp kind r.out.str r.io c := by
    rw [transmit, r.tcp, if_neg Bool.false_ne_true]
  obtain ⟨hRunning, hWhole | hFile⟩ := (sendTcp_error_kept_iff hRun r.error).mpr r.stores
  · rw [r.error] at hWhole
    cases hWhole
  · rw [hTcp]
    exact ⟨hRunning, hFile⟩

theorem persistAll_stored (rs : List (Persisted kind)) {c : Client} (hRun : c.running = true) :
    ∃ c', persistAll rs c = some c' ∧ c'.running = true ∧
      (c'.files kind).getD [] = (c.files kind).getD [] ++ stored (rs.map Persisted.text) := by
  induction rs generalizing c with
  | nil => exact ⟨c, rfl, hRun, (List.append_nil _).symm⟩
  | cons r rs ih =>
    obtain ⟨c', hStep, hRun', hFile⟩ := r.appended hRun
    obtain ⟨c'', hRest, hRun'', hFiles⟩ := ih hRun'
    refine ⟨c'', ?_, hRun'', ?_⟩
    · rw [persistAll, hStep, Option.bind_some, hRest]
    · have hNewline : lit "\n" = [0x0a] := rfl
      rw [hFiles, hFile, Option.getD_some, List.map_cons, stored_cons, hNewline, List.append_assoc,
        List.append_assoc]
      rfl

theorem Persisted.printed (r : Persisted kind) :
    ∃ members : List (Bytes × Bytes), r.text = cJSONPrint members ∧ members.length + r.missing + 1 = kind.need := by
  obtain ⟨mem_data, hData, hStr, _⟩ := serialise_inv r.serialised
  obtain ⟨date, clock, fields, hTokens, _, rfl⟩ := memData_inv hData
  refine ⟨_, hStr, ?_⟩
  rw [Persisted.missing, hTokens, values_tokens hTokens, List.length_zip, Kind.columns, Kind.need]
  simp only [List.length_cons, List.length_take]
  omega

theorem Persisted.length_text (r : Persisted kind) : r.text.length < msgBuffSize := by
  obtain ⟨_, _, _, hMsg, _⟩ := serialise_inv r.serialised
  rw [MonitorMsgDs.strcpyBuff] at hMsg
  split at hMsg
  · assumption
  · cases hMsg

theorem Persisted.noNul (r : Persisted kind) : 0 ∉ r.text := by
  obtain ⟨members, hText, _⟩ := r.printed
  rw [hText]
  exact noNul_cJSONPrint members

def Persisted.lines (r : Persisted kind) : List Bytes := fgetsLines msgBuffSize (r.text ++ [0x0a])

def opens (line : Bytes) : Bool := line.head? = some 0x7b

theorem isLine_printedLines {members : List (Bytes × Bytes)} (h : (cJSONPrint members).length < msgBuffSize) :
    ∀ line ∈ printedLines members, IsLine msgBuffSize line := by
  have hLength := congrArg List.length (flatten_printedLines members)
  rw [List.length_append, List.length_singleton] at hLength
  intro line hLine
  rw [printedLines, List.mem_cons, List.mem_append, List.mem_singleton] at hLine
  obtain rfl | hMember | rfl := hLine
  · exact ⟨lit "\x7b", rfl, by decide, by decide⟩
  · obtain ⟨_, body, rfl, hPlain⟩ := memberLines_shape hMember
    have hPart := (List.sublist_flatten_of_mem hMember).length_le
    have hOpen : (lit "\x7b\n").length = 2 := rfl
    have hClose : (lit "\x7d\n").length = 2 := rfl
    rw [printedLines, List.flatten_cons, List.flatten_append, List.length_append, List.length_append, hOpen,
      List.flatten_singleton, hClose] at hLength
    rw [List.length_append, List.length_singleton] at hPart
    exact ⟨body, rfl, hPlain, by omega⟩
  · exact ⟨lit "\x7d", rfl, by decide, by decide⟩

theorem whole_printedLines (members : List (Bytes × Bytes)) : whole opens (printedLines members) = true := by
  have hOpens : opens (lit "\x7b\n") = true := by decide +kernel
  have hClose : opens (lit "\x7d\n") = false := by decide +kernel
  rw [printedLines, whole, hOpens, Bool.true_and, List.all_append, List.all_cons, List.all_nil, hClose]
  rw [Bool.and_eq_true, List.all_eq_true]
  refine ⟨?_, rfl⟩
  intro line hLine
  rw [opens, (memberLines_shape hLine).1]
  decide

theorem Persisted.lines_facts (r : Persisted kind) :
    r.lines.flatten = r.text ++ [0x0a] ∧ r.lines.length + r.missing = linesOf kind ∧ whole opens r.lines = true ∧
      ∀ line ∈ r.lines, IsLine msgBuffSize line := by
  obtain ⟨members, hText, hLength⟩ := r.printed
  have hFits := r.length_text
  rw [hText] at hFits
  have hIsLine := isLine_printedLines hFits
  have hLines : r.lines = printedLines members := by
    rw [Persisted.lines, hText, ← flatten_printedLines, fgetsLines_flatten hIsLine]
  rw [hLines, hText]
  refine ⟨flatten_printedLines members, ?_, whole_printedLines members, hIsLine⟩
  rw [length_printedLines, linesOf_eq]
  rw [Kind.need] at hLength
  omega

theorem Persisted.lines_nonempty (r : Persisted kind) : ∀ line ∈ r.lines, ∃ b rest, line = b :: rest ∧ b ≠ 0x0a := by
  obtain ⟨members, hText, _⟩ := r.printed
  have hFits := r.length_text
  rw [hText] at hFits
  rw [Persisted.lines, hText, ← flatten_printedLines, fgetsLines_flatten (isLine_printedLines hFits), printedLines]
  intro line hLine
  rw [List.mem_cons, List.mem_append, List.mem_singleton] at hLine
  obtain rfl | hMember | rfl := hLine
  · exact ⟨0x7b, [0x0a], rfl, by decide⟩
  · obtain ⟨rest, hRest⟩ := List.head?_eq_some_iff.mp (memberLines_shape hMember).1
    exact ⟨0x09, rest, hRest, by decide⟩
  · exact ⟨0x7d, [0x0a], rfl, by decide⟩

theorem Persisted.text_begins (r : Persisted kind) : ∃ rest, r.text = 0x7b :: 0x0a :: rest := by
  obtain ⟨members, hText, _⟩ := r.printed
  exact ⟨_, hText⟩

theorem flatten_lines (rs : List (Persisted kind)) :
    ((rs.map Persisted.lines).flatten).flatten = stored (rs.map Persisted.text) := by
  induction rs with
  | nil => rfl
  | cons r rs ih =>
    rw [List.map_cons, List.flatten_cons, List.flatten_append, r.lines_facts.1, ih, List.map_cons, stored_cons,
      List.append_assoc]
    rfl

theorem fgetsLines_stored (rs : List (Persisted kind)) :
    fgetsLines msgBuffSize (stored (rs.map Persisted.text)) = (rs.map Persisted.lines).flatten := by
  rw [← flatten_lines, fgetsLines_flatten]
  intro line hLine
  obtain ⟨_, hLines, hMem⟩ := List.mem_flatten.mp hLine
  obtain ⟨r, _, rfl⟩ := List.mem_map.mp hLines
  exact r.lines_facts.2.2.2 line hMem

end MonitorSystem.Persistence
