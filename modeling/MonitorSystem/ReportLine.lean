import MonitorSystem.Collection

/-! # What a line of words is reported and stored as

A value is printed by a script, named by the client and written into a column
by the server. The name depends only on the place of the word in the line.
-/

namespace MonitorSystem.ReportLine

open Msg CJson Report Syslog MonitorSystem.Insert Payload Collection Lib.CString Lib.Shell

/-- The message that the client makes of one output of a script. -/
def reported (kind : Kind) (output : Bytes) (queued stack : MonitorMsgDs) : Option MonitorMsgDs :=
  (enqueue kind (checkFor kind output) queued).bind fun m => (serialise kind m stack).map Outgoing.msg

def member (msg : MonitorMsgDs) (name : Bytes) : Option Bytes :=
  (cJSONGetObjectItem (cJSONParse msg.text) name).bind CJSON.valuestring

def stored (kind : Kind) (msg : MonitorMsgDs) (column : Bytes) : Option Bytes :=
  (strings kind msg).bind fun values => values[kind.columns.idxOf column]?

def output (words : List Bytes) : Bytes := joined words ++ [0x0a]

section

variable {kind : Kind} {text date clock : Bytes} {fields : List Bytes} {queued stack msg : MonitorMsgDs}

theorem text_of_reported (h : reported kind text queued stack = some msg) :
    msg.text = cJSONPrint (kind.columns.zip (kind.values (line kind text))) ∧
      ∀ v ∈ kind.values (line kind text), 0 ∉ v := by
  obtain ⟨m, hQueued, h⟩ := Option.bind_eq_some_iff.mp h
  obtain ⟨out, hOut, rfl⟩ := Option.map_eq_some_iff.mp h
  have hTerminated : Terminated kind text := by
    by_contra hNot
    rw [enqueue_unterminated hNot] at hQueued
    cases hQueued
  obtain ⟨m', hQueued', _, hText⟩ := enqueue_eq hTerminated queued
  cases hQueued.symm.trans hQueued'
  obtain ⟨mem_data, hData, hStr, _⟩ := serialise_inv hOut
  obtain ⟨_, _, _, _, _, rfl⟩ := memData_inv hData
  rw [hText] at hStr
  refine ⟨(serialise_msg hOut).2.trans hStr, ?_⟩
  rw [← hText]
  exact noNul_values kind m

theorem member_eq (h : reported kind text queued stack = some msg) {i : Nat} {name : Bytes}
    (hName : kind.columns[i]? = some name) : member msg name = (kind.values (line kind text))[i]? := by
  obtain ⟨hText, hNoNul⟩ := text_of_reported h
  have hParse := cJSONParse_cJSONPrint (kind.columns.zip (kind.values (line kind text))) []
  rw [List.append_nil] at hParse
  rw [member, hText, hParse]
  exact statOf_zip hNoNul hName

theorem stored_eq (h : reported kind text queued stack = some msg)
    (hLength : (kind.values (line kind text)).length = kind.columns.length) (column : Bytes) :
    stored kind msg column = (kind.values (line kind text))[kind.columns.idxOf column]? := by
  obtain ⟨hText, hNoNul⟩ := text_of_reported h
  have hStrings : strings kind msg = some (kind.values (line kind text)) :=
    items_printed (hText ▸ List.prefix_rfl) hLength hNoNul
  rw [stored, hStrings, Option.bind_some]

theorem line_output {words : List Bytes} (hPlain : ∀ w ∈ words, Plain w)
    (hLength : (output words).length ≤ bufSize kind) : line kind (output words) = output words := by
  rw [line, List.take_of_length_le hLength]
  apply cstr_of_noNul
  rw [output, List.mem_append, not_or]
  refine ⟨not_mem_joined (by decide) ?_, by decide⟩
  intro w hw hZero
  exact absurd ((hPlain w hw).2 0 hZero).1 (by decide)

theorem tokens_output {words : List Bytes} (hPlain : ∀ w ∈ words, Plain w) : tokens delim (output words) = words :=
  tokens_joined rfl (fun w hw => (hPlain w hw).1) (fun w hw => (hPlain w hw).delim) (.inr ⟨0x0a, rfl, rfl⟩)

theorem values_output (hPlain : ∀ w ∈ date :: clock :: fields, Plain w)
    (hLength : (output (date :: clock :: fields)).length ≤ bufSize kind) :
    kind.values (line kind (output (date :: clock :: fields))) =
      (date ++ lit " " ++ clock) :: fields.take kind.keys.length := by
  rw [line_output hPlain hLength]
  exact values_tokens (tokens_output hPlain)

theorem reported_isSome (hPlain : ∀ w ∈ date :: clock :: fields, Plain w)
    (hLength : (output (date :: clock :: fields)).length < bufSize kind) (hCount : fields.length = kind.keys.length)
    (hDate : date.length = 10) (hClock : clock.length = 8) (queued stack : MonitorMsgDs) :
    ∃ msg sql, reported kind (output (date :: clock :: fields)) queued stack = some msg ∧
      dealWithMonitorMsg msg = .query sql := by
  have hTokens : tokens delim (line kind (output (date :: clock :: fields))) = date :: clock :: fields := by
    rw [line_output hPlain hLength.le]
    exact tokens_output hPlain
  obtain ⟨m, out, sql, hQueued, hOut, _, _, _, hSql, _⟩ := report_fits hLength hTokens hCount.ge hDate hClock
    (fun t ht => (hPlain t (hTokens ▸ ht)).verbatim) queued stack
  refine ⟨out.msg, sql, ?_, hSql⟩
  rw [reported, hQueued, Option.bind_some, hOut, Option.map_some]

end

end MonitorSystem.ReportLine
