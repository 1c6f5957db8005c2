import MonitorSystem.Lib.CBuffer
import MonitorSystem.Persistence
import MonitorSystem.Insert

/-! # A report that is kept and replayed

The records of a persistence file are told apart by counting lines only. What
send_data_to_server appends and what do_with_file collects agree on the count,
and the newline between two records does not reach the statement.
-/

namespace MonitorSystem.RoundTrip

open Msg CJson Report SendData SendFile Saved Persistence MonitorSystem.Insert Lib.CBuffer Lib.CString Lib.Stdio

/-- A complete report of one kind for which the send failed and the append succeeded. -/
structure Failed (kind : Kind) where
  m : MonitorMsgDs
  stack : MonitorMsgDs
  out : Outgoing
  io : Io
  type : m.type = kind.type
  need : kind.need ≤ (tokens delim m.text).length
  serialised : serialise kind m stack = some out
  tcp : out.urgent = false
  fits : out.str.length ≤ 498
  sql : (rowOf kind m.text).text.length < sqlSize
  error : io.send = .error
  stores : io.Stores out.str

def failAll {kind : Kind} : List (Failed kind) → Client → Option Client
  | [], c => some c
  | r :: rs, c => (iteration r.m r.stack r.io c).bind (failAll rs)

/-- The message of do_with_file: strncpy fills what is left of the buffer with zeros. -/
def replayMessage (kind : Kind) (temp : Bytes) : MonitorMsgDs where
  type := kind.type
  buff := (temp ++ List.replicate msgBuffSize 0).take msgBuffSize
  buff_length := by simp

theorem replayMessage_text (kind : Kind) {temp : Bytes} (hNul : 0 ∉ temp) (hFits : temp.length < msgBuffSize) :
    (replayMessage kind temp).text = temp := cstr_strncpy hNul hFits

section

variable {kind : Kind}

theorem Failed.complete (r : Failed kind) : Complete kind r.out.str :=
  complete_of_serialise r.serialised r.need (Nat.lt_succ_of_le (Nat.succ_le_succ r.fits))

def Failed.persisted (r : Failed kind) : Persisted kind :=
  ⟨r.m, r.stack, r.out, r.io, r.type, r.serialised, r.tcp, r.error, r.stores⟩

theorem failAll_eq (rs : List (Failed kind)) (c : Client) : failAll rs c = persistAll (rs.map Failed.persisted) c := by
  induction rs generalizing c with
  | nil => rfl
  | cons r rs ih =>
    rw [failAll, funext ih, List.map_cons, persistAll]
    rfl

theorem failAll_stored (rs : List (Failed kind)) {c : Client} (hRun : c.running = true) :
    ∃ c', failAll rs c = some c' ∧ c'.running = true ∧
      (c'.files kind).getD [] = (c.files kind).getD [] ++ stored (rs.map fun r => r.out.str) := by
  obtain ⟨c', hFail, hRun', hFile⟩ := persistAll_stored (rs.map Failed.persisted) hRun
  rw [List.map_map] at hFile
  exact ⟨c', (failAll_eq rs c).trans hFail, hRun', hFile⟩

theorem loop_stored {texts : List Bytes} (hComplete : ∀ t ∈ texts, Complete kind t) (send : Nat → Bool)
    (sent : List Replayed) :
    ∃ more, loop (linesOf kind) send (fgetsLines msgBuffSize (stored texts)) (linesOf kind) [] sent =
        some (sent ++ more) ∧ more.map Replayed.text = texts.map (· ++ [0x0a]) := by
  induction texts generalizing sent with
  | nil => exact ⟨[], by rw [List.append_nil]; rfl, rfl⟩
  | cons text texts ih =>
    have hText := hComplete text List.mem_cons_self
    have hLength := (length_fgetsLines hText.length_ended).1 (ended_concat text)
    rw [hText.count_ended] at hLength
    have hBlock : fgetsLines msgBuffSize (stored (text :: texts)) =
        fgetsLines msgBuffSize (text ++ [0x0a]) ++ fgetsLines msgBuffSize (stored texts) := by
      rw [stored_cons, ← List.singleton_append, ← List.append_assoc,
        fgetsLines_append (ended_concat text) hText.length_ended]
    obtain ⟨more, hLoop, hTexts⟩ :=
      ih (fun t ht => hComplete t (List.mem_cons_of_mem text ht)) (sent ++ [⟨text ++ [0x0a], send sent.length⟩])
    refine ⟨⟨text ++ [0x0a], send sent.length⟩ :: more, ?_, ?_⟩
    · rw [hBlock, loop_block (linesOf_pos kind) hLength, flatMap_fgetsLines hText.noNul_ended, List.nil_append,
        if_neg (Nat.not_le.mpr hText.length_ended), if_neg (by simp), hLoop, List.append_assoc]
      rfl
    · rw [List.map_cons, hTexts, List.map_cons]

theorem Failed.statement (r : Failed kind) {msg : MonitorMsgDs} (hType : msg.type = kind.type)
    (hText : r.out.str <+: msg.text) : dealWithMonitorMsg msg = .query (rowOf kind r.m.text).text := by
  obtain ⟨mem_data, hData, hStr, _⟩ := serialise_inv r.serialised
  obtain ⟨date, clock, fields, hTokens, _, rfl⟩ := memData_inv hData
  have hNeed := r.need
  have hSql := r.sql
  rw [hTokens, Kind.need, List.length_cons, List.length_cons, Nat.add_le_add_iff_right] at hNeed
  rw [hStr] at hText
  rw [rowOf_text] at hSql ⊢
  rw [dealWithMonitorMsg_kind hType]
  exact branch_printed hText (values_length hTokens hNeed) (noNul_values kind r.m) _ hSql

/-- Replay sends one message for every report, in order, with the text of the report and a newline,
and the server makes the same statement of it as of the message that could not be sent. -/
theorem replayed (rs : List (Failed kind)) (send : Nat → Bool) (temp : Bytes) {c : Client} (hTemp : cstr temp = [])
    (hRun : c.running = true) (hEmpty : (c.files kind).getD [] = []) :
    ∃ c' sent, failAll rs c = some c' ∧ c'.running = true ∧
      doWithFile (linesOf kind) send temp ((c'.files kind).getD []) = some ⟨sent, []⟩ ∧
      sent.map Replayed.text = rs.map (fun r => r.out.str ++ [0x0a]) ∧
      ∀ r ∈ rs, ∃ sql, dealWithMonitorMsg r.out.msg = .query sql ∧
        (replayMessage kind (r.out.str ++ [0x0a])).text = r.out.str ++ [0x0a] ∧
        dealWithMonitorMsg (replayMessage kind (r.out.str ++ [0x0a])) = .query sql := by
  obtain ⟨c', hFail, hRun', hFile⟩ := failAll_stored rs hRun
  have hComplete : ∀ t ∈ rs.map (fun r => r.out.str), Complete kind t := by
    intro t ht
    obtain ⟨r, _, rfl⟩ := List.mem_map.mp ht
    exact r.complete
  obtain ⟨sent, hLoop, hTexts⟩ := loop_stored hComplete send []
  rw [hEmpty, List.nil_append] at hFile
  refine ⟨c', sent, hFail, hRun', ?_, ?_, ?_⟩
  · rw [doWithFile, hFile, hTemp, hLoop]
    rfl
  · rw [hTexts, List.map_map]
    rfl
  · intro r _
    obtain ⟨hType, hText⟩ := serialise_msg r.serialised
    have hReplayed := replayMessage_text kind r.complete.noNul_ended r.complete.length_ended
    refine ⟨_, r.statement hType (hText ▸ List.prefix_rfl), hReplayed, r.statement rfl ?_⟩
    rw [hReplayed]
    exact List.prefix_append _ _

end

theorem serialised_cpuReport : ∃ out, serialise .cpu cpuReport (cleared 0) = some out ∧ out.urgent = false ∧
    out.str.length ≤ 498 := by
  have hSome : (serialise .cpu cpuReport (cleared 0)).isSome = true := by decide +kernel
  obtain ⟨out, hOut⟩ := Option.isSome_iff_exists.mp hSome
  have hFacts : (serialise .cpu cpuReport (cleared 0)).map
      (fun out => (out.urgent, decide (out.str.length ≤ 498))) = some (false, true) := by decide +kernel
  rw [hOut, Option.map_some, Option.some.injEq, Prod.mk.injEq] at hFacts
  exact ⟨out, hOut, hFacts.1, of_decide_eq_true hFacts.2⟩

theorem replayed_twice : ∃ (r : Failed .cpu) (c' : Client) (sent : List Replayed),
    r.m = cpuReport ∧ failAll [r, r] connected = some c' ∧ c'.running = true ∧
      doWithFile (linesOf .cpu) (fun _ => true) (List.replicate 500 0) ((c'.files .cpu).getD []) = some ⟨sent, []⟩ ∧
      sent.map Replayed.text = [r.out.str ++ [0x0a], r.out.str ++ [0x0a]] := by
  obtain ⟨out, hOut, hTcp, hFits⟩ := serialised_cpuReport
  let r : Failed .cpu := {
    m := cpuReport
    stack := cleared 0
    out := out
    io := ⟨.error, true, some out.str.length, true⟩
    type := rfl
    need := by decide +kernel
    serialised := hOut
    tcp := hTcp
    fits := hFits
    sql := by decide +kernel
    error := rfl
    stores := ⟨rfl, ⟨_, rfl, le_rfl⟩, rfl⟩ }
  obtain ⟨c', sent, hFail, hRun, hReplay, hTexts, _⟩ :=
    @replayed .cpu [r, r] (fun _ => true) (List.replicate 500 0) connected (by decide +kernel) rfl rfl
  exact ⟨r, c', sent, rfl, hFail, hRun, hReplay, hTexts⟩

end MonitorSystem.RoundTrip
