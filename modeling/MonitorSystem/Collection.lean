import MonitorSystem.Syslog
import MonitorSystem.SendData
import MonitorSystem.Payload

/-! # From the output of a script to the report that is sent

Every five seconds the client copies the output of four scripts through fixed
buffers into messages. The report of a line that was cut off or has too few
words goes through the same calls as any other.
-/

namespace MonitorSystem.Collection

open Msg CJson Report Syslog SendData MonitorSystem.Insert Payload Lib.CString

def bufSize : Kind → Nat
  | .mem => 100
  | .cpu => 100
  | .disk => 100
  | .sys => sysBufSize

def freadInto (size : Nat) (output : Bytes) : Bytes :=
  output.take size ++ List.replicate (size - output.length) 0

def checkForMem (output : Bytes) : Bytes := freadInto 100 output

def checkForCpu (output : Bytes) : Bytes := freadInto 100 output

def checkForDisk (output : Bytes) : Bytes := freadInto 100 output

def checkFor : Kind → Bytes → Bytes
  | .mem => checkForMem
  | .cpu => checkForCpu
  | .disk => checkForDisk
  | .sys => checkForSys

/-- strcpy(msg.buff, …) for one message of a round; none where it reads past the end of the buffer. -/
def enqueue (kind : Kind) (buf : Bytes) (stack : MonitorMsgDs) : Option MonitorMsgDs :=
  if 0 ∈ buf then { stack with type := kind.type }.strcpyBuff (cstr buf) else none

def line (kind : Kind) (output : Bytes) : Bytes := cstr (output.take (bufSize kind))

def Terminated (kind : Kind) (output : Bytes) : Prop :=
  output.length < bufSize kind ∨ 0 ∈ output.take (bufSize kind)

/-- msgsnd and msgrcv hand a message on. Both are given sizeof(msg) for the size of its text: the
eight bytes behind msg that are read, and written behind m, are memory that nothing else uses. -/
def Carries (queue : MonitorMsgDs → Option MonitorMsgDs) : Prop := ∀ msg, queue msg = some msg

/-- The output is queued and sent as a report, and the client goes on. -/
def Handled (queue : MonitorMsgDs → Option MonitorMsgDs) (kind : Kind) (output : Bytes) : Prop :=
  ∀ (queued stack : MonitorMsgDs) (io : Io) (c : Client) (n : Nat), io.send = .accepted n → c.running = true →
    ∃ msg m out c', enqueue kind (checkFor kind output) queued = some msg ∧ queue msg = some m ∧
      serialise kind m stack = some out ∧ out.msg.text = out.str ∧ iteration m stack io c = some c' ∧ c'.running = true

/-- What n members take of the JSON text beside their values. -/
def overhead (kind : Kind) (n : Nat) : Nat := (kind.columns.take n).flatten.length + 9 * n + 2

/-- The words that an output must have, counted with what cJSON escapes in them. -/
structure Whole (kind : Kind) (output : Bytes) : Prop where
  terminated : Terminated kind output
  now : ∃ date clock fields, tokens delim (line kind output) = date :: clock :: fields ∧
    date.length + clock.length + 1 < nowTimeSize
  fits : overhead kind (kind.values (line kind output)).length +
    ((kind.values (line kind output)).flatten.flatMap printByte).length < msgBuffSize
  levels : kind = .sys → (tokens delim (line kind output))[13]? = some (lit "warning") ∨
    (tokens delim (line kind output))[14]? = some (lit "warning") ∨ 16 ≤ (tokens delim (line kind output)).length

theorem collect_eq : collect = enqueue .sys := rfl

theorem checkFor_eq (kind : Kind) (output : Bytes) : checkFor kind output = freadInto (bufSize kind) output := by
  cases kind <;> rfl

theorem bufSize_le (kind : Kind) : bufSize kind < msgBuffSize := by
  cases kind <;> decide

theorem mem_freadInto {size : Nat} {output : Bytes} :
    0 ∈ freadInto size output ↔ output.length < size ∨ 0 ∈ output.take size := by
  rw [freadInto, List.mem_append, List.mem_replicate]
  constructor
  · rintro (hTake | ⟨hPad, _⟩)
    · exact .inr hTake
    · exact .inl (by omega)
  · rintro (hShort | hTake)
    · exact .inr ⟨by omega, rfl⟩
    · exact .inl hTake

theorem cstr_append_zeros (s : Bytes) (n : Nat) : cstr (s ++ List.replicate n 0) = cstr s := by
  induction s with
  | nil =>
    cases n with
    | zero => rfl
    | succ n => rfl
  | cons b s ih =>
    by_cases hb : b = 0
    · simp [cstr, hb]
    · simpa [cstr, hb] using ih

theorem enqueue_eq {kind : Kind} {output : Bytes} (h : Terminated kind output) (stack : MonitorMsgDs) :
    ∃ m, enqueue kind (checkFor kind output) stack = some m ∧ m.type = kind.type ∧ m.text = line kind output := by
  have hText : cstr (checkFor kind output) = line kind output := by
    rw [checkFor_eq, freadInto, cstr_append_zeros, line]
  have hFits : (line kind output).length < msgBuffSize := by
    have hCstr := length_cstr_le (output.take (bufSize kind))
    have hTake := List.length_take_le (bufSize kind) output
    have hSize := bufSize_le kind
    rw [line]
    omega
  have hZero : 0 ∈ checkFor kind output := by
    rw [checkFor_eq, mem_freadInto]
    exact h
  rw [enqueue, if_pos hZero, hText, MonitorMsgDs.strcpyBuff, dif_pos hFits]
  exact ⟨_, rfl, rfl, cstr_terminated (noNul_cstr _) _⟩

theorem enqueue_unterminated {kind : Kind} {output : Bytes} (h : ¬ Terminated kind output) (stack : MonitorMsgDs) :
    enqueue kind (checkFor kind output) stack = none := by
  rw [enqueue, if_neg]
  rw [checkFor_eq, mem_freadInto]
  exact h

section Report

variable {kind : Kind} {text date clock : Bytes} {fields : List Bytes}

theorem verbatim_columns (kind : Kind) : ∀ k ∈ kind.columns, ∀ b ∈ k, verbatim b = true := by
  cases kind <;> decide +kernel

theorem length_json_zip {values : List Bytes} (hSome : values ≠ []) (hShort : values.length ≤ kind.columns.length) :
    (cJSONPrint (kind.columns.zip values)).length =
      overhead kind values.length + (values.flatten.flatMap printByte).length := by
  have hZip : kind.columns.zip values = (kind.columns.take values.length).zip values := by
    rw [List.zip_eq_zip_take_min, Nat.min_eq_right hShort, List.take_length]
  have hLength : (kind.columns.take values.length).length = values.length := by
    rw [List.length_take, Nat.min_eq_left hShort]
  have hKeys : ∀ b ∈ (kind.columns.take values.length).flatten, verbatim b = true := by
    intro b hb
    obtain ⟨k, hk, hb⟩ := List.mem_flatten.mp hb
    exact verbatim_columns kind k (List.mem_of_mem_take hk) b hb
  have hMembers : (kind.columns.take values.length).zip values ≠ [] := by
    intro hNil
    have hZero := congrArg List.length hNil
    rw [List.length_zip, hLength, Nat.min_self] at hZero
    exact hSome (List.length_eq_zero_iff.mp hZero)
  rw [hZip, length_cJSONPrint hMembers, List.map_fst_zip hLength.le, List.map_snd_zip hLength.ge,
    flatMap_printByte hKeys, List.length_zip, hLength, Nat.min_self, overhead]
  omega

theorem length_values (kind : Kind) (text : Bytes) : (kind.values text).length ≤ kind.columns.length := by
  have hTake : ((tokens delim text).take kind.need).length ≤ kind.keys.length + 2 := List.length_take_le _ _
  rw [Kind.values, Kind.columns]
  cases hPieces : (tokens delim text).take kind.need with
  | nil => exact Nat.zero_le _
  | cons date more =>
    cases more with
    | nil => exact Nat.succ_le_succ (Nat.zero_le _)
    | cons clock fields =>
      rw [hPieces] at hTake
      exact Nat.le_of_succ_le_succ hTake

theorem anyWarning_isSome {values : List Bytes} (hValues : ∀ v ∈ values, 0 ∉ v) :
    (anyWarning (Kind.sys.columns.zip values) statKeys).isSome = true ↔
      values[12]? = some (lit "warning") ∨ values[13]? = some (lit "warning") ∨ 15 ≤ values.length := by
  have hDisk := @statOf_zip .sys values hValues 12 (lit "disk_stat") rfl
  have hMem := @statOf_zip .sys values hValues 13 (lit "mem_stat") rfl
  have hCpu := @statOf_zip .sys values hValues 14 (lit "cpu_stat") rfl
  rw [statKeys, anyWarning, anyWarning, anyWarning, anyWarning, hDisk, hMem, hCpu]
  by_cases hLong : 15 ≤ values.length
  · rw [List.getElem?_eq_getElem (by omega), List.getElem?_eq_getElem (by omega), List.getElem?_eq_getElem (by omega)]
    refine iff_of_true ?_ (.inr (.inr hLong))
    simp only [Option.bind_some]
    split_ifs <;> rfl
  · have hCpuMissing : values[14]? = none := List.getElem?_eq_none_iff.mpr (by omega)
    rw [hCpuMissing]
    cases hDiskStat : values[12]? with
    | none =>
      have hMemMissing : values[13]? = none := by
        have hShort := List.getElem?_eq_none_iff.mp hDiskStat
        exact List.getElem?_eq_none_iff.mpr (by omega)
      simp [hMemMissing, hLong]
    | some disk =>
      cases hMemStat : values[13]? with
      | none => by_cases hDiskWarns : disk = lit "warning" <;> simp [hDiskWarns, hLong]
      | some mem =>
        by_cases hDiskWarns : disk = lit "warning"
        · simp [hDiskWarns]
        · by_cases hMemWarns : mem = lit "warning" <;> simp [hDiskWarns, hMemWarns, hLong]

theorem serialise_isSome {m stack : MonitorMsgDs} : (∃ out, serialise kind m stack = some out) ↔
    (∃ date clock fields, tokens delim m.text = date :: clock :: fields ∧
      (date ++ lit " " ++ clock).length < nowTimeSize) ∧
    (cJSONPrint (kind.columns.zip (kind.values m.text))).length < msgBuffSize ∧
    (kind = .sys → (anyWarning (kind.columns.zip (kind.values m.text)) statKeys).isSome = true) := by
  constructor
  · rintro ⟨out, h⟩
    obtain ⟨mem_data, hData, hStr, hMsg, hLevels⟩ := serialise_inv h
    obtain ⟨date, clock, fields, hTokens, hTime, rfl⟩ := memData_inv hData
    refine ⟨⟨date, clock, fields, hTokens, hTime⟩, ?_, ?_⟩
    · rw [← hStr]
      by_contra hLong
      rw [MonitorMsgDs.strcpyBuff, dif_neg hLong] at hMsg
      cases hMsg
    · intro hSys
      rw [hLevels hSys]
      rfl
  · rintro ⟨⟨date, clock, fields, hTokens, hTime⟩, hFits, hLevels⟩
    have hData := @memData_zip kind _ _ _ _ hTokens hTime
    by_cases hSys : kind = .sys
    · obtain ⟨urgent, hUrgent⟩ := Option.isSome_iff_exists.mp (hLevels hSys)
      obtain ⟨msg, hOut⟩ := serialise_of_data stack hData hFits (fun _ => hUrgent) (absurd hSys)
      exact ⟨_, hOut⟩
    · obtain ⟨msg, hOut⟩ := serialise_of_data stack hData hFits (fun h => absurd h hSys) (fun _ => rfl)
      exact ⟨_, hOut⟩

theorem levels_tokens (hTokens : tokens delim text = date :: clock :: fields) :
    (Kind.sys.values text)[12]? = (tokens delim text)[13]? ∧ (Kind.sys.values text)[13]? = (tokens delim text)[14]? ∧
      (15 ≤ (Kind.sys.values text).length ↔ 16 ≤ (tokens delim text).length) := by
  have hCount : Kind.sys.keys.length = 14 := rfl
  rw [values_tokens hTokens, hTokens, hCount]
  simp only [List.getElem?_cons_succ, List.length_cons, List.length_take]
  refine ⟨List.getElem?_take_of_lt (by decide), List.getElem?_take_of_lt (by decide), ?_⟩
  omega

theorem length_now (date clock : Bytes) : (date ++ lit " " ++ clock).length = date.length + clock.length + 1 := by
  have hBlank : (lit " ").length = 1 := rfl
  rw [List.length_append, List.length_append, hBlank]
  omega

theorem values_ne_nil (hTokens : tokens delim text = date :: clock :: fields) : kind.values text ≠ [] := by
  rw [values_tokens hTokens]
  exact List.cons_ne_nil _ _

end Report

theorem iteration_accepted {kind : Kind} {m stack : MonitorMsgDs} {out : Outgoing} {io : Io} {n : Nat} (c : Client)
    (hType : m.type = kind.type) (hOut : serialise kind m stack = some out) (hSend : io.send = .accepted n) :
    iteration m stack io c = some c := by
  rw [iteration_eq (hType ▸ kindOf_type kind) hOut, transmit, sendTcp, hSend]
  split <;> rfl

theorem whole_of_handled {queue : MonitorMsgDs → Option MonitorMsgDs} (hCarries : Carries queue) {kind : Kind}
    {output : Bytes} (h : Handled queue kind output) : Whole kind output := by
  obtain ⟨m, _, out, c', hQueued, hCarried, hOut, _⟩ := h (cleared 0) (cleared 0) ⟨.accepted 0, false, none, false⟩
    ⟨true, fun _ => none, 0, 0⟩ 0 rfl rfl
  cases (hCarries m).symm.trans hCarried
  have hTerminated : Terminated kind output := by
    by_contra hNot
    rw [enqueue_unterminated hNot] at hQueued
    cases hQueued
  obtain ⟨m', hQueued', _, hText⟩ := enqueue_eq hTerminated (cleared 0)
  rw [hQueued] at hQueued'
  cases hQueued'
  obtain ⟨⟨date, clock, fields, hTokens, hTime⟩, hJson, hLevels⟩ := serialise_isSome.mp ⟨out, hOut⟩
  have hSome := @values_ne_nil kind _ _ _ _ hTokens
  rw [length_json_zip hSome (length_values kind _)] at hJson
  rw [length_now] at hTime
  refine ⟨hTerminated, ?_, ?_, ?_⟩
  · rw [← hText]
    exact ⟨date, clock, fields, hTokens, hTime⟩
  · rw [← hText]
    exact hJson
  · rintro rfl
    obtain ⟨hDisk, hMem, hCount⟩ := levels_tokens hTokens
    rw [← hText, ← hDisk, ← hMem, ← hCount]
    exact (anyWarning_isSome (noNul_values .sys m)).mp (hLevels rfl)

theorem serialise_of_whole {kind : Kind} {output : Bytes} (h : Whole kind output) {m : MonitorMsgDs}
    (hText : m.text = line kind output) (stack : MonitorMsgDs) : ∃ out, serialise kind m stack = some out := by
  obtain ⟨date, clock, fields, hTokens, hTime⟩ := h.now
  have hFits := h.fits
  have hLevels := h.levels
  rw [← hText] at hTokens hFits hLevels
  apply serialise_isSome.mpr
  refine ⟨⟨date, clock, fields, hTokens, ?_⟩, ?_, ?_⟩
  · rw [length_now]
    exact hTime
  · rw [length_json_zip (values_ne_nil hTokens) (length_values kind _)]
    exact hFits
  · rintro rfl
    obtain ⟨hDisk, hMem, hCount⟩ := levels_tokens hTokens
    apply (anyWarning_isSome (noNul_values .sys m)).mpr
    rw [hDisk, hMem, hCount]
    exact hLevels rfl

/-- An output is handled exactly when its line is whole: it ends before the buffer does, it has a
date and a time, its report fits the message, and a system line says whether it is urgent. -/
theorem handled_iff {queue : MonitorMsgDs → Option MonitorMsgDs} (hCarries : Carries queue) {kind : Kind}
    {output : Bytes} : Handled queue kind output ↔ Whole kind output := by
  constructor
  · exact whole_of_handled hCarries
  · intro h queued stack io c n hSend hRun
    obtain ⟨m, hQueued, hType, hText⟩ := enqueue_eq h.terminated queued
    obtain ⟨out, hOut⟩ := serialise_of_whole h hText stack
    have hSent := iteration_accepted c hType hOut hSend
    exact ⟨m, m, out, c, hQueued, hCarries m, hOut, (serialise_msg hOut).2, hSent, hRun⟩

def sysOutput : Bytes :=
  lit "2021-12-13 10:00:00 node1 #1-Ubuntu 5.4.0 2:03 0.5 0.4 0.3 1000 40% 1000 90% normal normal warning\n"

theorem handled_sysOutput : Handled some .sys sysOutput := by
  have hTokens : tokens delim (line .sys sysOutput) = [lit "2021-12-13", lit "10:00:00", lit "node1", lit "#1-Ubuntu",
      lit "5.4.0", lit "2:03", lit "0.5", lit "0.4", lit "0.3", lit "1000", lit "40%", lit "1000", lit "90%",
      lit "normal", lit "normal", lit "warning"] := by decide +kernel
  apply (handled_iff fun _ => rfl).mpr
  refine ⟨.inl (by decide +kernel), ⟨_, _, _, hTokens, by decide⟩, by decide +kernel, fun _ => .inr (.inr ?_)⟩
  rw [hTokens]
  decide

/-- A line that fills its buffer, a line of one word, and a system line without its last three words. -/
theorem not_handled : ¬ Handled some .mem (List.replicate 100 0x78) ∧ ¬ Handled some .mem (lit "Error\n") ∧
    ¬ Handled some .sys (lit "2021-12-13 10:00:00 node1 #1-Ubuntu 5.4.0 2:03 0.5 0.4 0.3 1000 40% 1000 90%\n") := by
  have hCarries : Carries some := fun _ => rfl
  refine ⟨?_, ?_, ?_⟩
  · intro h
    obtain hShort | hZero := (whole_of_handled hCarries h).terminated
    · exact absurd hShort (by decide)
    · exact absurd hZero (by decide +kernel)
  · intro h
    obtain ⟨date, clock, fields, hTokens, _⟩ := (whole_of_handled hCarries h).now
    have hOne : tokens delim (line .mem (lit "Error\n")) = [lit "Error"] := by decide +kernel
    cases hOne.symm.trans hTokens
  · intro h
    exact absurd ((whole_of_handled hCarries h).levels rfl) (by decide +kernel)

section Fits

variable {kind : Kind} {text date clock : Bytes} {fields : List Bytes}

theorem length_flatten_values (hTokens : tokens delim text = date :: clock :: fields)
    (hNeed : kind.keys.length ≤ fields.length) :
    (kind.values text).flatten.length + kind.need ≤ text.length + 2 := by
  have hAll := length_tokens delim text
  have hBlank : (lit " ").length = 1 := rfl
  have hFields := congrArg (fun words => words.flatten.length) (List.take_append_drop kind.keys.length fields)
  simp only [List.flatten_append, List.length_append] at hFields
  rw [hTokens] at hAll
  rw [values_tokens hTokens, Kind.need]
  simp only [List.flatten_cons, List.length_append, List.length_cons, hBlank] at hAll ⊢
  omega

theorem verbatim_values (hTokens : tokens delim text = date :: clock :: fields)
    (hPlain : ∀ t ∈ tokens delim text, ∀ b ∈ t, verbatim b = true) :
    ∀ b ∈ (kind.values text).flatten, verbatim b = true := by
  have hBlank : ∀ b ∈ lit " ", verbatim b = true := by decide +kernel
  rw [hTokens, List.forall_mem_cons, List.forall_mem_cons] at hPlain
  obtain ⟨hDate, hClock, hFields⟩ := hPlain
  rw [values_tokens hTokens]
  intro b hb
  rw [List.flatten_cons, List.mem_append, List.mem_append, List.mem_append, List.mem_flatten] at hb
  obtain ((hb | hb) | hb) | ⟨t, ht, hb⟩ := hb
  · exact hDate b hb
  · exact hBlank b hb
  · exact hClock b hb
  · exact hFields t (List.mem_of_mem_take ht) b hb

theorem room_enough (kind : Kind) : overhead kind kind.columns.length + bufSize kind + 2 < msgBuffSize + kind.need ∧
    bufSize kind + 1 ≤ room kind + kind.need := by
  cases kind <;> decide +kernel

end Fits

/-- The report of a line that is shorter than its buffer fits now_time, the message, also with
its newline, and the statement. -/
theorem report_fits {kind : Kind} {output date clock : Bytes} {fields : List Bytes}
    (hLength : output.length < bufSize kind)
    (hTokens : tokens delim (line kind output) = date :: clock :: fields)
    (hNeed : kind.keys.length ≤ fields.length) (hDate : date.length = 10) (hClock : clock.length = 8)
    (hPlain : ∀ t ∈ tokens delim (line kind output), ∀ b ∈ t, verbatim b = true) (queued stack : MonitorMsgDs) :
    ∃ m out sql, enqueue kind (checkFor kind output) queued = some m ∧ serialise kind m stack = some out ∧
      (date ++ lit " " ++ clock).length < nowTimeSize ∧
      out.msg.text = out.str ∧ (out.str ++ lit "\n").length < msgBuffSize ∧
      dealWithMonitorMsg out.msg = .query sql ∧ sql.length < sqlSize := by
  have hLine : (line kind output).length ≤ output.length :=
    (length_cstr_le _).trans (List.length_take_le' _ _)
  have hCount := values_length hTokens hNeed
  have hValues := length_flatten_values hTokens hNeed
  have hEscaped := flatMap_printByte (@verbatim_values kind _ _ _ _ hTokens hPlain)
  obtain ⟨hMsg, hSql⟩ := room_enough kind
  have hNow : date.length + clock.length + 1 < nowTimeSize := by
    rw [hDate, hClock]
    decide
  have hWhole : Whole kind output := by
    refine ⟨.inl hLength, ⟨date, clock, fields, hTokens, hNow⟩, ?_, ?_⟩
    · rw [hCount, hEscaped]
      omega
    · rintro rfl
      right
      right
      rw [hTokens]
      exact Nat.succ_le_succ (Nat.succ_le_succ hNeed)
  obtain ⟨m, hQueued, _, hText⟩ := enqueue_eq hWhole.terminated queued
  obtain ⟨out, hOut⟩ := serialise_of_whole hWhole hText stack
  obtain ⟨hType, hMsgText⟩ := serialise_msg hOut
  have hTime : (date ++ lit " " ++ clock).length < nowTimeSize := by
    rw [length_now]
    exact hNow
  have hStr : out.str = cJSONPrint (kind.columns.zip (kind.values (line kind output))) := by
    obtain ⟨mem_data, hData, hStr, _⟩ := serialise_inv hOut
    obtain ⟨_, _, _, _, _, rfl⟩ := memData_inv hData
    rw [hStr, hText]
  have hStatement := length_strcatSql hCount
  have hFits : (strcatSql (headOf kind) (kind.values (line kind output))).length < sqlSize := by
    rw [sqlSize]
    omega
  refine ⟨m, out, _, hQueued, hOut, hTime, hMsgText, ?_, ?_, hFits⟩
  · have hNewline : (lit "\n").length = 1 := rfl
    rw [List.length_append, hNewline, hStr, length_json_zip (values_ne_nil hTokens) hCount.le, hCount, hEscaped]
    omega
  · rw [dealWithMonitorMsg_kind hType]
    apply branch_printed (hMsgText.trans hStr ▸ List.prefix_rfl) hCount _ (headOf kind) hFits
    rw [← hText]
    exact noNul_values kind m

theorem report_fits_sysOutput : ∃ m out sql, enqueue .sys (checkFor .sys sysOutput) (cleared 0) = some m ∧
    serialise .sys m (cleared 0) = some out ∧
    (lit "2021-12-13" ++ lit " " ++ lit "10:00:00").length < nowTimeSize ∧
    out.msg.text = out.str ∧ (out.str ++ lit "\n").length < msgBuffSize ∧
    dealWithMonitorMsg out.msg = .query sql ∧ sql.length < sqlSize :=
  @report_fits .sys sysOutput (lit "2021-12-13") (lit "10:00:00")
    [lit "node1", lit "#1-Ubuntu", lit "5.4.0", lit "2:03", lit "0.5", lit "0.4", lit "0.3", lit "1000", lit "40%",
      lit "1000", lit "90%", lit "normal", lit "normal", lit "warning"]
    (by decide +kernel) (by decide +kernel) (by decide +kernel) (by decide +kernel) (by decide +kernel)
    (by decide +kernel) (cleared 0) (cleared 0)

end MonitorSystem.Collection
