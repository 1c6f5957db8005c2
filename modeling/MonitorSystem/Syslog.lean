import MonitorSystem.Lib.Bc
import MonitorSystem.Lib.Shell
import MonitorSystem.Report
import Mathlib.Data.Rat.Defs
import Mathlib.Algebra.Order.Field.Rat

/-! # The alarm levels of Syslog.sh and the transport they select

The script prints one line of sixteen words, which the client copies through
sys_buf into a message and serialises. What awk prints of a sum and of two
figures is a parameter; only the words it prints travel on.
-/

namespace MonitorSystem.Syslog

open Msg CJson Report Lib.CString Lib.Shell

/-- Neither the shell nor cJSON changes such a word. -/
def Plain (w : Bytes) : Prop := w ≠ [] ∧ ∀ b ∈ w, 0x20 < b ∧ b ≠ quote ∧ b ≠ backslash

instance (w : Bytes) : Decidable (Plain w) := @instDecidableAnd _ _ _ (List.decidableBAll _ w)

structure Word where
  text : Bytes
  plain : Plain text

theorem plain_digit {b : UInt8} (h : 0x30 ≤ b ∧ b ≤ 0x39) : 0x20 < b ∧ b ≠ quote ∧ b ≠ backslash := by
  obtain ⟨hLow, hHigh⟩ := h
  refine ⟨UInt8.lt_of_lt_of_le (by decide) hLow, ?_, ?_⟩
  · rintro rfl
    exact absurd hLow (by decide)
  · rintro rfl
    exact absurd hHigh (by decide)

theorem plain_decimal (n : Nat) : Plain ((Nat.toDigits 10 n).map fun c => UInt8.ofNat c.toNat) := by
  constructor
  · simp
  · exact fun b hb => plain_digit (Lib.Bc.isDigit_digitsOf n b hb)

def decimal (n : Nat) : Word := ⟨_, plain_decimal n⟩

structure Snapshot where
  date : Word
  clock : Word
  date_length : date.text.length = 10
  clock_length : clock.text.length = 8
  hostName : Word
  osVersion : Word
  kernelVersion : Word
  runningTime : Word
  loadAvg1 : Word
  loadAvg2 : Word
  loadAvg3 : Word
  diskSize : Nat
  diskSize_pos : 0 < diskSize
  usedSpace : Nat
  memTotal : Nat
  memTotal_pos : 0 < memTotal
  memUsed : Nat

/-- `integer n` is what printf("%d", …) prints of a sum, `percent used size` what
printf("%.2f", used/size*100) prints, and `value` the number that a field is in a comparison. -/
structure Awk where
  integer : Nat → Word
  percent : Nat → Nat → Word
  value : Bytes → ℚ

section Script

variable (awk : Awk) (s : Snapshot)

def nowTime : Bytes := joined [s.date.text, s.clock.text]

def loadAVG : Var := .scalar (joined [s.loadAvg1.text, s.loadAvg2.text, s.loadAvg3.text])

def diskInfo : Var := .scalar (joined [(awk.integer s.diskSize).text, (awk.percent s.usedSpace s.diskSize).text])

def memInfo : Var :=
  .array (fields (joined [(decimal s.memTotal).text, (awk.percent s.memUsed s.memTotal).text]))

def environment (name : Bytes) : Bytes := if name = lit "temperature" then lit "0" else []

def le (left right : Bytes) : Bool := test environment (fun a b => a ≤ b) left right

def gt (left right : Bytes) : Bool := test environment (fun a b => b < a) left right

def normal : Bytes := lit "normal"
def note : Bytes := lit "note"
def warning : Bytes := lit "warning"

def cpuStat : Bytes :=
  if le (lit "temperature") (lit "50") then normal
  else if gt (lit "temperature") (lit "50") ∧ le (lit "temperature") (lit "70") then note
  else if gt (lit "temperature") (lit "70") then warning
  else []

/-- awk '{print(...)?"0":"1"}' -/
def printed (condition : Bool) : Bytes := if condition then lit "0" else lit "1"

def memStat : Bytes :=
  let used := awk.value ((memInfo awk s).at 1)
  if nonEmpty (printed (70 < used)) then normal
  else if nonEmpty (printed (70 ≤ used)) ∧ nonEmpty (printed (used ≤ 80)) then note
  else if nonEmpty (printed (80 < used)) then warning
  else []

def diskStat : Bytes :=
  let used := (diskInfo awk s).at 1
  if le used (lit "80") then normal
  else if gt used (lit "80") ∧ le used (lit "90") then note
  else if gt used (lit "90") then warning
  else []

def syslog : Bytes :=
  echo [nowTime s, s.hostName.text, s.osVersion.text, s.kernelVersion.text, s.runningTime.text,
    (loadAVG s).at 0, (loadAVG s).at 1, (loadAVG s).at 2, (diskInfo awk s).at 0 ++ lit "%",
    (memInfo awk s).at 0, (memInfo awk s).at 1 ++ lit "%", diskStat awk s, memStat awk s, cpuStat]

end Script

def sysBufSize : Nat := 200

def checkForSys (output : Bytes) : Bytes :=
  output.take sysBufSize ++ List.replicate (sysBufSize - output.length) 0

/-- strcpy(msg.buff, sys_buf); none where it reads past the end of sys_buf. -/
def collect (sysBuf : Bytes) (stack : MonitorMsgDs) : Option MonitorMsgDs :=
  if 0 ∈ sysBuf then { stack with type := sysSys }.strcpyBuff (cstr sysBuf) else none

def report (awk : Awk) (s : Snapshot) (queued stack : MonitorMsgDs) : Option Outgoing :=
  (collect (checkForSys (syslog awk s)) queued).bind fun m => serialise .sys m stack

/-- The level of a share of used in size, with the bounds in percent. -/
def level (lower upper used size : Nat) : Bytes :=
  if 100 * used ≤ lower * size then normal
  else if 100 * used ≤ upper * size then note
  else warning

structure Alarmed (awk : Awk) (s : Snapshot) (queued stack : MonitorMsgDs) : Prop where
  mem : memStat awk s = level 70 80 s.memUsed s.memTotal
  disk : diskStat awk s = level 80 90 s.usedSpace s.diskSize
  sent : ∃ out, report awk s queued stack = some out ∧
    (out.urgent = true ↔ 80 * s.memTotal < 100 * s.memUsed ∨ 90 * s.diskSize < 100 * s.usedSpace)

def Snapshot.words (awk : Awk) (s : Snapshot) : List Bytes :=
  [s.date.text, s.clock.text, s.hostName.text, s.osVersion.text, s.kernelVersion.text, s.runningTime.text,
    s.loadAvg1.text, s.loadAvg2.text, s.loadAvg3.text, (awk.integer s.diskSize).text,
    (awk.percent s.usedSpace s.diskSize).text ++ lit "%", (decimal s.memTotal).text,
    (awk.percent s.memUsed s.memTotal).text ++ lit "%"]

theorem printed_ne_nil (condition : Bool) : nonEmpty (printed condition) = true := by
  cases condition <;> rfl

theorem memStat_normal (awk : Awk) (s : Snapshot) : memStat awk s = normal := if_pos (printed_ne_nil _)

theorem diskStat_normal (awk : Awk) (s : Snapshot) : diskStat awk s = normal := by
  have hNothing : (diskInfo awk s).at 1 = [] := rfl
  have hTest : le [] (lit "80") = true := by decide
  rw [diskStat, hNothing]
  exact if_pos hTest

theorem cpuStat_normal : cpuStat = normal := by decide

section Line

variable {awk : Awk} {s : Snapshot}

theorem Plain.ifs {w : Bytes} (h : Plain w) : ∀ b ∈ w, ifs b = false := by
  intro b hb
  have hLow := (h.2 b hb).1
  rw [Lib.Shell.ifs, decide_eq_false_iff_not]
  rintro (rfl | rfl | rfl) <;> exact absurd hLow (by decide)

theorem Plain.delim {w : Bytes} (h : Plain w) : ∀ b ∈ w, delim b = false := by
  intro b hb
  have hLow := (h.2 b hb).1
  rw [Report.delim, decide_eq_false_iff_not]
  rintro (rfl | rfl) <;> exact absurd hLow (by decide)

theorem Plain.append {w w' : Bytes} (h : Plain w) (h' : Plain w') : Plain (w ++ w') := by
  constructor
  · simp [h.1]
  · intro b hb
    obtain hb | hb := List.mem_append.mp hb
    · exact h.2 b hb
    · exact h'.2 b hb

theorem Plain.percent {w : Bytes} (h : Plain w) : Plain (w ++ lit "%") := by
  apply h.append
  decide

theorem fields_plain {words : List Bytes} (h : ∀ w ∈ words, Plain w) : fields (joined words) = words :=
  fields_joined (fun w hw => (h w hw).1) fun w hw => (h w hw).ifs

theorem plain_texts (words : List Word) : ∀ w ∈ words.map Word.text, Plain w := by
  intro w hw
  obtain ⟨word, _, rfl⟩ := List.mem_map.mp hw
  exact word.plain

theorem fields_texts (words : List Word) : fields (joined (words.map Word.text)) = words.map Word.text :=
  fields_plain (plain_texts words)

theorem fields_word {w : Bytes} (h : Plain w) : fields w = [w] := by
  have hFields : fields (joined [w]) = [w] := by
    apply fields_plain
    simpa using h
  rwa [joined, List.intercalate_singleton] at hFields

theorem memInfo_fields : memInfo awk s =
    .array [(decimal s.memTotal).text, (awk.percent s.memUsed s.memTotal).text] :=
  congrArg Var.array (fields_texts [decimal s.memTotal, awk.percent s.memUsed s.memTotal])

theorem joined_percent (w w' : Bytes) : joined [w, w'] ++ lit "%" = joined [w, w' ++ lit "%"] := by
  simp [joined, List.intercalate_cons_cons]

theorem plain_words : ∀ w ∈ s.words awk, Plain w :=
  plain_texts [s.date, s.clock, s.hostName, s.osVersion, s.kernelVersion, s.runningTime, s.loadAvg1, s.loadAvg2,
    s.loadAvg3, awk.integer s.diskSize, ⟨_, (awk.percent s.usedSpace s.diskSize).plain.percent⟩, decimal s.memTotal,
    ⟨_, (awk.percent s.memUsed s.memTotal).plain.percent⟩]

theorem plain_normal : Plain normal := by decide

def Snapshot.line (awk : Awk) (s : Snapshot) : List Bytes := s.words awk ++ [normal, normal, normal]

theorem plain_line : ∀ w ∈ s.line awk, Plain w := by
  intro w hw
  obtain hw | hw := List.mem_append.mp hw
  · exact plain_words w hw
  · simp only [List.mem_cons, List.not_mem_nil, or_false, or_self] at hw
    rw [hw]
    exact plain_normal

theorem syslog_eq : syslog awk s = joined (s.line awk) ++ [0x0a] := by
  have hNowTime : fields (nowTime s) = [s.date.text, s.clock.text] := fields_texts [s.date, s.clock]
  have hLoad : fields ((loadAVG s).at 0) = [s.loadAvg1.text, s.loadAvg2.text, s.loadAvg3.text] :=
    fields_texts [s.loadAvg1, s.loadAvg2, s.loadAvg3]
  have hDisk : fields ((diskInfo awk s).at 0 ++ lit "%") =
      [(awk.integer s.diskSize).text, (awk.percent s.usedSpace s.diskSize).text ++ lit "%"] := by
    rw [diskInfo, Var.at, if_pos rfl, joined_percent]
    exact fields_texts [awk.integer s.diskSize, ⟨_, (awk.percent s.usedSpace s.diskSize).plain.percent⟩]
  have hNone : ∀ i, i ≠ 0 → fields ((loadAVG s).at i) = [] := by
    intro i hi
    rw [loadAVG, Var.at, if_neg hi]
    rfl
  have hTotal : (memInfo awk s).at 0 = (decimal s.memTotal).text := by
    rw [memInfo_fields]
    rfl
  have hShare : (memInfo awk s).at 1 = (awk.percent s.memUsed s.memTotal).text := by
    rw [memInfo_fields]
    rfl
  rw [syslog, echo, diskStat_normal, memStat_normal, cpuStat_normal, hTotal, hShare]
  simp only [List.flatMap_cons, List.flatMap_nil, hNowTime, hLoad, hDisk, hNone 1 (by decide),
    hNone 2 (by decide), fields_word s.hostName.plain, fields_word s.osVersion.plain,
    fields_word s.kernelVersion.plain, fields_word s.runningTime.plain, fields_word plain_normal,
    fields_word (decimal _).plain, fields_word (awk.percent _ _).plain.percent]
  rfl

theorem tokens_syslog : tokens delim (syslog awk s) = s.line awk := by
  rw [syslog_eq]
  exact tokens_joined rfl (fun w hw => (plain_line w hw).1) (fun w hw => (plain_line w hw).delim)
    (.inr ⟨0x0a, rfl, rfl⟩)

theorem length_syslog : (syslog awk s).length = (s.words awk).flatten.length + 34 := by
  have hLine : s.line awk = s.date.text :: (s.line awk).tail := rfl
  have hTail : (s.line awk).tail.length = 15 := rfl
  have hNormal : ([normal, normal, normal] : List Bytes).flatten.length = 18 := by decide
  rw [syslog_eq, List.length_append, hLine, length_joined, hTail, ← hLine, Snapshot.line, List.flatten_append,
    List.length_append, hNormal, List.length_singleton]

theorem noNul_syslog : 0 ∉ syslog awk s := by
  rw [syslog_eq, List.mem_append, not_or]
  refine ⟨not_mem_joined (by decide) ?_, by decide⟩
  intro w hw hZero
  exact absurd ((plain_line w hw).2 0 hZero).1 (by decide)

end Line

theorem collect_short {output : Bytes} (hLength : output.length < sysBufSize) (hNul : 0 ∉ output)
    (stack : MonitorMsgDs) : ∃ m, collect (checkForSys output) stack = some m ∧ m.text = output := by
  obtain ⟨k, hk⟩ : ∃ k, sysBufSize - output.length = k + 1 := ⟨sysBufSize - output.length - 1, by omega⟩
  have hBuf : checkForSys output = output ++ 0 :: List.replicate k 0 := by
    rw [checkForSys, List.take_of_length_le hLength.le, hk, List.replicate_succ]
  have hFits : output.length < msgBuffSize := hLength.trans (by decide)
  rw [hBuf, collect, if_pos (by simp), cstr_terminated hNul, MonitorMsgDs.strcpyBuff, dif_pos hFits]
  exact ⟨_, rfl, cstr_terminated hNul _⟩

theorem collect_long {output : Bytes} (hLength : sysBufSize ≤ output.length) (hNul : 0 ∉ output)
    (stack : MonitorMsgDs) : collect (checkForSys output) stack = none := by
  have hBuf : checkForSys output = output.take sysBufSize := by
    rw [checkForSys, Nat.sub_eq_zero_of_le hLength, List.replicate_zero, List.append_nil]
  rw [hBuf, collect, if_neg]
  exact fun hZero => hNul (List.mem_of_mem_take hZero)

theorem level_normal {lower upper used size : Nat} :
    level lower upper used size = normal ↔ 100 * used ≤ lower * size := by
  rw [level]
  split
  · rename_i hLow
    exact iff_of_true rfl hLow
  · rename_i hHigh
    refine iff_of_false ?_ hHigh
    split <;> decide

theorem Plain.verbatim {w : Bytes} (h : Plain w) : ∀ b ∈ w, verbatim b = true := by
  intro b hb
  obtain ⟨hLow, hQuote, hBackslash⟩ := h.2 b hb
  exact decide_eq_true ⟨UInt8.lt_trans (by decide) hLow, hQuote, hBackslash⟩

section Values

variable (awk : Awk) (s : Snapshot)

def measured : List Bytes := (s.date.text ++ lit " " ++ s.clock.text) :: (s.words awk).drop 2

theorem values_eq {line : Bytes} (hTokens : tokens delim line = s.line awk) :
    Kind.sys.values line = measured awk s ++ [normal, normal, normal] := by
  rw [Kind.values, hTokens]
  rfl

theorem verbatim_measured : ∀ v ∈ measured awk s, ∀ b ∈ v, verbatim b = true := by
  intro v hv
  obtain rfl | hv := List.mem_cons.mp hv
  · intro b hb
    rw [List.mem_append, List.mem_append] at hb
    obtain (hb | hb) | hb := hb
    · exact s.date.plain.verbatim b hb
    · rw [show lit " " = [0x20] by rfl, List.mem_singleton] at hb
      subst hb
      decide
    · exact s.clock.plain.verbatim b hb
  · exact (plain_words v (List.mem_of_mem_drop hv)).verbatim

theorem length_measured : (measured awk s).flatten.length = (s.words awk).flatten.length + 1 := by
  have hWords : s.words awk = s.date.text :: s.clock.text :: (s.words awk).drop 2 := rfl
  have hBlank : (lit " ").length = 1 := rfl
  conv_rhs => rw [hWords]
  simp only [measured, List.flatten_cons, List.length_append, hBlank]
  omega

theorem columns_split : Kind.sys.columns = Kind.sys.columns.take 12 ++ statKeys := by decide

theorem not_warning {name : Bytes} (hName : name ∈ statKeys) :
    (name, lit "warning") ∉ Kind.sys.columns.zip (measured awk s ++ [normal, normal, normal]) := by
  have hApart : ∀ name ∈ statKeys, name ∉ Kind.sys.columns.take 12 := by decide
  have hNormal : lit "warning" ∉ ([normal, normal, normal] : List Bytes) := by decide
  rw [columns_split, List.zip_append (by rfl), List.mem_append, not_or]
  constructor
  · intro hMem
    exact hApart name hName (List.of_mem_zip hMem).1
  · intro hMem
    exact hNormal (List.of_mem_zip hMem).2

theorem length_json (hShort : (s.words awk).flatten.length < 166) :
    (cJSONPrint (Kind.sys.columns.zip (measured awk s ++ [normal, normal, normal]))).length < msgBuffSize := by
  have hColumns : ∀ k ∈ Kind.sys.columns, ∀ b ∈ k, verbatim b = true := by decide +kernel
  have hNames : Kind.sys.columns.flatten.length = 155 := by decide +kernel
  have hLevels : ([normal, normal, normal] : List Bytes).flatten.length = 18 := by decide
  have hLength : Kind.sys.columns.length = (measured awk s ++ [normal, normal, normal]).length := rfl
  have hCount : (Kind.sys.columns.zip (measured awk s ++ [normal, normal, normal])).length = 15 := rfl
  have hPlain : ∀ m ∈ Kind.sys.columns.zip (measured awk s ++ [normal, normal, normal]),
      (∀ b ∈ m.1, verbatim b = true) ∧ ∀ b ∈ m.2, verbatim b = true := by
    intro m hm
    obtain ⟨hKey, hValue⟩ := List.of_mem_zip hm
    refine ⟨hColumns _ hKey, ?_⟩
    obtain hValue | hValue := List.mem_append.mp hValue
    · exact verbatim_measured awk s _ hValue
    · simp only [List.mem_cons, List.not_mem_nil, or_false, or_self] at hValue
      rw [hValue]
      exact plain_normal.verbatim
  have hLe := length_cJSONPrint_le hPlain
  rw [List.map_fst_zip hLength.le, List.map_snd_zip hLength.ge, hNames, List.flatten_append,
    List.length_append, length_measured, hLevels, hCount] at hLe
  apply hLe.trans_lt
  rw [msgBuffSize]
  omega

end Values

theorem report_calm (awk : Awk) (s : Snapshot) (queued stack : MonitorMsgDs)
    (hShort : (s.words awk).flatten.length < 166) :
    ∃ out, report awk s queued stack = some out ∧ out.urgent = false := by
  have hFits : (syslog awk s).length < sysBufSize := by
    rw [length_syslog, sysBufSize]
    omega
  obtain ⟨m, hCollect, hText⟩ := collect_short hFits noNul_syslog queued
  have hTokens : tokens delim m.text = s.line awk := by rw [hText, tokens_syslog]
  have hValues := values_eq awk s hTokens
  have hNeed : Kind.sys.need ≤ (tokens delim m.text).length := by
    rw [hTokens]
    exact le_of_eq rfl
  have hTime : ∀ now_time ∈ (Kind.sys.values m.text).head?, now_time.length < nowTimeSize := by
    rw [hValues]
    rintro _ ⟨⟩
    rw [List.length_append, List.length_append, s.date_length, s.clock_length]
    decide
  obtain ⟨msg, _, _, hSerialise⟩ := serialise_calm stack hNeed hTime
    (by rw [hValues]; exact length_json awk s hShort)
    fun _ name hName => by rw [hValues]; exact not_warning awk s hName
  rw [report, hCollect, Option.bind_some, hSerialise]
  exact ⟨_, rfl, rfl⟩

/-- The script gives no alarm whatever it measures: its report is right
exactly when there is nothing to report and the line fits into sys_buf. -/
theorem alarmed_iff (awk : Awk) (s : Snapshot) (queued stack : MonitorMsgDs) :
    Alarmed awk s queued stack ↔ 100 * s.memUsed ≤ 70 * s.memTotal ∧
      100 * s.usedSpace ≤ 80 * s.diskSize ∧ (s.words awk).flatten.length < 166 := by
  constructor
  · rintro ⟨hMem, hDisk, out, hReport, _⟩
    rw [memStat_normal, eq_comm, level_normal] at hMem
    rw [diskStat_normal, eq_comm, level_normal] at hDisk
    refine ⟨hMem, hDisk, ?_⟩
    by_contra hLong
    rw [report, collect_long (by rw [length_syslog, sysBufSize]; omega) noNul_syslog] at hReport
    cases hReport
  · rintro ⟨hMem, hDisk, hShort⟩
    obtain ⟨out, hReport, hCalm⟩ := report_calm awk s queued stack hShort
    refine ⟨?_, ?_, out, hReport, ?_⟩
    · rw [memStat_normal, eq_comm, level_normal]
      exact hMem
    · rw [diskStat_normal, eq_comm, level_normal]
      exact hDisk
    · rw [hCalm]
      have hPos := s.diskSize_pos
      simp only [Bool.false_eq_true, false_iff, not_or]
      omega

def hundredths (n : Nat) : Word where
  text := (decimal (n / 100)).text ++ (lit "." ++ ((decimal (n % 100 / 10)).text ++ (decimal (n % 10)).text))
  plain := (decimal _).plain.append (.append (by decide) ((decimal _).plain.append (decimal _).plain))

def awk : Awk where
  integer := decimal
  percent used size := hundredths ((10000 * used + size / 2) / size)
  value field := ((numeral 10 (field.filter (· ≠ 0x2e))).getD 0 : ℚ) / 100

def strained : Snapshot where
  date := ⟨lit "2021-12-13", by decide⟩
  clock := ⟨lit "10:00:00", by decide⟩
  date_length := rfl
  clock_length := rfl
  hostName := ⟨lit "node1", by decide⟩
  osVersion := ⟨lit "#1-Ubuntu", by decide⟩
  kernelVersion := ⟨lit "5.4.0", by decide⟩
  runningTime := ⟨lit "2:03", by decide⟩
  loadAvg1 := ⟨lit "0.50", by decide⟩
  loadAvg2 := ⟨lit "0.40", by decide⟩
  loadAvg3 := ⟨lit "0.30", by decide⟩
  diskSize := 1000
  diskSize_pos := by decide
  usedSpace := 400
  memTotal := 1000
  memTotal_pos := by decide
  memUsed := 900

theorem no_alarm : ¬ ∀ awk s queued stack, Alarmed awk s queued stack := by
  intro hAll
  have hMem := (hAll awk strained (cleared 0) (cleared 0)).mem
  rw [memStat_normal, eq_comm, level_normal] at hMem
  exact absurd hMem (by decide)

end MonitorSystem.Syslog
