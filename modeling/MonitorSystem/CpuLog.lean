import MonitorSystem.Lib.Share
import MonitorSystem.Memlog

/-! # The utilization of CPUlog.sh and the left memory of Memlog.sh

Both scripts take fields by their numbers. The first field of the line of
/proc/stat is a name, so the counters have numbers one higher than their places.
-/

namespace MonitorSystem.CpuLog

open Msg CJson Report Syslog MonitorSystem.Insert Payload Collection ReportLine Memlog Lib.CString Lib.Shell Lib.Bc
  Lib.Share

structure StatLine where
  line : Bytes
  user : Nat
  nice : Nat
  system : Nat
  idle : Nat
  iowait : Nat
  irq : Nat
  softirq : Nat
  steal : Nat
  guest : Nat
  guestNice : Nat
  columns : fields line = lit "cpu" ::
    [user, nice, system, idle, iowait, irq, softirq, steal, guest, guestNice].map fun n => (decimal n).text
  counted_pos : 0 < user + nice + system + idle + iowait + irq + softirq + steal + guest + guestNice

/-- Of a load average the kernel prints no more than sixteen digits and two decimals. -/
structure CpuSample where
  date : Word
  clock : Word
  date_length : date.text.length = 10
  clock_length : clock.text.length = 8
  loadAvg1 : Word
  loadAvg2 : Word
  loadAvg3 : Word
  loadAvg_length : loadAvg1.text.length + loadAvg2.text.length + loadAvg3.text.length ≤ 60
  stat : StatLine

def value (w : Bytes) : Nat := (numeral 10 (w.takeWhile fun b => 0x30 ≤ b ∧ b ≤ 0x39)).getD 0

section Script

variable (awk : Awk) (s : CpuSample)

def nowTime : Bytes := joined [s.date.text, s.clock.text]

def loadAVG : Var := .array (fields (joined [s.loadAvg1.text, s.loadAvg2.text, s.loadAvg3.text]))

def temp : Bytes := lit "0"

/-- awk '{printf ("%d %d", $4, ($1+$2+$3+$4+$5+$6+$7+$8+$9+$10))}' -/
def figures (line : Bytes) : Bytes :=
  let sum := ([1, 2, 3, 4, 5, 6, 7, 8, 9, 10].map fun i => value (field line i)).sum
  joined [(awk.integer (value (field line 4))).text, (awk.integer sum).text]

/-- awk '{printf("%.2f", $1/$2*100)}', which prints nothing where it would divide by zero. -/
def utilization (line : Bytes) : Bytes :=
  let used := value (field (figures awk line) 1)
  let size := value (field (figures awk line) 2)
  if size = 0 then [] else (awk.percent used size).text

def compare (op : Nat → Nat → Bool) (left right : Bytes) : Bool := test (fun _ => []) op left right

def stat : Bytes :=
  if compare (fun a b => a ≤ b) temp (lit "50") then normal
  else if compare (fun a b => b < a) temp (lit "50") ∧ compare (fun a b => a ≤ b) temp (lit "70") then note
  else if compare (fun a b => b < a) temp (lit "70") then warning
  else []

def cpulog : Bytes :=
  echo [nowTime s, (loadAVG s).at 0, (loadAVG s).at 1, (loadAVG s).at 2, utilization awk s.stat.line, temp, stat]

end Script

/-- awk prints two decimals that are less than a hundredth away from the percentage. -/
def Rounds (awk : Awk) : Prop :=
  ∀ used size, 0 < size → ∃ n, awk.percent used size = hundredths n ∧ Near 10000 n used size

/-- Below the bound awk prints a sum as it is. -/
def Exact (bound : Nat) (awk : Awk) : Prop := ∀ n, n < bound → awk.integer n = decimal n

section StatLine

variable (s : StatLine)

def StatLine.busy : Nat :=
  s.user + s.nice + s.system + s.iowait + s.irq + s.softirq + s.steal + s.guest + s.guestNice

def StatLine.counted : Nat := s.busy + s.idle

def StatLine.summed : Nat :=
  s.user + s.nice + s.system + s.idle + s.iowait + s.irq + s.softirq + s.steal + s.guest

end StatLine

/-- n hundredths of a percent are the share of the busy time, as far as two decimals go. -/
structure NonIdle (n busy idle : Nat) : Prop where
  near : Near 10000 n busy (busy + idle)
  onlyIdle : busy = 0 → n = 0
  noIdle : idle = 0 → n = 10000
  falls : ∀ more n', Near 10000 n' busy (busy + idle + more) → n' ≤ n + 1

/-- The two figures mean what their names say. -/
structure Told (awk : Awk) (cpu : CpuSample) (mem : Sample) (queued stack : MonitorMsgDs) : Prop where
  utilization : ∃ msg, reported .cpu (cpulog awk cpu) queued stack = some msg ∧
    ∃ n, member msg (lit "utilization") = some (hundredths n).text ∧ NonIdle n cpu.stat.busy cpu.stat.idle
  left : ∃ msg, reported .mem (popenMem mem) queued stack = some msg ∧
    stored .mem msg (lit "left_mem_value") = some ((decimal mem.row.available).text ++ lit "M")

theorem nonIdle_iff {n busy idle : Nat} (hPos : 0 < busy + idle) :
    NonIdle n busy idle ↔ Near 10000 n busy (busy + idle) := by
  constructor
  · exact NonIdle.near
  · intro hNear
    refine ⟨hNear, ?_, ?_, ?_⟩
    · rintro rfl
      exact near_zero hNear
    · rintro rfl
      exact near_whole hNear
    · intro more n' hMore
      apply near_le hPos hNear hMore
      exact Nat.mul_le_mul_left busy (Nat.le_add_right _ _)

theorem value_decimal (n : Nat) : value (decimal n).text = n := by
  have hDigits : ∀ b ∈ digitsOf n, decide (0x30 ≤ b ∧ b ≤ 0x39) = true := by
    intro b hb
    exact decide_eq_true (isDigit_digitsOf n b hb)
  have hText : (decimal n).text = digitsOf n := rfl
  rw [value, hText, List.takeWhile_eq_self_iff.mpr hDigits, numeral_digitsOf, Option.getD_some]

theorem decimal_inj {n n' : Nat} (h : (decimal n).text = (decimal n').text) : n = n' := by
  have hValue := congrArg value h
  rwa [value_decimal, value_decimal] at hValue

theorem figures_eq (awk : Awk) (s : StatLine) :
    figures awk s.line = joined [(awk.integer s.system).text, (awk.integer s.summed).text] := by
  have hName : value (lit "cpu") = 0 := by decide
  have hSum : ([1, 2, 3, 4, 5, 6, 7, 8, 9, 10].map fun i => value (field s.line i)).sum = s.summed := by
    simp only [field, s.columns, List.map_cons, List.map_nil, List.sum_cons, List.sum_nil, List.getD_cons_zero,
      List.getD_cons_succ, Nat.add_one_sub_one, hName, value_decimal, StatLine.summed]
    omega
  have hSystem : value (field s.line 4) = s.system := by
    rw [field, s.columns]
    exact value_decimal s.system
  rw [figures, hSum, hSystem]

theorem utilization_words (awk : Awk) (s : StatLine) : utilization awk s.line =
    if value (awk.integer s.summed).text = 0 then []
    else (awk.percent (value (awk.integer s.system).text) (value (awk.integer s.summed).text)).text := by
  have hFields : fields (figures awk s.line) = [(awk.integer s.system).text, (awk.integer s.summed).text] := by
    rw [figures_eq]
    exact fields_texts [awk.integer s.system, awk.integer s.summed]
  rw [utilization, field, field, hFields]
  rfl

theorem utilization_eq {awk : Awk} {bound : Nat} (hExact : Exact bound awk) {s : StatLine} (hBound : s.summed < bound) :
    utilization awk s.line = if s.summed = 0 then [] else (awk.percent s.system s.summed).text := by
  have hSystem : s.system < bound := by
    rw [StatLine.summed] at hBound
    omega
  rw [utilization_words, hExact _ hBound, hExact _ hSystem, value_decimal, value_decimal]

theorem stat_normal : stat = normal := by decide

/-- The words of the line, figure being what is left of the utilization. -/
def CpuSample.words (s : CpuSample) (figure : List Bytes) : List Bytes :=
  [s.date.text, s.clock.text, s.loadAvg1.text, s.loadAvg2.text, s.loadAvg3.text] ++ figure ++ [temp, normal]

theorem plain_words (s : CpuSample) {figure : List Bytes} (h : ∀ w ∈ figure, Plain w) :
    ∀ w ∈ s.words figure, Plain w := by
  have hTemp : Plain temp := by decide
  intro w hw
  rw [CpuSample.words, List.mem_append, List.mem_append] at hw
  obtain (hw | hw) | hw := hw
  · exact plain_texts [s.date, s.clock, s.loadAvg1, s.loadAvg2, s.loadAvg3] w hw
  · exact h w hw
  · exact plain_texts [⟨temp, hTemp⟩, ⟨normal, plain_normal⟩] w hw

theorem cpulog_eq {awk : Awk} {s : CpuSample} {figure : List Bytes}
    (hFigure : fields (utilization awk s.stat.line) = figure) : cpulog awk s = output (s.words figure) := by
  have hNow : fields (nowTime s) = [s.date.text, s.clock.text] := fields_texts [s.date, s.clock]
  have hLoad : loadAVG s = .array [s.loadAvg1.text, s.loadAvg2.text, s.loadAvg3.text] :=
    congrArg Var.array (fields_texts [s.loadAvg1, s.loadAvg2, s.loadAvg3])
  have hTemp : fields temp = [temp] := by decide
  rw [cpulog, echo, hLoad, stat_normal]
  simp only [List.flatMap_cons, List.flatMap_nil, hNow, hFigure, hTemp, Var.at, List.getD_cons_zero,
    List.getD_cons_succ, fields_word s.loadAvg1.plain, fields_word s.loadAvg2.plain, fields_word s.loadAvg3.plain,
    fields_word plain_normal]
  rw [output, CpuSample.words]
  rfl

theorem length_output (s : CpuSample) {figure : List Bytes} (hCount : figure.length ≤ 1)
    (hLength : figure.flatten.length ≤ 6) : (output (s.words figure)).length < bufSize .cpu := by
  have hLoad := s.loadAvg_length
  have hTemp : temp.length = 1 := rfl
  have hNormal : normal.length = 6 := rfl
  have hSize : bufSize .cpu = 100 := rfl
  rw [output, List.length_append, CpuSample.words, List.cons_append, List.cons_append, length_joined, hSize]
  simp only [List.flatten_cons, List.flatten_nil, List.flatten_append, List.length_append, List.length_cons,
    List.length_nil, hTemp, hNormal, s.date_length, s.clock_length]
  omega

theorem hundredths_text (n : Nat) : (hundredths n).text = digitsOf (n / 100) ++ point :: lastDigits 2 n := by
  have hTens : (decimal (n % 100 / 10)).text = [UInt8.ofNat (0x30 + n / 10 % 10)] := by
    have hMod : n % 100 / 10 = n / 10 % 10 := by omega
    rw [hMod]
    exact digitsOf_small (Nat.mod_lt _ (by decide))
  have hOnes : (decimal (n % 10)).text = [UInt8.ofNat (0x30 + n % 10)] := digitsOf_small (Nat.mod_lt _ (by decide))
  have hText : (hundredths n).text =
      (decimal (n / 100)).text ++ (lit "." ++ ((decimal (n % 100 / 10)).text ++ (decimal (n % 10)).text)) := rfl
  rw [hText, hTens, hOnes]
  rfl

theorem parse_hundredths (n : Nat) : parse (hundredths n).text = some ⟨n, 2⟩ := by
  have hSplit : n / 100 * 10 ^ 2 + n % 10 ^ 2 = n := Nat.div_add_mod' n 100
  rw [hundredths_text, parse_point (isDigit_digitsOf _) (numeral_digitsOf _), hSplit]

theorem hundredths_inj {n n' : Nat} (h : (hundredths n).text = (hundredths n').text) : n = n' := by
  have hParse := parse_hundredths n
  rw [h, parse_hundredths] at hParse
  cases hParse
  rfl

theorem length_hundredths {n : Nat} (h : n ≤ 10000) : (hundredths n).text.length ≤ 6 := by
  have hWhole : (digitsOf (n / 100)).length ≤ 3 := length_digitsOf_le (by decide) (by omega)
  rw [hundredths_text, List.length_append, List.length_cons, length_lastDigits]
  omega

section Share

variable (s : StatLine)

theorem counted_pos : 0 < s.counted := by
  have hPos := s.counted_pos
  rw [StatLine.counted, StatLine.busy]
  omega

theorem system_le : s.system + s.idle ≤ s.summed := by
  rw [StatLine.summed]
  omega

theorem counted_eq : s.counted = s.summed + s.guestNice := by
  rw [StatLine.counted, StatLine.busy, StatLine.summed]
  omega

theorem share_le : s.system * s.counted ≤ s.busy * s.summed := by
  have hSystem := system_le s
  have hCounted := counted_eq s
  have hBusy : s.busy + s.idle = s.counted := rfl
  generalize s.busy = busy at *
  generalize s.counted = counted at *
  generalize s.summed = summed at *
  obtain ⟨rest, rfl⟩ := Nat.exists_eq_add_of_le hSystem
  have hRest : busy = s.system + rest + s.guestNice := by omega
  rw [hCounted, hRest]
  nlinarith

end Share

section Reported

variable {awk : Awk} {queued stack msg : MonitorMsgDs}

theorem values_cpu {s : CpuSample} {figure : List Bytes} (hFigure : fields (utilization awk s.stat.line) = figure)
    (hPlain : ∀ w ∈ figure, Plain w) (hCount : figure.length ≤ 1) (hLength : figure.flatten.length ≤ 6) :
    Kind.cpu.values (line .cpu (cpulog awk s)) = (s.date.text ++ lit " " ++ s.clock.text) ::
      ([s.loadAvg1.text, s.loadAvg2.text, s.loadAvg3.text] ++ figure ++ [temp, normal]) := by
  have hFields : ([s.loadAvg1.text, s.loadAvg2.text, s.loadAvg3.text] ++ figure ++ [temp, normal]).length ≤
      Kind.cpu.keys.length := by
    have hKeys : Kind.cpu.keys.length = 6 := rfl
    rw [hKeys, List.length_append, List.length_append, List.length_cons, List.length_cons, List.length_cons,
      List.length_cons, List.length_cons, List.length_nil]
    omega
  rw [cpulog_eq hFigure]
  refine (values_output (plain_words s hPlain) (length_output s hCount hLength).le).trans ?_
  exact congrArg _ (List.take_of_length_le hFields)

theorem member_nothing {s : CpuSample} (hNothing : utilization awk s.stat.line = [])
    (h : reported .cpu (cpulog awk s) queued stack = some msg) (n : Nat) :
    member msg (lit "utilization") ≠ some (hundredths n).text := by
  have hFigure : fields (utilization awk s.stat.line) = [] := by
    rw [hNothing]
    rfl
  have hName : Kind.cpu.columns[4]? = some (lit "utilization") := rfl
  have hTemp : member msg (lit "utilization") = some temp := by
    rw [member_eq h hName, values_cpu hFigure (fun w hw => absurd hw List.not_mem_nil) (by decide) (by decide)]
    rfl
  intro hMember
  have hParse := congrArg parse (Option.some.inj (hTemp.symm.trans hMember))
  rw [parse_hundredths] at hParse
  cases hParse

theorem reported_cpu {bound : Nat} (hExact : Exact bound awk) {s : CpuSample} (hBound : s.stat.summed < bound)
    (hPos : 0 < s.stat.summed) {n : Nat}
    (hPercent : awk.percent s.stat.system s.stat.summed = hundredths n) (hLe : n ≤ 10000)
    (queued stack : MonitorMsgDs) : ∃ msg, reported .cpu (cpulog awk s) queued stack = some msg ∧
      member msg (lit "utilization") = some (hundredths n).text := by
  have hFigure : fields (utilization awk s.stat.line) = [(hundredths n).text] := by
    rw [utilization_eq hExact hBound, if_neg hPos.ne', hPercent]
    exact fields_word (hundredths n).plain
  have hLength : [(hundredths n).text].flatten.length ≤ 6 := by
    rw [List.flatten_singleton]
    exact length_hundredths hLe
  have hPlain : ∀ w ∈ [(hundredths n).text], Plain w := by
    simpa using (hundredths n).plain
  obtain ⟨msg, _, hReported, _⟩ := reported_isSome (plain_words s hPlain) (length_output s le_rfl hLength) rfl
    s.date_length s.clock_length queued stack
  have hReported' : reported .cpu (cpulog awk s) queued stack = some msg := cpulog_eq hFigure ▸ hReported
  have hName : Kind.cpu.columns[4]? = some (lit "utilization") := rfl
  refine ⟨msg, hReported', ?_⟩
  rw [member_eq hReported' hName, values_cpu hFigure hPlain le_rfl hLength]
  rfl

theorem reported_left (mem : Sample) (queued stack : MonitorMsgDs) : ∃ msg,
    reported .mem (popenMem mem) queued stack = some msg ∧
      stored .mem msg (lit "left_mem_value") = some ((decimal mem.row.used).text ++ lit "M") := by
  obtain ⟨msg, average, hReported, _, hValues⟩ := reported_mem mem queued stack
  have hPlace : Kind.mem.columns.idxOf (lit "left_mem_value") = 2 := by decide +kernel
  refine ⟨msg, hReported, ?_⟩
  rw [stored_eq hReported (hValues ▸ rfl), hPlace, hValues]
  rfl

theorem left_iff (mem : Sample) (queued stack : MonitorMsgDs) :
    (∃ msg, reported .mem (popenMem mem) queued stack = some msg ∧
      stored .mem msg (lit "left_mem_value") = some ((decimal mem.row.available).text ++ lit "M")) ↔
      mem.row.used = mem.row.available := by
  obtain ⟨msg, hReported, hStored⟩ := reported_left mem queued stack
  constructor
  · rintro ⟨msg', hReported', hStored'⟩
    cases hReported.symm.trans hReported'
    exact decimal_inj (List.append_cancel_right (Option.some.inj (hStored.symm.trans hStored')))
  · intro hSame
    exact ⟨msg, hReported, hSame ▸ hStored⟩

end Reported

def cutting : Awk where
  integer := decimal
  percent used size := hundredths (10000 * used / size)
  value _ := 0

theorem rounds_cutting : Rounds cutting := by
  intro used size hPos
  exact ⟨_, rfl, near_div hPos⟩

theorem exact_cutting (bound : Nat) : Exact bound cutting := fun _ _ => rfl

def bounded (bound : Nat) : Awk := { cutting with integer := fun n => if n < bound then decimal n else decimal 0 }

theorem exact_bounded (bound : Nat) : Exact bound (bounded bound) := fun _ hBound => if_pos hBound

theorem utilization_bounded {bound : Nat} {s : StatLine} (hBound : bound ≤ s.summed) :
    utilization (bounded bound) s.line = [] := by
  have hDigits : (bounded bound).integer s.summed = decimal 0 := if_neg (Nat.not_lt.mpr hBound)
  rw [utilization_words, hDigits, value_decimal, if_pos rfl]

theorem summed_pos {s : StatLine} (hSame : 10000 * s.busy / s.counted = 10000 * s.system / s.summed) : 0 < s.summed := by
  have hCounted := counted_pos s
  have hSystem := system_le s
  by_contra hZero
  have hBusy : s.busy = s.counted := by
    rw [StatLine.counted]
    omega
  rw [hBusy, Nat.mul_div_cancel _ hCounted, Nat.eq_zero_of_not_pos hZero, Nat.div_zero] at hSame
  cases hSame

theorem utilization_iff (bound : Nat) (s : CpuSample) (queued stack : MonitorMsgDs) :
    (∀ awk, Rounds awk → Exact bound awk → ∃ msg, reported .cpu (cpulog awk s) queued stack = some msg ∧
      ∃ n, member msg (lit "utilization") = some (hundredths n).text ∧ NonIdle n s.stat.busy s.stat.idle) ↔
      s.stat.summed < bound ∧
        10000 * s.stat.busy / s.stat.counted = 10000 * s.stat.system / s.stat.summed := by
  have hCounted := counted_pos s.stat
  have hLe := share_le s.stat
  have hPart := Nat.le_of_add_right_le (system_le s.stat)
  constructor
  · intro hAll
    have hBound : s.stat.summed < bound := by
      by_contra hLarge
      obtain ⟨msg, hReported, n, hMember, _⟩ := hAll (bounded bound) rounds_cutting (exact_bounded bound)
      exact member_nothing (utilization_bounded (Nat.not_lt.mp hLarge)) hReported n hMember
    obtain ⟨msg, hReported, n, hMember, hNonIdle⟩ := hAll cutting rounds_cutting (exact_cutting bound)
    have hPos : 0 < s.stat.summed := by
      by_contra hZero
      refine member_nothing ?_ hReported n hMember
      rw [utilization_eq (exact_cutting bound) hBound, if_pos (Nat.eq_zero_of_not_pos hZero)]
    obtain ⟨msg', hReported', hMember'⟩ := reported_cpu (exact_cutting bound) hBound hPos rfl
      (near_le_whole hPart (near_div hPos)) queued stack
    cases hReported.symm.trans hReported'
    have hCut := hundredths_inj (Option.some.inj (hMember.symm.trans hMember'))
    exact ⟨hBound, div_eq_of_near hPos hCounted hLe (hCut ▸ hNonIdle.near)⟩
  · rintro ⟨hBound, hSame⟩ awk hRounds hExact
    have hPos := summed_pos hSame
    obtain ⟨n, hPercent, hNear⟩ := hRounds s.stat.system s.stat.summed hPos
    obtain ⟨msg, hReported, hMember⟩ := reported_cpu hExact hBound hPos hPercent (near_le_whole hPart hNear) queued stack
    exact ⟨msg, hReported, n, hMember, (nonIdle_iff hCounted).mpr (near_of_div_eq hPos hCounted hLe hSame hNear)⟩

/-- Both figures mean what they are called, however awk rounds and whatever it prints of a sum that reaches the bound,
exactly when the sum does not, no hundredth of a percent lies between the system share and the busy share, and as much
memory is used as is available. -/
theorem told_iff (bound : Nat) (cpu : CpuSample) (mem : Sample) (queued stack : MonitorMsgDs) :
    (∀ awk, Rounds awk → Exact bound awk → Told awk cpu mem queued stack) ↔
      cpu.stat.summed < bound ∧
        10000 * cpu.stat.busy / cpu.stat.counted = 10000 * cpu.stat.system / cpu.stat.summed ∧
        mem.row.used = mem.row.available := by
  constructor
  · intro hAll
    obtain ⟨hBound, hShare⟩ := (utilization_iff bound cpu queued stack).mp
      fun awk hRounds hExact => (hAll awk hRounds hExact).utilization
    refine ⟨hBound, hShare, ?_⟩
    rw [← left_iff mem queued stack]
    exact (hAll cutting rounds_cutting (exact_cutting bound)).left
  · rintro ⟨hBound, hShare, hLeft⟩ awk hRounds hExact
    constructor
    · exact (utilization_iff bound cpu queued stack).mpr ⟨hBound, hShare⟩ awk hRounds hExact
    · exact (left_iff mem queued stack).mpr hLeft

def programs : CpuSample where
  date := strained.date
  clock := strained.clock
  date_length := strained.date_length
  clock_length := strained.clock_length
  loadAvg1 := strained.loadAvg1
  loadAvg2 := strained.loadAvg2
  loadAvg3 := strained.loadAvg3
  loadAvg_length := by decide
  stat := {
    line := lit "cpu  100 0 10 890 0 0 0 0 0 0"
    user := 100
    nice := 0
    system := 10
    idle := 890
    iowait := 0
    irq := 0
    softirq := 0
    steal := 0
    guest := 0
    guestNice := 0
    columns := rfl
    counted_pos := by decide
  }

/-- The report says 1% where 11% of the time was not idle, also where %d is exact throughout. -/
theorem not_told : ¬ ∀ awk, Rounds awk → (∀ bound, Exact bound awk) →
    ∀ cpu mem queued stack, Told awk cpu mem queued stack := by
  intro hAll
  have hTold := (hAll cutting rounds_cutting exact_cutting programs tenth (cleared 0) (cleared 0)).utilization
  obtain ⟨msg, hReported, n, hMember, hNonIdle⟩ := hTold
  obtain ⟨msg', hReported', hMember'⟩ := @reported_cpu cutting 1001 (exact_cutting 1001) programs (by decide) (by decide)
    100 rfl (by decide) (cleared 0) (cleared 0)
  cases hReported.symm.trans hReported'
  obtain rfl := hundredths_inj (Option.some.inj (hMember.symm.trans hMember'))
  obtain ⟨_, hNear⟩ := hNonIdle.near
  exact absurd hNear (by decide)

end MonitorSystem.CpuLog
