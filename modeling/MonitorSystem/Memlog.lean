import MonitorSystem.Lib.Average
import MonitorSystem.ReportLine

/-! # The dynamic average of Memlog.sh

The script keeps nothing between two runs: the last average is its argument.
The client passes the same argument in every round. Rates and averages are in
hundredths of a percent here.
-/

namespace MonitorSystem.Memlog

open Msg CJson Report Syslog Collection ReportLine Lib.CString Lib.Shell Lib.Bc Lib

/-- The line of free -m that starts with Mem:, which counts in 64 bits. -/
structure MemRow where
  line : Bytes
  total : Nat
  used : Nat
  free : Nat
  shared : Nat
  buffCache : Nat
  available : Nat
  columns : fields line = lit "Mem:" :: [total, used, free, shared, buffCache, available].map fun n => (decimal n).text
  total_pos : 0 < total
  total_lt : total < 2 ^ 64
  used_le : used ≤ total

structure Sample where
  date : Word
  clock : Word
  date_length : date.text.length = 10
  clock_length : clock.text.length = 8
  row : MemRow

def field (line : Bytes) (i : Nat) : Bytes := (fields line).getD (i - 1) []

section Script

variable (s : Sample)

def nowTime : Bytes := joined [s.date.text, s.clock.text]

def memValue (r : MemRow) : Var := .array (fields (joined [field r.line 2, field r.line 3, field r.line 7]))

/-- echo "scale=2;${MemValue[1]}*100/${MemValue[0]} " | bc -/
def memUsed (r : MemRow) : Bytes :=
  match parse ((memValue r).at 1), parse ((memValue r).at 0) with
  | some used, some total => ((Fixed.mul 2 used ⟨100, 0⟩).div 2 total).elim [] Fixed.text
  | _, _ => []

/-- echo "scale=2;0.8*${DyAver}+0.2*${MemUsed}" | bc -/
def nowDyAver (dyAver memUsed : Bytes) : Bytes :=
  match parse dyAver, parse memUsed with
  | some last, some used => ((Fixed.mul 2 ⟨8, 1⟩ last).add (Fixed.mul 2 ⟨2, 1⟩ used)).text
  | _, _ => []

def command : Bytes := lit "bash /home/lhx/CProject/monitor_system/script/Memlog.sh 50"

def usage (name : Bytes) : Bytes := lit "Usage : " ++ name ++ lit " DyAver" ++ [0x0a]

/-- What the script prints when it is called by a name with arguments. -/
def memlog (name : Bytes) : List Bytes → Bytes
  | [] => usage name
  | dyAver :: _ =>
    let value := memValue s.row
    echo [nowTime s, value.at 0 ++ lit "M", value.at 1 ++ lit "M", memUsed s.row ++ lit "%",
      nowDyAver dyAver (memUsed s.row) ++ lit "%"]

def popenMem : Bytes := memlog s ((fields command).getD 1 []) ((fields command).drop 2)

end Script

def percentage (text : Bytes) : Option Nat :=
  if text.getLast? = some 0x25 then (parse text.dropLast).map (Fixed.units 2) else none

def rate (name : Bytes) (s : Sample) (queued stack : MonitorMsgDs) : Option Nat :=
  (reported .mem (popenMem s) queued stack).bind fun msg => (member msg name).bind percentage

def MemRow.usage (r : MemRow) : Nat := 10000 * r.used / r.total

/-- The average p that starts at 50 and takes in the usage u, each product cut to two decimals. -/
structure DynamicAverage (u p : Nat → Nat) : Prop where
  first : p 0 = 8 * 5000 / 10 + 2 * u 0 / 10
  next : ∀ k, p (k + 1) = 8 * p k / 10 + 2 * u (k + 1) / 10
  converges : ∀ usage, (∀ k, u k = usage) → ∃ K, ∀ k ≥ K, p k ≤ usage ∧ usage ≤ p k + 8

/-- What the client reports of a sequence of samples is their dynamic average. -/
def Averages (samples : Nat → Sample) (queued stack : Nat → MonitorMsgDs) : Prop :=
  ∃ p, (∀ k, rate (lit "mem_prediction_rate") (samples k) (queued k) (stack k) = some (p k)) ∧
    DynamicAverage (fun k => (samples k).row.usage) p

def Half (r : MemRow) : Prop := r.total ≤ 2 * r.used ∧ 1000 * r.used < 501 * r.total

theorem half_iff (r : MemRow) : Half r ↔ 5000 ≤ r.usage ∧ r.usage < 5010 := by
  have hPos := r.total_pos
  rw [MemRow.usage, Nat.le_div_iff_mul_le hPos, Nat.div_lt_iff_lt_mul hPos, Half]
  omega

theorem weights (p u : Nat) : 8 * p / 10 + 2 * u / 10 = Average.next 4 p u := by
  rw [Average.next]
  omega

theorem dynamicAverage_of_step {u p : Nat → Nat} (hFirst : p 0 = 8 * 5000 / 10 + 2 * u 0 / 10)
    (hNext : ∀ k, p (k + 1) = 8 * p k / 10 + 2 * u (k + 1) / 10) : DynamicAverage u p := by
  refine ⟨hFirst, hNext, fun usage hConstant => ?_⟩
  apply Average.converges 4
  intro k
  rw [hNext, hConstant, weights]

section Line

variable (r : MemRow) (s : Sample)

theorem memValue_eq : memValue r =
    .array [(decimal r.total).text, (decimal r.used).text, (decimal r.available).text] := by
  have hTotal : field r.line 2 = (decimal r.total).text := by
    rw [field, r.columns]
    rfl
  have hUsed : field r.line 3 = (decimal r.used).text := by
    rw [field, r.columns]
    rfl
  have hAvailable : field r.line 7 = (decimal r.available).text := by
    rw [field, r.columns]
    rfl
  rw [memValue, hTotal, hUsed, hAvailable]
  exact congrArg Var.array (fields_texts [decimal r.total, decimal r.used, decimal r.available])

theorem memUsed_eq : memUsed r = (⟨r.usage, 2⟩ : Fixed).text := by
  have hTotal : parse ((memValue r).at 0) = some ⟨r.total, 0⟩ := by
    rw [memValue_eq]
    exact parse_digitsOf r.total
  have hUsed : parse ((memValue r).at 1) = some ⟨r.used, 0⟩ := by
    rw [memValue_eq]
    exact parse_digitsOf r.used
  have hProduct : Fixed.mul 2 ⟨r.used, 0⟩ ⟨100, 0⟩ = ⟨r.used * 100, 0⟩ := by
    simp [Fixed.mul]
  have hShare : r.used * 100 * 10 ^ (0 + 2) / (r.total * 10 ^ 0) = r.usage := by
    rw [MemRow.usage, Nat.pow_zero, Nat.mul_one, Nat.mul_assoc, Nat.mul_comm]
    rfl
  rw [memUsed, hTotal, hUsed]
  simp only
  rw [hProduct, Fixed.div, if_neg r.total_pos.ne', hShare, Option.elim_some]

theorem usage_le : r.usage ≤ 10000 := by
  rw [MemRow.usage]
  exact Nat.div_le_of_le_mul (by have := r.used_le; omega)

theorem nowDyAver_eq {dyAver : Bytes} {last : Fixed} (hParse : parse dyAver = some last) (hScale : last.scale ≤ 2) :
    ∃ n : Fixed, nowDyAver dyAver (memUsed r) = n.text ∧ n.scale ≤ 2 ∧
      n.units 2 = 8 * last.units 2 / 10 + 2 * r.usage / 10 := by
  obtain ⟨used, hUsed, hUsedScale, hUnits⟩ := parse_text ⟨r.usage, 2⟩
  have hUsage : used.units 2 = r.usage := by
    rw [hUnits, units_self]
  have hTenth (c : Nat) : (⟨c, 1⟩ : Fixed).scale ≤ 2 := Nat.le_succ 1
  have hLeft := scale_mul_le (hTenth 8) hScale
  have hRight := scale_mul_le (hTenth 2) hUsedScale
  refine ⟨(Fixed.mul 2 ⟨8, 1⟩ last).add (Fixed.mul 2 ⟨2, 1⟩ used), ?_, scale_add_le hLeft hRight, ?_⟩
  · rw [nowDyAver, hParse, memUsed_eq, hUsed]
  · rw [units_add hLeft hRight, units_mul (hTenth 8) hScale, units_mul (hTenth 2) hUsedScale, hUsage, Nat.pow_one]

theorem parse_fifty : parse (lit "50") = some ⟨50, 0⟩ := by decide

theorem plain_text (n : Fixed) : Plain n.text := by
  refine ⟨text_ne_nil n, fun b hb => ?_⟩
  obtain rfl | hDigit := mem_text hb
  · decide
  · exact plain_digit hDigit

theorem percentage_text (n : Fixed) : percentage (n.text ++ lit "%") = some (n.units 2) := by
  obtain ⟨m, hParse, _, hUnits⟩ := parse_text n
  rw [percentage, show lit "%" = [0x25] from rfl, List.getLast?_concat, if_pos rfl, List.dropLast_concat, hParse,
    Option.map_some, hUnits]

def words (average : Fixed) : List Bytes :=
  [s.date.text, s.clock.text, (decimal s.row.total).text ++ lit "M", (decimal s.row.used).text ++ lit "M",
    (⟨s.row.usage, 2⟩ : Fixed).text ++ lit "%", average.text ++ lit "%"]

theorem plain_words (average : Fixed) : ∀ w ∈ words s average, Plain w := by
  have hMega : Plain (lit "M") := by decide
  exact plain_texts [s.date, s.clock, ⟨_, (decimal s.row.total).plain.append hMega⟩,
    ⟨_, (decimal s.row.used).plain.append hMega⟩, ⟨_, (plain_text ⟨s.row.usage, 2⟩).percent⟩,
    ⟨_, (plain_text average).percent⟩]

theorem memlog_eq {dyAver : Bytes} {average : Fixed} (name : Bytes) (args : List Bytes)
    (hAverage : nowDyAver dyAver (memUsed s.row) = average.text) :
    memlog s name (dyAver :: args) = output (words s average) := by
  have hPlain := plain_words s average
  simp only [words, List.forall_mem_cons, List.not_mem_nil, false_imp_iff, implies_true, and_true] at hPlain
  obtain ⟨_, _, hTotal, hUsed, hRate, hAverageRate⟩ := hPlain
  have hNow : fields (nowTime s) = [s.date.text, s.clock.text] := fields_texts [s.date, s.clock]
  rw [memlog, hAverage, memUsed_eq, memValue_eq, echo]
  simp only [List.flatMap_cons, List.flatMap_nil, hNow, Var.at, List.getD_cons_zero, List.getD_cons_succ,
    fields_word hTotal, fields_word hUsed, fields_word hRate, fields_word hAverageRate]
  rfl

theorem length_output {average : Fixed} (hScale : average.scale ≤ 2) (hUnits : average.units 2 < 10000) :
    (output (words s average)).length < bufSize .mem := by
  have hDecimal {n : Nat} (h : n < 2 ^ 64) : (decimal n).text.length ≤ 20 :=
    length_digitsOf_le (by decide) (h.trans (by decide))
  have hTotal := hDecimal s.row.total_lt
  have hUsed := hDecimal (s.row.used_le.trans_lt s.row.total_lt)
  have hUsage : (⟨s.row.usage, 2⟩ : Fixed).text.length ≤ 3 + 2 + 1 := by
    apply length_text_le (by decide) (show (⟨s.row.usage, 2⟩ : Fixed).scale ≤ 2 from le_rfl)
    rw [units_self]
    exact (usage_le s.row).trans_lt (by decide)
  have hAverage : average.text.length ≤ 2 + 2 + 1 := length_text_le (by decide) hScale hUnits
  have hMega : (lit "M").length = 1 := rfl
  have hPercent : (lit "%").length = 1 := rfl
  have hSize : bufSize .mem = 100 := rfl
  rw [output, List.length_append, words, length_joined, hSize]
  simp only [List.flatten_cons, List.flatten_nil, List.length_append, List.length_cons, List.length_nil, hMega,
    hPercent, s.date_length, s.clock_length]
  omega

end Line

section Rate

variable (s : Sample)

theorem popenMem_eq : ∃ average : Fixed, popenMem s = output (words s average) ∧ average.scale ≤ 2 ∧
    average.units 2 = 8 * 5000 / 10 + 2 * s.row.usage / 10 := by
  have hArgs : (fields command).drop 2 = [lit "50"] := by decide +kernel
  obtain ⟨average, hAverage, hScale, hUnits⟩ := nowDyAver_eq s.row parse_fifty (by decide)
  refine ⟨average, ?_, hScale, hUnits⟩
  rw [popenMem, hArgs]
  exact memlog_eq s _ [] hAverage

theorem reported_mem (queued stack : MonitorMsgDs) :
    ∃ msg average, reported .mem (popenMem s) queued stack = some msg ∧
      average.units 2 = 8 * 5000 / 10 + 2 * s.row.usage / 10 ∧
      Kind.mem.values (line .mem (popenMem s)) =
        (s.date.text ++ lit " " ++ s.clock.text) :: (words s average).drop 2 := by
  obtain ⟨average, hOutput, hScale, hUnits⟩ := popenMem_eq s
  have hUsage := usage_le s.row
  have hLength := length_output s hScale (by omega)
  have hPlain := plain_words s average
  obtain ⟨msg, _, hReported, _⟩ := reported_isSome hPlain hLength rfl s.date_length s.clock_length queued stack
  refine ⟨msg, average, hOutput ▸ hReported, hUnits, ?_⟩
  rw [hOutput]
  exact values_output hPlain hLength.le

theorem predictionRate_eq (queued stack : MonitorMsgDs) :
    rate (lit "mem_prediction_rate") s queued stack = some (8 * 5000 / 10 + 2 * s.row.usage / 10) := by
  obtain ⟨msg, average, hReported, hUnits, hValues⟩ := reported_mem s queued stack
  have hName : Kind.mem.columns[4]? = some (lit "mem_prediction_rate") := rfl
  rw [rate, hReported, Option.bind_some, member_eq hReported hName, hValues]
  exact hUnits ▸ percentage_text average

theorem usageRate_eq (queued stack : MonitorMsgDs) : rate (lit "mem_usage_rate") s queued stack = some s.row.usage := by
  obtain ⟨msg, average, hReported, _, hValues⟩ := reported_mem s queued stack
  have hName : Kind.mem.columns[3]? = some (lit "mem_usage_rate") := rfl
  rw [rate, hReported, Option.bind_some, member_eq hReported hName, hValues]
  exact (percentage_text _).trans (congrArg some (units_self _ 2))

end Rate

theorem step_iff (r r' : MemRow) : 8 * 5000 / 10 + 2 * r'.usage / 10 =
    8 * (8 * 5000 / 10 + 2 * r.usage / 10) / 10 + 2 * r'.usage / 10 ↔ Half r := by
  rw [half_iff]
  omega

/-- The prediction of every round comes from that round alone, so it is the average only
while the usage stays where one step from 50 leads back to 50. -/
theorem averages_iff (samples : Nat → Sample) (queued stack : Nat → MonitorMsgDs) :
    Averages samples queued stack ↔ ∀ k, Half (samples k).row := by
  constructor
  · rintro ⟨p, hRate, hAverage⟩ k
    have hNow := (predictionRate_eq (samples k) (queued k) (stack k)).symm.trans (hRate k)
    have hThen := (predictionRate_eq (samples (k + 1)) (queued (k + 1)) (stack (k + 1))).symm.trans (hRate (k + 1))
    have hNext := hAverage.next k
    rw [← Option.some.inj hNow, ← Option.some.inj hThen] at hNext
    exact (step_iff _ _).mp hNext
  · intro hHalf
    refine ⟨_, fun k => predictionRate_eq (samples k) (queued k) (stack k), ?_⟩
    apply dynamicAverage_of_step
    · rfl
    · exact fun k => (step_iff _ _).mpr (hHalf k)

def tenth : Sample where
  date := strained.date
  clock := strained.clock
  date_length := strained.date_length
  clock_length := strained.clock_length
  row := {
    line := lit "Mem:           2000         200        1000          20         800        1700"
    total := 2000
    used := 200
    free := 1000
    shared := 20
    buffCache := 800
    available := 1700
    columns := rfl
    total_pos := by decide
    total_lt := by decide
    used_le := by decide
  }

/-- Every round predicts 42%, where the second should predict 35.6%. -/
theorem not_averages : ¬ ∀ samples queued stack, Averages samples queued stack := by
  intro hAll
  obtain ⟨p, hRate, hAverage⟩ := hAll (fun _ => tenth) (fun _ => cleared 0) (fun _ => cleared 0)
  have hSame (k : Nat) : p k = 4200 := Option.some.inj ((hRate k).symm.trans (predictionRate_eq tenth _ _))
  have hNext := hAverage.next 0
  have hUsage : tenth.row.usage = 1000 := by decide
  rw [hSame, hSame, hUsage] at hNext
  cases hNext

/-- The averages of runs of the script of which each is called with what the last one printed. -/
def carried (samples : Nat → Sample) : Nat → Bytes
  | 0 => nowDyAver (lit "50") (memUsed (samples 0).row)
  | k + 1 => nowDyAver (carried samples k) (memUsed (samples (k + 1)).row)

theorem units_of_text {n m : Fixed} (h : n.text = m.text) : n.units 2 = m.units 2 := by
  have hPercentage := percentage_text n
  rw [h, percentage_text] at hPercentage
  exact (Option.some.inj hPercentage).symm

theorem nowDyAver_text (r : MemRow) {last : Fixed} (hScale : last.scale ≤ 2) :
    ∃ n : Fixed, nowDyAver last.text (memUsed r) = n.text ∧ n.scale ≤ 2 ∧
      n.units 2 = 8 * last.units 2 / 10 + 2 * r.usage / 10 := by
  obtain ⟨m, hParse, hLess, hUnits⟩ := parse_text last
  rw [← hUnits]
  exact nowDyAver_eq r hParse (hLess.trans hScale)

theorem carried_text (samples : Nat → Sample) (k : Nat) : ∃ n : Fixed, carried samples k = n.text ∧ n.scale ≤ 2 := by
  induction k with
  | zero =>
    obtain ⟨n, hText, hScale, _⟩ := nowDyAver_eq (samples 0).row parse_fifty (by decide)
    exact ⟨n, hText, hScale⟩
  | succ k ih =>
    obtain ⟨last, hLast, hScale⟩ := ih
    obtain ⟨n, hText, hNext, _⟩ := nowDyAver_text (samples (k + 1)).row hScale
    rw [← hLast] at hText
    exact ⟨n, hText, hNext⟩

theorem dynamicAverage_carried (samples : Nat → Sample) : ∃ p, (∀ k, percentage (carried samples k ++ lit "%") =
    some (p k)) ∧ DynamicAverage (fun k => (samples k).row.usage) p := by
  choose average hText hScale using carried_text samples
  refine ⟨fun k => (average k).units 2, fun k => hText k ▸ percentage_text _, dynamicAverage_of_step ?_ ?_⟩
  · obtain ⟨n, hNow, _, hUnits⟩ := nowDyAver_eq (samples 0).row parse_fifty (by decide)
    exact (units_of_text ((hText 0).symm.trans hNow)).trans hUnits
  · intro k
    obtain ⟨n, hNow, _, hUnits⟩ := nowDyAver_text (samples (k + 1)).row (hScale k)
    rw [← hText k] at hNow
    exact (units_of_text ((hText (k + 1)).symm.trans hNow)).trans hUnits

end MonitorSystem.Memlog
