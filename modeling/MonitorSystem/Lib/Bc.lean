import MonitorSystem.Lib.Shell
import Mathlib.Algebra.Order.Ring.Nat
import Mathlib.Tactic.IntervalCases
import Mathlib.Tactic.Ring

/-! # The fixed-point numbers of bc

A number without sign is a numeral and the count of its decimals. A product
keeps as many decimals as the scale and the factors allow, and what is cut is
lost. A text is a number again, except that zero forgets its decimals.
-/

namespace Lib.Bc

open CString Shell

structure Fixed where
  digits : Nat
  scale : Nat
deriving DecidableEq

/-- How many units of the s-th decimal the number has. -/
def Fixed.units (s : Nat) (n : Fixed) : Nat := n.digits * 10 ^ s / 10 ^ n.scale

def Fixed.add (a b : Fixed) : Fixed where
  digits := a.digits * 10 ^ (max a.scale b.scale - a.scale) + b.digits * 10 ^ (max a.scale b.scale - b.scale)
  scale := max a.scale b.scale

def Fixed.mul (scale : Nat) (a b : Fixed) : Fixed :=
  let kept := min (a.scale + b.scale) (max scale (max a.scale b.scale))
  ⟨a.digits * b.digits / 10 ^ (a.scale + b.scale - kept), kept⟩

def Fixed.div (scale : Nat) (a b : Fixed) : Option Fixed :=
  if b.digits = 0 then none
  else some ⟨a.digits * 10 ^ (b.scale + scale) / (b.digits * 10 ^ a.scale), scale⟩

def digitsOf (n : Nat) : Bytes := (Nat.toDigits 10 n).map fun c => UInt8.ofNat c.toNat

def lastDigits : Nat → Nat → Bytes
  | 0, _ => []
  | k + 1, n => lastDigits k (n / 10) ++ [UInt8.ofNat (0x30 + n % 10)]

def point : UInt8 := 0x2e

def Fixed.whole (n : Fixed) : Bytes := if n.digits / 10 ^ n.scale = 0 then [] else digitsOf (n.digits / 10 ^ n.scale)

def Fixed.text (n : Fixed) : Bytes :=
  if n.digits = 0 then lit "0"
  else n.whole ++ if n.scale = 0 then [] else point :: lastDigits n.scale n.digits

def parse (text : Bytes) : Option Fixed :=
  let fraction := (text.dropWhile (· ≠ point)).tail
  if text = [] then none
  else (numeral 10 (text.takeWhile (· ≠ point) ++ fraction)).map fun digits => ⟨digits, fraction.length⟩

section Units

variable {s : Nat} {a b : Fixed}

theorem units_of_le {n : Fixed} (h : n.scale ≤ s) : n.units s = n.digits * 10 ^ (s - n.scale) := by
  obtain ⟨d, rfl⟩ := Nat.exists_eq_add_of_le h
  rw [Fixed.units, Nat.add_sub_cancel_left, Nat.pow_add, Nat.mul_left_comm,
    Nat.mul_div_cancel_left _ (Nat.pow_pos (by decide))]

theorem units_self (digits scale : Nat) : (⟨digits, scale⟩ : Fixed).units scale = digits :=
  Nat.mul_div_cancel _ (Nat.pow_pos (by decide))

theorem scale_add_le (ha : a.scale ≤ s) (hb : b.scale ≤ s) : (a.add b).scale ≤ s := max_le ha hb

theorem units_add (ha : a.scale ≤ s) (hb : b.scale ≤ s) : (a.add b).units s = a.units s + b.units s := by
  have hShift {n : Fixed} (h : n.scale ≤ max a.scale b.scale) :
      n.digits * 10 ^ (max a.scale b.scale - n.scale) * 10 ^ (s - max a.scale b.scale) =
        n.digits * 10 ^ (s - n.scale) := by
    have hMax := max_le ha hb
    have hSum : max a.scale b.scale - n.scale + (s - max a.scale b.scale) = s - n.scale := by omega
    rw [Nat.mul_assoc, ← Nat.pow_add, hSum]
  rw [units_of_le (scale_add_le ha hb), units_of_le ha, units_of_le hb, Fixed.add, Nat.add_mul,
    hShift (le_max_left _ _), hShift (le_max_right _ _)]

theorem scale_mul_le (ha : a.scale ≤ s) (hb : b.scale ≤ s) : (Fixed.mul s a b).scale ≤ s :=
  (min_le_right _ _).trans (max_le le_rfl (max_le ha hb))

theorem units_mul (ha : a.scale ≤ s) (hb : b.scale ≤ s) :
    (Fixed.mul s a b).units s = a.digits * b.units s / 10 ^ a.scale := by
  have hMax : max s (max a.scale b.scale) = s := max_eq_left (max_le ha hb)
  have hTen (k : Nat) : 0 < 10 ^ k := Nat.pow_pos (by decide)
  rw [units_of_le (scale_mul_le ha hb), units_of_le hb, Fixed.mul, hMax]
  by_cases hAll : a.scale + b.scale ≤ s
  · have hSplit : s - b.scale = a.scale + (s - (a.scale + b.scale)) := by omega
    rw [min_eq_left hAll, Nat.sub_self, Nat.pow_zero, Nat.div_one, hSplit, Nat.pow_add]
    have hFactor : a.digits * (b.digits * (10 ^ a.scale * 10 ^ (s - (a.scale + b.scale)))) =
        10 ^ a.scale * (a.digits * b.digits * 10 ^ (s - (a.scale + b.scale))) := by ring
    rw [hFactor, Nat.mul_div_cancel_left _ (hTen _)]
  · have hCut : a.scale = s - b.scale + (a.scale + b.scale - s) := by omega
    rw [min_eq_right (not_le.mp hAll).le, Nat.sub_self, Nat.pow_zero, Nat.mul_one]
    conv_rhs => rw [hCut, Nat.pow_add]
    rw [← Nat.mul_assoc, Nat.mul_comm _ (10 ^ (s - b.scale)), Nat.mul_div_mul_left _ _ (hTen _)]

end Units

section Text

theorem byte_of_digit {d : Nat} (h : d < 10) : (UInt8.ofNat (0x30 + d)).toNat = 0x30 + d := by
  interval_cases d <;> rfl

theorem digitsOf_eq (n : Nat) : digitsOf n =
    (if n < 10 then [] else digitsOf (n / 10)) ++ [UInt8.ofNat (0x30 + n % 10)] := by
  have hDigit {d : Nat} (h : d < 10) : UInt8.ofNat d.digitChar.toNat = UInt8.ofNat (0x30 + d) := by
    interval_cases d <;> rfl
  rw [digitsOf, Nat.toDigits_eq_if (by decide)]
  by_cases hSmall : n < 10
  · rw [if_pos hSmall, if_pos hSmall, List.map_singleton, hDigit hSmall, Nat.mod_eq_of_lt hSmall, List.nil_append]
  · rw [if_neg hSmall, if_neg hSmall, List.map_append, List.map_singleton, hDigit (Nat.mod_lt n (by decide)), digitsOf]

theorem digitsOf_small {d : Nat} (h : d < 10) : digitsOf d = [UInt8.ofNat (0x30 + d)] := by
  rw [digitsOf_eq, if_pos h, List.nil_append, Nat.mod_eq_of_lt h]

theorem numeral_append {text : Bytes} {n d : Nat} (hText : numeral 10 text = some n) (hd : d < 10) :
    numeral 10 (text ++ [UInt8.ofNat (0x30 + d)]) = some (10 * n + d) := by
  have hByte := byte_of_digit hd
  have hLow : (0x30 : UInt8) ≤ UInt8.ofNat (0x30 + d) := by
    rw [UInt8.le_iff_toNat_le, hByte]
    exact Nat.le_add_right _ _
  have hHigh : (UInt8.ofNat (0x30 + d)).toNat < 0x30 + 10 := by
    rw [hByte]
    exact Nat.add_lt_add_left hd _
  rw [numeral] at hText ⊢
  rw [List.foldlM_append, hText, Option.bind_eq_bind, Option.bind_some, List.foldlM_cons, if_pos ⟨hLow, hHigh⟩, hByte,
    Nat.add_sub_cancel_left]
  rfl

theorem numeral_digitsOf (n : Nat) : numeral 10 (digitsOf n) = some n := by
  induction n using Nat.strong_induction_on with
  | _ n ih =>
    have hSplit : 10 * (n / 10) + n % 10 = n := Nat.div_add_mod n 10
    have hDigit : n % 10 < 10 := Nat.mod_lt n (by decide)
    rw [digitsOf_eq]
    by_cases hSmall : n < 10
    · have hNone : numeral 10 [] = some 0 := rfl
      rw [if_pos hSmall, numeral_append hNone hDigit, Nat.mul_zero, Nat.zero_add, Nat.mod_eq_of_lt hSmall]
    · rw [if_neg hSmall, numeral_append (ih (n / 10) (by omega)) hDigit, hSplit]

theorem numeral_lastDigits {text : Bytes} {start : Nat} (hText : numeral 10 text = some start) (k n : Nat) :
    numeral 10 (text ++ lastDigits k n) = some (start * 10 ^ k + n % 10 ^ k) := by
  induction k generalizing n with
  | zero => rw [lastDigits, List.append_nil, hText, Nat.pow_zero, Nat.mul_one, Nat.mod_one, Nat.add_zero]
  | succ k ih =>
    have hDigit : n % 10 < 10 := Nat.mod_lt n (by decide)
    have hMod : n % 10 ^ (k + 1) = 10 * (n / 10 % 10 ^ k) + n % 10 := by
      rw [Nat.pow_succ, Nat.mul_comm, Nat.mod_mul]
      omega
    rw [lastDigits, ← List.append_assoc, numeral_append (ih (n / 10)) hDigit, hMod, Nat.pow_succ]
    congr 1
    ring

theorem isDigit_digitsOf (n : Nat) : ∀ b ∈ digitsOf n, 0x30 ≤ b ∧ b ≤ 0x39 := by
  intro b hb
  obtain ⟨c, hc, rfl⟩ := List.mem_map.mp hb
  have hDigit := Nat.isDigit_of_mem_toDigits (by decide) (by decide) hc
  obtain ⟨hLow, hHigh⟩ : 48 ≤ c.toNat ∧ c.toNat ≤ 57 := by simpa [Char.isDigit, UInt32.le_iff_toNat_le] using hDigit
  generalize c.toNat = digit at hLow hHigh
  interval_cases digit <;> decide

theorem isDigit_lastDigits (k n : Nat) : ∀ b ∈ lastDigits k n, 0x30 ≤ b ∧ b ≤ 0x39 := by
  induction k generalizing n with
  | zero => exact fun b hb => absurd hb List.not_mem_nil
  | succ k ih =>
    intro b hb
    obtain hb | hb := List.mem_append.mp hb
    · exact ih (n / 10) b hb
    · rw [List.mem_singleton.mp hb]
      have hDigit : n % 10 < 10 := Nat.mod_lt n (by decide)
      generalize n % 10 = digit at hDigit
      interval_cases digit <;> decide

theorem length_lastDigits (k n : Nat) : (lastDigits k n).length = k := by
  induction k generalizing n with
  | zero => rfl
  | succ k ih => rw [lastDigits, List.length_append, ih, List.length_singleton]

theorem isDigit_whole (n : Fixed) : ∀ b ∈ n.whole, 0x30 ≤ b ∧ b ≤ 0x39 := by
  rw [Fixed.whole]
  split
  · exact fun b hb => absurd hb List.not_mem_nil
  · exact isDigit_digitsOf _

theorem numeral_whole (n : Fixed) : numeral 10 n.whole = some (n.digits / 10 ^ n.scale) := by
  rw [Fixed.whole]
  split
  · rename_i hZero
    rw [hZero]
    rfl
  · exact numeral_digitsOf _

theorem ne_point {b : UInt8} (h : 0x30 ≤ b ∧ b ≤ 0x39) : b ≠ point := by
  rintro rfl
  exact absurd h.1 (by decide)

theorem parse_point {whole : Bytes} {start : Nat} (hWhole : ∀ b ∈ whole, 0x30 ≤ b ∧ b ≤ 0x39)
    (hStart : numeral 10 whole = some start) (k n : Nat) :
    parse (whole ++ point :: lastDigits k n) = some ⟨start * 10 ^ k + n % 10 ^ k, k⟩ := by
  have hDigits : ∀ b ∈ whole, decide (b ≠ point) = true := by
    intro b hb
    exact decide_eq_true (ne_point (hWhole b hb))
  rw [parse, if_neg (by simp), List.takeWhile_append_of_pos hDigits, List.dropWhile_append_of_pos hDigits,
    List.takeWhile_cons_of_neg (by decide), List.dropWhile_cons_of_neg (by decide), List.append_nil, List.tail_cons,
    numeral_lastDigits hStart, length_lastDigits, Option.map_some]

theorem parse_text_eq (n : Fixed) : parse n.text = some (if n.digits = 0 then ⟨0, 0⟩ else n) := by
  rw [Fixed.text]
  by_cases hZero : n.digits = 0
  · rw [if_pos hZero, if_pos hZero]
    decide
  · rw [if_neg hZero, if_neg hZero]
    by_cases hScale : n.scale = 0
    · have hWhole : ∀ b ∈ n.whole, decide (b ≠ point) = true := by
        intro b hb
        exact decide_eq_true (ne_point (isDigit_whole n b hb))
      have hNe : n.whole ≠ [] := by
        rw [Fixed.whole, hScale, Nat.pow_zero, Nat.div_one, if_neg hZero, digitsOf, Ne, List.map_eq_nil_iff]
        exact Nat.toDigits_ne_nil
      have hDigits : n.digits / 10 ^ n.scale = n.digits := by rw [hScale, Nat.pow_zero, Nat.div_one]
      rw [if_pos hScale, List.append_nil, parse, if_neg hNe, List.takeWhile_eq_self_iff.mpr hWhole,
        List.dropWhile_eq_nil_iff.mpr hWhole, List.tail_nil, List.append_nil, numeral_whole, hDigits]
      rw [Option.map_some, List.length_nil, ← hScale]
    · have hSplit : n.digits / 10 ^ n.scale * 10 ^ n.scale + n.digits % 10 ^ n.scale = n.digits :=
        Nat.div_add_mod' _ _
      rw [if_neg hScale, parse_point (isDigit_whole n) (numeral_whole n), hSplit]

theorem text_whole (n : Nat) : (⟨n, 0⟩ : Fixed).text = digitsOf n := by
  rw [Fixed.text]
  by_cases hZero : n = 0
  · rw [if_pos hZero, hZero]
    rfl
  · rw [if_neg hZero, if_pos rfl, List.append_nil, Fixed.whole, Nat.pow_zero, Nat.div_one, if_neg hZero]

theorem parse_digitsOf (n : Nat) : parse (digitsOf n) = some ⟨n, 0⟩ := by
  rw [← text_whole, parse_text_eq]
  by_cases hZero : n = 0
  · rw [if_pos hZero, hZero]
  · rw [if_neg hZero]

theorem parse_text (n : Fixed) : ∃ m, parse n.text = some m ∧ m.scale ≤ n.scale ∧ ∀ s, m.units s = n.units s := by
  rw [parse_text_eq]
  by_cases hZero : n.digits = 0
  · refine ⟨⟨0, 0⟩, by rw [if_pos hZero], Nat.zero_le _, fun s => ?_⟩
    rw [Fixed.units, Fixed.units, hZero, Nat.zero_mul, Nat.zero_div, Nat.zero_div]
  · exact ⟨n, by rw [if_neg hZero], le_rfl, fun s => rfl⟩

theorem text_ne_nil (n : Fixed) : n.text ≠ [] := by
  intro hNil
  obtain ⟨m, hParse, _⟩ := parse_text n
  rw [hNil] at hParse
  cases hParse

theorem mem_text {n : Fixed} {b : UInt8} (hb : b ∈ n.text) : b = point ∨ (0x30 ≤ b ∧ b ≤ 0x39) := by
  rw [Fixed.text] at hb
  split at hb
  · rw [List.mem_singleton.mp (show b ∈ [0x30] from hb)]
    decide
  · obtain hb | hb := List.mem_append.mp hb
    · exact .inr (isDigit_whole n b hb)
    · split at hb
      · cases hb
      · obtain rfl | hb := List.mem_cons.mp hb
        · exact .inl rfl
        · exact .inr (isDigit_lastDigits _ _ b hb)

theorem length_digitsOf_le {n k : Nat} (hk : 0 < k) (h : n < 10 ^ k) : (digitsOf n).length ≤ k := by
  rw [digitsOf, List.length_map]
  exact (Nat.length_toDigits_le_iff (by decide) hk).mpr h

theorem length_text_le {n : Fixed} {s k : Nat} (hk : 0 < k) (hScale : n.scale ≤ s) (h : n.units s < 10 ^ (s + k)) :
    n.text.length ≤ k + s + 1 := by
  have hDigits : n.digits < 10 ^ (n.scale + k) := by
    obtain ⟨d, rfl⟩ := Nat.exists_eq_add_of_le hScale
    rw [units_of_le hScale, Nat.add_sub_cancel_left, Nat.add_right_comm, Nat.pow_add _ _ d] at h
    exact Nat.lt_of_mul_lt_mul_right h
  have hWhole : n.whole.length ≤ k := by
    rw [Fixed.whole]
    split
    · exact Nat.zero_le k
    · apply length_digitsOf_le hk
      rwa [Nat.div_lt_iff_lt_mul (Nat.pow_pos (by decide)), Nat.mul_comm, ← Nat.pow_add]
  rw [Fixed.text]
  split
  · exact Nat.le_add_left 1 _
  · rw [List.length_append]
    split
    · rw [List.length_nil]
      omega
    · rw [List.length_cons, length_lastDigits]
      omega

end Text

end Lib.Bc
