import Mathlib.Algebra.Order.Ring.Nat
import Mathlib.Logic.Function.Iterate
import Mathlib.Order.Monotone.Basic
import Mathlib.Tactic.Linarith

/-! # A weighted average in whole units

Every step weighs the old value with w and the new one with 1, and cuts both
products. Under a constant input the value moves towards an interval of w + 1
numbers and stops there, since what is cut off no longer moves it.
-/

namespace Lib.Average

/-- A step that moves every number towards an interval reaches it and stays. -/
theorem settles {f : Nat → Nat} (hMono : Monotone f) {low high : Nat} (hLow : f low = low) (hHigh : f high = high)
    (hAbove : ∀ x, high < x → f x < x) (hBelow : ∀ x, x < low → x < f x) (hLe : low ≤ high) (x : Nat) :
    ∃ K, ∀ k ≥ K, low ≤ f^[k] x ∧ f^[k] x ≤ high := by
  have hLower (y : Nat) (hy : low ≤ y) : low ≤ f y := hLow.symm.le.trans (hMono hy)
  have hUpper (y : Nat) (hy : y ≤ high) : f y ≤ high := (hMono hy).trans hHigh.le
  induction hDistance : (x - high) + (low - x) using Nat.strong_induction_on generalizing x with
  | _ distance ih =>
    by_cases hInside : low ≤ x ∧ x ≤ high
    · have hStays (k : Nat) : low ≤ f^[k] x ∧ f^[k] x ≤ high := by
        induction k with
        | zero => exact hInside
        | succ k ihk =>
          rw [Function.iterate_succ_apply']
          exact ⟨hLower _ ihk.1, hUpper _ ihk.2⟩
      exact ⟨0, fun k _ => hStays k⟩
    · have hCloser : (f x - high) + (low - f x) < distance := by
        rw [not_and_or, not_le, not_le] at hInside
        obtain hLess | hMore := hInside
        · have hUp := hBelow x hLess
          have hNot := hUpper x (hLess.le.trans hLe)
          omega
        · have hDown := hAbove x hMore
          have hNot := hLower x (hLe.trans hMore.le)
          omega
      obtain ⟨K, hK⟩ := ih _ hCloser (f x) rfl
      refine ⟨K + 1, fun k hk => ?_⟩
      obtain ⟨j, rfl⟩ := Nat.exists_eq_add_of_le' hk
      have hIterate := hK (j + K) (Nat.le_add_left K j)
      rwa [← Function.iterate_succ_apply] at hIterate

def next (w p u : Nat) : Nat := w * p / (w + 1) + u / (w + 1)

theorem kept_add (w p : Nat) : w * p / (w + 1) + (p + w) / (w + 1) = p := by
  have hLower := Nat.div_mul_le_self (p + w) (w + 1)
  have hUpper := Nat.lt_mul_div_succ (p + w) (Nat.succ_pos w)
  rw [Nat.succ_eq_add_one] at hUpper
  generalize (p + w) / (w + 1) = part at hLower hUpper ⊢
  have hLe : part ≤ p := by
    by_contra hMore
    obtain ⟨d, rfl⟩ := Nat.exists_eq_add_of_lt (not_le.mp hMore)
    nlinarith
  have hKept : w * p / (w + 1) = p - part := by
    obtain ⟨rest, rfl⟩ := Nat.exists_eq_add_of_le hLe
    rw [Nat.add_sub_cancel_left]
    apply Nat.div_eq_of_lt_le
    · nlinarith
    · nlinarith
  omega

theorem next_mono (w u : Nat) : Monotone fun p => next w p u := by
  intro p q hLe
  exact Nat.add_le_add_right (Nat.div_le_div_right (Nat.mul_le_mul_left w hLe)) _

theorem low_eq (w a : Nat) : ((w + 1) * a - w + w) / (w + 1) = a := by
  cases a with
  | zero =>
    rw [Nat.mul_zero, Nat.zero_sub, Nat.zero_add]
    exact Nat.div_eq_of_lt (Nat.lt_succ_self w)
  | succ a =>
    rw [Nat.sub_add_cancel (by nlinarith), Nat.mul_div_cancel_left _ (Nat.succ_pos w)]

theorem high_eq (w a : Nat) : ((w + 1) * a + w) / (w + 1) = a := by
  rw [Nat.mul_add_div (Nat.succ_pos w), Nat.div_eq_of_lt (Nat.lt_succ_self w), Nat.add_zero]

section Constant

variable (w u : Nat)

theorem next_of_part {p : Nat} (h : (p + w) / (w + 1) = u / (w + 1)) : next w p u = p := by
  have hKept := kept_add w p
  rw [next, ← h]
  exact hKept

theorem next_above {p : Nat} (h : (w + 1) * (u / (w + 1)) < p) : next w p u < p := by
  have hKept := kept_add w p
  have hPart : u / (w + 1) + 1 ≤ (p + w) / (w + 1) := by
    rw [Nat.le_div_iff_mul_le (Nat.succ_pos w)]
    nlinarith
  rw [next]
  omega

theorem next_below {p : Nat} (h : p < (w + 1) * (u / (w + 1)) - w) : p < next w p u := by
  have hKept := kept_add w p
  have hPart : (p + w) / (w + 1) < u / (w + 1) := by
    have hPos : 0 < w + 1 := Nat.succ_pos w
    rw [Nat.div_lt_iff_lt_mul hPos, Nat.mul_comm]
    omega
  rw [next]
  omega

/-- Under a constant input the average ends up below it, by no more than what the cuts take. -/
theorem converges {p : Nat → Nat} (hNext : ∀ k, p (k + 1) = next w (p k) u) :
    ∃ K, ∀ k ≥ K, p k ≤ u ∧ u ≤ p k + 2 * w := by
  have hIterate (k : Nat) : p k = (fun p => next w p u)^[k] (p 0) := by
    induction k with
    | zero => rfl
    | succ k ih => rw [hNext, Function.iterate_succ_apply', ← ih]
  obtain ⟨K, hK⟩ := settles (next_mono w u) (next_of_part w u (low_eq w _)) (next_of_part w u (high_eq w _))
    (fun _ => next_above w u) (fun _ => next_below w u) (Nat.sub_le _ _) (p 0)
  refine ⟨K, fun k hk => ?_⟩
  obtain ⟨hLow, hHigh⟩ := hK k hk
  have hParts := Nat.div_add_mod u (w + 1)
  have hRest : u % (w + 1) < w + 1 := Nat.mod_lt u (Nat.succ_pos w)
  rw [hIterate]
  omega

end Constant

end Lib.Average
