import Mathlib.Algebra.Order.Ring.Nat
import Mathlib.Tactic.Linarith
import Mathlib.Tactic.Ring

/-! # Figures that stand for a share

A share a / b is given in m-th parts. A figure is near it when it is off by less
than one part, in whatever way it was rounded.
-/

namespace Lib.Share

def Near (m n a b : Nat) : Prop := n * b < m * a + b ∧ m * a < (n + 1) * b

section

variable {m n a b c d : Nat}

theorem near_div (hb : 0 < b) : Near m (m * a / b) a b := by
  constructor
  · have hLower := Nat.div_mul_le_self (m * a) b
    omega
  · rw [Nat.mul_comm _ b]
    exact Nat.lt_mul_div_succ (m * a) hb

theorem near_zero (h : Near m n 0 b) : n = 0 := by
  obtain ⟨hLess, _⟩ := h
  rw [Nat.mul_zero, Nat.zero_add] at hLess
  by_contra hPos
  exact absurd hLess (not_lt.mpr (Nat.le_mul_of_pos_left b (Nat.pos_of_ne_zero hPos)))

theorem near_le_whole (hLe : a ≤ b) (h : Near m n a b) : n ≤ m := by
  have hLess : n * b < (m + 1) * b := by
    rw [Nat.add_mul, Nat.one_mul]
    exact h.1.trans_le (Nat.add_le_add_right (Nat.mul_le_mul_left m hLe) b)
  exact Nat.le_of_lt_succ (Nat.lt_of_mul_lt_mul_right hLess)

theorem near_whole (h : Near m n b b) : n = m := by
  have hLower := Nat.lt_of_mul_lt_mul_right h.2
  exact Nat.le_antisymm (near_le_whole le_rfl h) (Nat.le_of_lt_succ hLower)

theorem near_le {n' : Nat} (hb : 0 < b) (h : Near m n a b) (h' : Near m n' c d) (hLe : c * b ≤ a * d) :
    n' ≤ n + 1 := by
  have hUpper : n' * (d * b) < (n + 2) * (d * b) := by
    calc
      n' * (d * b) = n' * d * b := (Nat.mul_assoc _ _ _).symm
      _ < (m * c + d) * b := Nat.mul_lt_mul_of_pos_right h'.1 hb
      _ = m * (c * b) + d * b := by ring
      _ ≤ m * (a * d) + d * b := Nat.add_le_add_right (Nat.mul_le_mul_left m hLe) _
      _ = m * a * d + d * b := by ring
      _ ≤ (n + 1) * b * d + d * b := Nat.add_le_add_right (Nat.mul_le_mul_right d h.2.le) _
      _ = (n + 2) * (d * b) := by ring
  exact Nat.le_of_lt_succ (Nat.lt_of_mul_lt_mul_right hUpper)

theorem scaled_le (m : Nat) (hLe : a * d ≤ c * b) : m * a * d ≤ m * c * b := by
  rw [Nat.mul_assoc, Nat.mul_assoc]
  exact Nat.mul_le_mul_left m hLe

theorem div_eq_of_near (hb : 0 < b) (hd : 0 < d) (hLe : a * d ≤ c * b) (h : Near m (m * a / b) c d) :
    m * c / d = m * a / b := by
  have hScaled := scaled_le m hLe
  have hLower := Nat.div_mul_le_self (m * a) b
  have hFloor : m * a / b ≤ m * c / d := by
    rw [Nat.le_div_iff_mul_le hd]
    nlinarith
  have hUpper := h.2
  rw [← Nat.div_lt_iff_lt_mul hd] at hUpper
  omega

/-- Where no whole part lies between them, every figure of a share is one of the larger share. -/
theorem near_of_div_eq (hb : 0 < b) (hd : 0 < d) (hLe : a * d ≤ c * b) (hSame : m * c / d = m * a / b)
    (h : Near m n a b) : Near m n c d := by
  obtain ⟨hLess, hMore⟩ := h
  have hScaled := scaled_le m hLe
  have hLower := Nat.div_mul_le_self (m * a) b
  have hUpper := Nat.lt_mul_div_succ (m * a) hb
  have hLower' := Nat.div_mul_le_self (m * c) d
  have hUpper' := Nat.lt_mul_div_succ (m * c) hd
  rw [hSame] at hLower' hUpper'
  generalize m * a / b = part at hLower hUpper hLower' hUpper'
  have hAbove : part < n + 1 := Nat.lt_of_mul_lt_mul_right (hLower.trans_lt hMore)
  have hBelow : n < part + 2 := by
    apply @Nat.lt_of_mul_lt_mul_right b
    nlinarith
  obtain rfl | rfl : n = part ∨ n = part + 1 := by omega
  · constructor
    · omega
    · rwa [Nat.mul_comm (n + 1)]
  · -- the smaller share is above the part itself, and so is the other
    have hPart : part * d < m * c := by
      have hStrict : part * b < m * a := by nlinarith
      apply @Nat.lt_of_mul_lt_mul_right b
      nlinarith
    constructor
    · nlinarith
    · nlinarith

end

end Lib.Share
