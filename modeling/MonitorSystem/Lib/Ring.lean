import Mathlib.Data.Int.ModEq
import Mathlib.Data.Nat.ModEq
import Mathlib.Logic.Function.Basic
import Mathlib.Tactic.Common

/-! # Circular memory addressed by running counters

The k-th write goes to cell k mod n. Readers and writers then only compare
running counters; the cell indices of a concrete ring are their remainders.
-/

namespace Lib.Ring

universe u
variable {α : Type u}

theorem cell_inj {n i j : Nat} (hij : i < j + n) (hji : j < i + n) :
    i % n = j % n ↔ i = j := by
  constructor
  · intro h
    apply Nat.ModEq.eq_of_abs_lt (m := n) h
    rw [abs_lt]
    omega
  · rintro rfl
    rfl

/-- The last n writes of the history are all in place. -/
def Recent (n : Nat) (cells : Nat → α) (history : List α) : Prop :=
  ∀ k x, history[k]? = some x → history.length ≤ k + n → cells (k % n) = x

theorem recent_nil (n : Nat) (cells : Nat → α) : Recent n cells [] := by
  intro k x hx
  simp at hx

/-- Writing the next cell replaces exactly the write that is one lap old. -/
theorem Recent.push {n : Nat} {cells : Nat → α} {history : List α}
    (h : Recent n cells history) (x : α) :
    Recent n (Function.update cells (history.length % n) x) (history ++ [x]) := by
  intro k y hy hk
  rw [List.length_append, List.length_singleton] at hk
  rw [List.getElem?_append] at hy
  split at hy
  · rename_i hOld
    have hCell : k % n ≠ history.length % n := by
      rw [Ne, cell_inj (by omega) (by omega)]
      omega
    rw [Function.update_of_ne hCell]
    exact h k y hy (by omega)
  · rename_i hNew
    obtain ⟨hLast, hxy⟩ := List.getElem?_eq_some_iff.mp hy
    have hk : k = history.length := by
      rw [List.length_singleton] at hLast
      omega
    subst hk
    rw [Function.update_self]
    simpa using hxy

end Lib.Ring
