import Mathlib.Algebra.Order.Ring.Nat
import Mathlib.Data.List.Basic
import Mathlib.Tactic.Common

/-! # Cutting a list into consecutive blocks of one length

The elements behind the last full block belong to no block.
-/

namespace Lib.Blocks

universe u
variable {α : Type u}

def blocks (n : Nat) (l : List α) : List (List α) :=
  (List.range (l.length / n)).map fun i => (l.drop (i * n)).take n

theorem blocks_of_lt {n : Nat} {l : List α} (h : l.length < n) : blocks n l = [] := by
  rw [blocks, Nat.div_eq_of_lt h]
  rfl

theorem blocks_append {n : Nat} (hn : 0 < n) {block : List α} (hBlock : block.length = n) (l : List α) :
    blocks n (block ++ l) = block :: blocks n l := by
  have hCount : (block ++ l).length / n = l.length / n + 1 := by
    rw [List.length_append, hBlock, Nat.add_div_left _ hn]
  rw [blocks, hCount, List.range_succ_eq_map, List.map_cons, List.map_map, Nat.zero_mul, List.drop_zero,
    List.take_left' hBlock, blocks]
  congr 1
  apply List.map_congr_left
  intro i _
  rw [Function.comp_apply, Nat.succ_mul, Nat.add_comm, ← List.drop_drop, List.drop_left' hBlock]

def remainder (n : Nat) (l : List α) : List α := l.drop (l.length / n * n)

theorem remainder_of_lt {n : Nat} {l : List α} (h : l.length < n) : remainder n l = l := by
  rw [remainder, Nat.div_eq_of_lt h, Nat.zero_mul, List.drop_zero]

theorem remainder_append {n : Nat} (hn : 0 < n) {block : List α} (hBlock : block.length = n) (l : List α) :
    remainder n (block ++ l) = remainder n l := by
  rw [remainder, List.length_append, hBlock, Nat.add_div_left _ hn, Nat.succ_mul, Nat.add_comm,
    ← List.drop_drop, List.drop_left' hBlock, remainder]

/-- Induction over the full blocks, from the front. -/
@[elab_as_elim]
theorem blockInduction {n : Nat} (hn : 0 < n) {motive : List α → Prop}
    (short : ∀ l, l.length < n → motive l)
    (step : ∀ block l, block.length = n → motive l → motive (block ++ l)) (l : List α) : motive l := by
  induction hLength : l.length using Nat.strong_induction_on generalizing l with
  | h k ih =>
    obtain hShort | hLong := Nat.lt_or_ge l.length n
    · exact short l hShort
    · have hRest := ih (l.drop n).length (by rw [List.length_drop]; omega) (l.drop n) rfl
      rw [← List.take_append_drop n l]
      exact step (l.take n) (l.drop n) (List.length_take_of_le hLong) hRest

theorem length_of_mem_blocks {n : Nat} (hn : 0 < n) {l block : List α} (h : block ∈ blocks n l) : block.length = n := by
  induction l using blockInduction hn with
  | short l hShort =>
    rw [blocks_of_lt hShort] at h
    cases h
  | step first l hFirst ih =>
    rw [blocks_append hn hFirst] at h
    obtain rfl | h := List.mem_cons.mp h
    · exact hFirst
    · exact ih h

theorem mem_of_mem_blocks {n : Nat} {l block : List α} (h : block ∈ blocks n l) {x : α} (hx : x ∈ block) : x ∈ l := by
  obtain ⟨i, _, rfl⟩ := List.mem_map.mp h
  exact List.mem_of_mem_drop (List.mem_of_mem_take hx)

end Lib.Blocks
