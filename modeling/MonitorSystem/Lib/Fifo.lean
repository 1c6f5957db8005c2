import Mathlib.Data.List.Basic
import Mathlib.Tactic.Common

/-! # The first-in first-out queue of bounded capacity -/

namespace Lib

universe u

structure Fifo (α : Type u) (capacity : Nat) where
  items : List α
  bound : items.length ≤ capacity

namespace Fifo

variable {α : Type u} {capacity : Nat}

def empty : Fifo α capacity := ⟨[], Nat.zero_le capacity⟩

def put (q : Fifo α capacity) (x : α) : Option (Fifo α capacity) :=
  if h : q.items.length < capacity then
    some ⟨q.items ++ [x], by
      rw [List.length_append, List.length_singleton]
      exact h⟩
  else none

def take (q : Fifo α capacity) : Option (α × Fifo α capacity) :=
  match q with
  | ⟨[], _⟩ => none
  | ⟨x :: rest, h⟩ => some (x, ⟨rest, Nat.le_of_succ_le h⟩)

@[ext] theorem ext {q q' : Fifo α capacity} (h : q.items = q'.items) : q = q' := by
  cases q
  cases q'
  cases h
  rfl

theorem put_full {q : Fifo α capacity} (h : q.items.length = capacity) (x : α) : q.put x = none :=
  dif_neg (by omega)

theorem put_free {q : Fifo α capacity} (h : q.items.length < capacity) (x : α) :
    ∃ q', q.put x = some q' ∧ q'.items = q.items ++ [x] := ⟨_, dif_pos h, rfl⟩

theorem take_nil {q : Fifo α capacity} (h : q.items = []) : q.take = none := by
  obtain ⟨items, hBound⟩ := q
  cases h
  rfl

theorem take_cons {q : Fifo α capacity} {x : α} {rest : List α} (h : q.items = x :: rest) :
    ∃ q', q.take = some (x, q') ∧ q'.items = rest := by
  obtain ⟨items, hBound⟩ := q
  cases h
  exact ⟨_, rfl, rfl⟩

end Fifo

end Lib
