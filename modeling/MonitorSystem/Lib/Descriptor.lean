import Mathlib.Data.Finset.Max
import Mathlib.Data.Finset.Card
import Mathlib.Tactic.Common

/-! # Open descriptors

A new descriptor is the lowest number that is not open. A function that opens
one and then fails leaks it unless it closes it.
-/

namespace Lib.Descriptor

theorem exists_unused (fds : Finset Nat) : (Finset.range (fds.card + 1) \ fds).Nonempty := by
  rw [Finset.sdiff_nonempty]
  intro hAll
  have hCard := Finset.card_le_card hAll
  rw [Finset.card_range] at hCard
  exact Nat.not_succ_le_self _ hCard

def unused (fds : Finset Nat) : Nat := (Finset.range (fds.card + 1) \ fds).min' (exists_unused fds)

theorem unused_notMem (fds : Finset Nat) : unused fds ∉ fds :=
  (Finset.mem_sdiff.mp (Finset.min'_mem _ (exists_unused fds))).2

/-- A function that opens a descriptor, makes some calls that must succeed and
closes nothing: what it returns, none being a failure, and what is open then. -/
def acquire (opened : Bool) (checks : List Bool) (fds : Finset Nat) : Option Nat × Finset Nat :=
  if opened = false then (none, fds)
  else (if checks.all id then some (unused fds) else none, insert (unused fds) fds)

/-- A failure leaves open what was open before. -/
def Unchanged (r : Option Nat × Finset Nat) (fds : Finset Nat) : Prop := r.1 = none → r.2 = fds

theorem insert_unused_ne (fds : Finset Nat) : insert (unused fds) fds ≠ fds :=
  fun h => unused_notMem fds (Finset.insert_eq_self.mp h)

theorem unchanged_acquire_iff {opened : Bool} {checks : List Bool} {fds : Finset Nat} :
    Unchanged (acquire opened checks fds) fds ↔ (opened = true → checks.all id = true) := by
  rw [Unchanged, acquire]
  cases opened with
  | false => exact iff_of_true (fun _ => rfl) (fun h => absurd h Bool.false_ne_true)
  | true =>
    rw [if_neg (by decide)]
    cases checks.all id with
    | true => exact iff_of_true (fun h => absurd h (Option.some_ne_none _)) (fun _ => rfl)
    | false =>
      exact iff_of_false (fun h => insert_unused_ne fds (h rfl)) (fun h => Bool.false_ne_true (h rfl))

end Lib.Descriptor
