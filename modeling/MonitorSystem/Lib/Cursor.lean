import Mathlib.Data.List.Basic
import Mathlib.Order.Lattice
import Mathlib.Tactic.Common

/-! # Iterators of an ordered map

A range-based for over an ordered map: the iterator starts on the least key and
goes to the next greater one. An iterator whose element has left the map can
neither be read nor advanced.
-/

namespace Lib.Cursor

universe u v

inductive Outcome (σ : Type u)
  | done (s : σ)
  | undefined
  | unfinished

variable {σ : Type u} {κ : Type v} [LinearOrder κ]

def advance (keys : σ → List κ) (s : σ) (k : κ) : Option (Option κ) :=
  if k ∈ keys s then some ((keys s).find? fun k' => k < k') else none

def loop (keys : σ → List κ) (body : σ → κ → Option σ) : Nat → σ → Option κ → Outcome σ
  | _, s, none => .done s
  | 0, _, some _ => .unfinished
  | fuel + 1, s, some k =>
    if k ∈ keys s then
      match body s k with
      | none => .undefined
      | some t =>
        match advance keys t k with
        | none => .undefined
        | some next => loop keys body fuel t next
    else .undefined

def rangeFor (keys : σ → List κ) (body : σ → κ → Option σ) (fuel : Nat) (s : σ) : Outcome σ :=
  loop keys body fuel s (keys s).head?

variable {keys : σ → List κ} {body : σ → κ → Option σ} {f : σ → κ → σ}

theorem advance_eq {s : σ} {before after : List κ} {k : κ} (hKeys : keys s = before ++ k :: after)
    (hSorted : (keys s).Pairwise (· < ·)) : advance keys s k = some after.head? := by
  rw [hKeys, List.pairwise_append] at hSorted
  obtain ⟨_, hTail, hApart⟩ := hSorted
  have hBefore : before.find? (fun k' => decide (k < k')) = none := by
    rw [List.find?_eq_none]
    intro x hx
    have hLt := hApart x hx k List.mem_cons_self
    simpa using hLt.le
  have hMem : k ∈ keys s := by
    rw [hKeys]
    simp
  rw [advance, if_pos hMem, hKeys, List.find?_append, hBefore, Option.none_or, List.find?_cons]
  simp only [lt_self_iff_false, decide_false]
  cases after with
  | nil => rfl
  | cons next rest =>
    have hLt : k < next := (List.pairwise_cons.mp hTail).1 next List.mem_cons_self
    simp [hLt]

theorem advance_erased {s : σ} {k : κ} (h : k ∉ keys s) : advance keys s k = none := if_neg h

theorem loop_end (fuel : Nat) (s : σ) : loop keys body fuel s none = .done s := by
  cases fuel with
  | zero => rfl
  | succ fuel => rfl

/-- As long as the body keeps the keys, the loop goes through them in order. The
condition speaks of the keys that are still to be visited. -/
theorem loop_kept {I : List κ → σ → Prop}
    (hStep : ∀ k rest s, I (k :: rest) s → body s k = some (f s k) ∧ I rest (f s k) ∧ keys (f s k) = keys s)
    {before visited after : List κ} {s : σ} (hKeys : keys s = before ++ (visited ++ after))
    (hSorted : (keys s).Pairwise (· < ·)) (h : I visited s) (fuel : Nat) :
    loop keys body (visited.length + fuel) s (visited ++ after).head? =
        loop keys body fuel (visited.foldl f s) after.head? ∧
      I [] (visited.foldl f s) ∧ keys (visited.foldl f s) = keys s := by
  induction visited generalizing before s with
  | nil => exact ⟨by rw [List.length_nil, Nat.zero_add]; rfl, h, rfl⟩
  | cons k visited ih =>
    obtain ⟨hBody, hNext, hSame⟩ := hStep k visited s h
    have hMem : k ∈ keys s := by
      rw [hKeys]
      simp
    have hAfter : keys (f s k) = (before ++ [k]) ++ (visited ++ after) := by
      rw [hSame, hKeys]
      simp
    have hAdvance : advance keys (f s k) k = some (visited ++ after).head? := by
      apply advance_eq
      · rw [hSame]
        exact hKeys
      · rw [hSame]
        exact hSorted
    obtain ⟨hLoop, hRest, hKept⟩ := ih hAfter (by rw [hSame]; exact hSorted) hNext
    refine ⟨?_, hRest, hKept.trans hSame⟩
    rw [List.length_cons, Nat.add_right_comm]
    change loop keys body _ s (some k) = _
    rw [loop, if_pos hMem, hBody]
    dsimp only
    rw [hAdvance]
    exact hLoop

theorem rangeFor_kept {I : List κ → σ → Prop}
    (hStep : ∀ k rest s, I (k :: rest) s → body s k = some (f s k) ∧ I rest (f s k) ∧ keys (f s k) = keys s)
    {s : σ} (hSorted : (keys s).Pairwise (· < ·)) (h : I (keys s) s) {fuel : Nat} (hFuel : (keys s).length ≤ fuel) :
    rangeFor keys body fuel s = .done ((keys s).foldl f s) := by
  obtain ⟨spare, rfl⟩ := Nat.exists_eq_add_of_le hFuel
  have hKeys : keys s = [] ++ (keys s ++ []) := by simp
  obtain ⟨hLoop, _⟩ := loop_kept hStep hKeys hSorted h spare
  rw [List.append_nil] at hLoop
  rw [rangeFor, hLoop]
  exact loop_end spare _

/-- A visit that goes wrong or erases its own element ends the loop in undefined behaviour. -/
theorem rangeFor_erased {I : List κ → σ → Prop}
    (hStep : ∀ k rest s, I (k :: rest) s → body s k = some (f s k) ∧ I rest (f s k) ∧ keys (f s k) = keys s)
    {s : σ} {before after : List κ} {k : κ} (hKeys : keys s = before ++ k :: after)
    (hSorted : (keys s).Pairwise (· < ·)) (h : I before s)
    (hErased : ∀ t, body (before.foldl f s) k = some t → k ∉ keys t)
    {fuel : Nat} (hFuel : (keys s).length ≤ fuel) : rangeFor keys body fuel s = .undefined := by
  have hLength : before.length + 1 ≤ fuel := by
    rw [hKeys, List.length_append, List.length_cons] at hFuel
    omega
  obtain ⟨spare, rfl⟩ := Nat.exists_eq_add_of_le hLength
  have hSplit : keys s = [] ++ (before ++ k :: after) := hKeys
  obtain ⟨hLoop, _, hKept⟩ := loop_kept hStep hSplit hSorted h (spare + 1)
  have hMem : k ∈ keys (before.foldl f s) := by
    rw [hKept, hKeys]
    simp
  rw [rangeFor, hKeys, Nat.add_assoc, Nat.add_comm 1 spare, hLoop]
  change loop keys body (spare + 1) _ (some k) = _
  rw [loop, if_pos hMem]
  cases hBody : body (before.foldl f s) k with
  | none => rfl
  | some t =>
    dsimp only
    rw [advance_erased (hErased t hBody)]

end Lib.Cursor
