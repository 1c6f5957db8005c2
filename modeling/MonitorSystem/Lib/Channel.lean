import Mathlib.Algebra.BigOperators.Group.Finset.Piecewise
import Mathlib.Data.Multiset.Filter
import Mathlib.Tactic.Common

/-! # Logs of tagged items

A log lists the items of several channels in one order; each channel has its
own part of the log. The parts decide which items a log has, and how often.
-/

namespace Lib.Channel

variable {κ α β : Type*} [DecidableEq κ]

def on (k : κ) (log : List (κ × α)) : List α := log.filterMap fun e => if e.1 = k then some e.2 else none

@[simp] theorem on_nil (k : κ) : on k ([] : List (κ × α)) = [] := rfl

theorem on_append (k : κ) (log rest : List (κ × α)) : on k (log ++ rest) = on k log ++ on k rest :=
  List.filterMap_append

@[simp] theorem on_concat_self (k : κ) (log : List (κ × α)) (x : α) : on k (log ++ [(k, x)]) = on k log ++ [x] := by
  simp [on]

theorem on_concat_ne {k k' : κ} (h : k' ≠ k) (log : List (κ × α)) (x : α) :
    on k (log ++ [(k', x)]) = on k log := by
  simp [on, h]

theorem on_cons (k k' : κ) (x : α) (log : List (κ × α)) :
    on k ((k', x) :: log) = if k' = k then x :: on k log else on k log := by
  by_cases h : k' = k <;> simp [on, h]

theorem on_filterMap (f : α → Option β) (k : κ) (log : List (κ × α)) :
    on k (log.filterMap fun e => (f e.2).map (Prod.mk e.1)) = (on k log).filterMap f := by
  induction log with
  | nil => rfl
  | cons e log ih =>
    obtain ⟨k', x⟩ := e
    rw [List.filterMap_cons, on_cons]
    cases hx : f x with
    | none =>
      simp only [Option.map_none]
      rw [ih]
      split <;> simp [hx]
    | some y =>
      simp only [Option.map_some]
      rw [on_cons, ih]
      split <;> simp [hx]

theorem count_on [DecidableEq α] (k : κ) (x : α) (log : List (κ × α)) : (on k log).count x = log.count (k, x) := by
  induction log with
  | nil => rfl
  | cons e log ih =>
    obtain ⟨k', y⟩ := e
    rw [on_cons, List.count_cons, ← ih]
    split
    · rename_i hSame
      subst hSame
      simp [List.count_cons]
    · rename_i hOther
      simp [hOther]

theorem perm_of_on {log log' : List (κ × α)} (h : ∀ k, (on k log).Perm (on k log')) : log.Perm log' := by
  classical
  rw [List.perm_iff_count]
  rintro ⟨k, x⟩
  rw [← count_on, ← count_on, (h k).count_eq]

theorem subperm_of_on {log log' : List (κ × α)} (h : ∀ k, (on k log).Subperm (on k log')) : log.Subperm log' := by
  classical
  rw [List.subperm_ext_iff]
  rintro ⟨k, x⟩ _
  rw [← count_on, ← count_on]
  exact (h k).count_le x

theorem sum_on [Fintype κ] (log : List (κ × α)) :
    ∑ k, (on k log : Multiset α) = (log.map Prod.snd : List α) := by
  induction log with
  | nil => simp
  | cons e log ih =>
    obtain ⟨key, x⟩ := e
    have hCons : ∀ k, (on k ((key, x) :: log) : Multiset α) = (if key = k then {x} else 0) + (on k log : Multiset α) := by
      intro k
      rw [on_cons]
      split
      · rw [Multiset.singleton_add, Multiset.cons_coe]
      · rw [zero_add]
    rw [Finset.sum_congr rfl fun k _ => hCons k, Finset.sum_add_distrib, Finset.sum_ite_eq, if_pos (Finset.mem_univ key),
      ih, List.map_cons, Multiset.singleton_add, Multiset.cons_coe]

/-- The channels one after the other are the log in another order. -/
theorem flatMap_on_perm {keys : List κ} (hNodup : keys.Nodup) {log : List (κ × α)} (hKeys : ∀ e ∈ log, e.1 ∈ keys) :
    (keys.flatMap fun k => on k log).Perm (log.map Prod.snd) := by
  induction log with
  | nil => simp
  | cons e log ih =>
    obtain ⟨key, x⟩ := e
    have hTail := ih fun e he => hKeys e (List.mem_cons_of_mem _ he)
    obtain ⟨before, behind, rfl⟩ := List.append_of_mem (hKeys (key, x) List.mem_cons_self)
    obtain ⟨_, hBehind, hDisjoint⟩ := List.nodup_append.mp hNodup
    have hOthers : ∀ keys : List κ, key ∉ keys →
        (keys.flatMap fun k => on k ((key, x) :: log)) = keys.flatMap fun k => on k log := by
      intro keys hNot
      apply List.flatMap_congr
      intro k hk
      rw [on_cons, if_neg]
      rintro rfl
      exact hNot hk
    rw [List.flatMap_append, List.flatMap_cons, hOthers before fun hMem => hDisjoint key hMem key List.mem_cons_self rfl,
      hOthers behind (List.nodup_cons.mp hBehind).1, on_cons, if_pos rfl, List.cons_append, List.map_cons]
    rw [List.flatMap_append, List.flatMap_cons] at hTail
    exact List.perm_middle.trans (hTail.cons x)

theorem filterMap_subperm_of_on {γ : Type*} {f : α → Option γ} {g : β → Option γ} {log : List (κ × α)}
    {log' : List (κ × β)} (h : ∀ k, ((on k log).filterMap f).Subperm ((on k log').filterMap g)) :
    (log.filterMap fun e => f e.2).Subperm (log'.filterMap fun e => g e.2) := by
  have hSub : (log.filterMap fun e => (f e.2).map (Prod.mk e.1)).Subperm
      (log'.filterMap fun e => (g e.2).map (Prod.mk e.1)) := by
    apply subperm_of_on
    intro k
    rw [on_filterMap, on_filterMap]
    exact h k
  have hItems := Multiset.map_le_map (f := Prod.snd) (Multiset.coe_le.mpr hSub)
  simpa [List.map_filterMap, Function.comp_def] using hItems

/-- What the channels of two logs amount to decides what the logs amount to. -/
theorem filterMap_perm_of_on {γ : Type*} {f : α → Option γ} {g : β → Option γ} {log : List (κ × α)}
    {log' : List (κ × β)} (h : ∀ k, (on k log).filterMap f = (on k log').filterMap g) :
    (log.filterMap fun e => f e.2).Perm (log'.filterMap fun e => g e.2) := by
  have hPerm : (log.filterMap fun e => (f e.2).map (Prod.mk e.1)).Perm
      (log'.filterMap fun e => (g e.2).map (Prod.mk e.1)) := by
    apply perm_of_on
    intro k
    rw [on_filterMap, on_filterMap, h k]
  have hItems := hPerm.map Prod.snd
  simpa [List.map_filterMap, Function.comp_def] using hItems

end Lib.Channel
