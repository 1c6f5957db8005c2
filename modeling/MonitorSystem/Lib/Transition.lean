import Mathlib.Data.List.Basic
import Mathlib.Logic.Function.Basic
import Mathlib.Tactic.Common

/-! # Labelled transition systems with partial steps

A label carries every choice of the environment, so one step is a partial
function and a run is a list of labels. Runs can be restricted to those whose
steps all meet a condition on the state before the step and the label.
-/

namespace Lib.Transition

universe u v

structure System (σ : Type u) (ι : Type v) where
  start : σ → Prop
  step : σ → ι → Option σ

variable {σ : Type u} {ι : Type v}

def System.run (S : System σ ι) (s : σ) (labels : List ι) : Option σ := labels.foldlM S.step s

/-- States reached by runs all of whose steps meet the condition. -/
inductive ReachableUnder (S : System σ ι) (C : σ → ι → Prop) : σ → Prop
  | start {s : σ} (h : S.start s) : ReachableUnder S C s
  | step {s t : σ} {a : ι} (h : ReachableUnder S C s) (hC : C s a) (hStep : S.step s a = some t) :
      ReachableUnder S C t

def Reachable (S : System σ ι) : σ → Prop := ReachableUnder S fun _ _ => True

/-- The invariant rule: what holds at the start and survives every step that
meets the condition holds in every state such runs reach. -/
theorem ReachableUnder.invariant {S : System σ ι} {C : σ → ι → Prop} {I : σ → Prop}
    (hStart : ∀ s, S.start s → I s)
    (hStep : ∀ s a t, I s → C s a → S.step s a = some t → I t)
    {s : σ} (h : ReachableUnder S C s) : I s := by
  induction h with
  | start h => exact hStart _ h
  | step _ hC hs ih => exact hStep _ _ _ ih hC hs

theorem Reachable.invariant {S : System σ ι} {I : σ → Prop}
    (hStart : ∀ s, S.start s → I s) (hStep : ∀ s a t, I s → S.step s a = some t → I t)
    {s : σ} (h : Reachable S s) : I s :=
  ReachableUnder.invariant hStart (fun s a t hI _ => hStep s a t hI) h

theorem run_cons {S : System σ ι} (s : σ) (a : ι) (labels : List ι) :
    S.run s (a :: labels) = (S.step s a).bind fun t => S.run t labels := rfl

theorem run_append {S : System σ ι} (s : σ) (labels rest : List ι) :
    S.run s (labels ++ rest) = (S.run s labels).bind fun t => S.run t rest := List.foldlM_append ..

/-- All the labels are enabled in turn and every step meets the condition. -/
def System.Meets (S : System σ ι) (C : σ → ι → Prop) : σ → List ι → Prop
  | _, [] => True
  | s, a :: labels => C s a ∧ match S.step s a with
    | some t => S.Meets C t labels
    | none => False

instance System.decidableMeets (S : System σ ι) (C : σ → ι → Prop) [∀ s a, Decidable (C s a)] :
    ∀ s labels, Decidable (S.Meets C s labels)
  | _, [] => isTrue trivial
  | s, a :: labels =>
    match hStep : S.step s a with
    | some t =>
      have := S.decidableMeets C t labels
      decidable_of_iff (C s a ∧ S.Meets C t labels) (by rw [System.Meets, hStep])
    | none => isFalse (by rw [System.Meets, hStep]; exact And.right)

theorem System.Meets.cons {S : System σ ι} {C : σ → ι → Prop} {s t : σ} {a : ι} {labels : List ι}
    (hC : C s a) (hStep : S.step s a = some t) (h : S.Meets C t labels) :
    S.Meets C s (a :: labels) := by
  rw [System.Meets, hStep]
  exact ⟨hC, h⟩

theorem System.Meets.of_forall {S : System σ ι} {C : σ → ι → Prop} {labels : List ι} {s t : σ}
    (hAll : ∀ s, ∀ a ∈ labels, C s a) (hRun : S.run s labels = some t) : S.Meets C s labels := by
  induction labels generalizing s with
  | nil => trivial
  | cons a labels ih =>
    rw [run_cons] at hRun
    obtain ⟨next, hStep, hRest⟩ := Option.bind_eq_some_iff.mp hRun
    have hTail := ih (fun s b hb => hAll s b (List.mem_cons_of_mem a hb)) hRest
    exact .cons (hAll s a List.mem_cons_self) hStep hTail

theorem System.Meets.of_run {S : System σ ι} {labels : List ι} {s t : σ}
    (hRun : S.run s labels = some t) : S.Meets (fun _ _ => True) s labels :=
  .of_forall (fun _ _ _ => trivial) hRun

theorem ReachableUnder.of_run {S : System σ ι} {C : σ → ι → Prop} {labels : List ι} {s t : σ}
    (h : ReachableUnder S C s) (hMeets : S.Meets C s labels) (hRun : S.run s labels = some t) :
    ReachableUnder S C t := by
  induction labels generalizing s with
  | nil =>
    cases hRun
    exact h
  | cons a labels ih =>
    rw [run_cons] at hRun
    obtain ⟨next, hStep, hRest⟩ := Option.bind_eq_some_iff.mp hRun
    rw [System.Meets, hStep] at hMeets
    exact ih (.step h hMeets.1 hStep) hMeets.2 hRest

theorem Reachable.of_run {S : System σ ι} {labels : List ι} {s t : σ} (h : Reachable S s)
    (hRun : S.run s labels = some t) : Reachable S t :=
  ReachableUnder.of_run h (.of_run hRun) hRun

def System.Along (S : System σ ι) (P : σ → Prop) : σ → List ι → Prop
  | s, [] => P s
  | s, a :: labels => P s ∧ ∀ t, S.step s a = some t → S.Along P t labels

theorem System.Along.here {S : System σ ι} {P : σ → Prop} {s : σ} {labels : List ι} (h : S.Along P s labels) : P s := by
  cases labels with
  | nil => exact h
  | cons a labels => exact h.1

/-- A condition is exact when every step that meets it keeps the invariant and
every other step leaves the property. -/
theorem meets_iff_along {S : System σ ι} {C : σ → ι → Prop} {I P : σ → Prop} (hHolds : ∀ s, I s → P s)
    (hKeeps : ∀ s a t, I s → C s a → S.step s a = some t → I t)
    (hLeaves : ∀ s a t, I s → ¬ C s a → S.step s a = some t → ¬ P t)
    {labels : List ι} {s t : σ} (hStart : I s) (hRun : S.run s labels = some t) :
    S.Meets C s labels ↔ S.Along P s labels := by
  induction labels generalizing s with
  | nil =>
    constructor
    · intro _
      exact hHolds s hStart
    · intro _
      trivial
  | cons a labels ih =>
    rw [run_cons] at hRun
    obtain ⟨next, hStep, hRest⟩ := Option.bind_eq_some_iff.mp hRun
    rw [System.Meets, hStep, System.Along]
    constructor
    · rintro ⟨hC, hMeets⟩
      refine ⟨hHolds s hStart, ?_⟩
      intro next' hNext
      cases hStep.symm.trans hNext
      exact (ih (hKeeps s a next hStart hC hStep) hRest).mp hMeets
    · rintro ⟨_, hAlong⟩
      have hNext := hAlong next hStep
      by_cases hC : C s a
      · exact ⟨hC, (ih (hKeeps s a next hStart hC hStep) hRest).mpr hNext⟩
      · exact absurd hNext.here (hLeaves s a next hStart hC hStep)

theorem update_cases {α : Type u} {β : Type v} [DecidableEq α] {f : α → Option β} {a b : α} {x : Option β} {y : β}
    (h : Function.update f a x b = some y) : (b = a ∧ x = some y) ∨ (b ≠ a ∧ f b = some y) := by
  obtain rfl | hNe := eq_or_ne b a
  · rw [Function.update_self] at h
    exact .inl ⟨rfl, h⟩
  · rw [Function.update_of_ne hNe] at h
    exact .inr ⟨hNe, h⟩

section

variable {β : Type*} {S : System σ ι} {s : σ} {labels : List ι} {f : σ → β} {b : β}

/-- A run is known by what is observed of the state it ends in. -/
theorem ReachableUnder.of_observed {C : σ → ι → Prop} (hStart : S.start s) (hMeets : S.Meets C s labels)
    (hRun : (S.run s labels).map f = some b) : ∃ t, ReachableUnder S C t ∧ f t = b := by
  obtain ⟨t, hRun, hObserved⟩ := Option.map_eq_some_iff.mp hRun
  exact ⟨t, .of_run (.start hStart) hMeets hRun, hObserved⟩

theorem Reachable.of_observed (hStart : S.start s) (hRun : (S.run s labels).map f = some b) :
    ∃ t, Reachable S t ∧ f t = b := by
  obtain ⟨t, hRun, hObserved⟩ := Option.map_eq_some_iff.mp hRun
  exact ⟨t, .of_run (.start hStart) hRun, hObserved⟩

end

end Lib.Transition
