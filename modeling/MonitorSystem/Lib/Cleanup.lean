import Mathlib.Tactic.Common

/-! # Steps that fail and are cleaned up

A step changes a state and has a result, or fails and leaves a state for the
clean-up, or does what the language leaves undefined. A specification says what
holds after a result and what after a failure; there is none for the last.
-/

namespace Lib.Cleanup

/-- Without a value the step is undefined, without a result in it the step has failed. -/
def Step (σ α : Type) := σ → Option (Option α × σ)

namespace Step

variable {σ α β : Type}

def fail : Step σ α := fun s => some (none, s)

def undefined : Step σ α := fun _ => none

def bind (m : Step σ α) (f : α → Step σ β) : Step σ β := fun s =>
  match m s with
  | some (some a, t) => f a t
  | some (none, t) => some (none, t)
  | none => none

instance : Monad (Step σ) where
  pure a := fun s => some (some a, s)
  bind := bind

/-- A failure goes on with the clean-up, and stays one. -/
def onFail (m : Step σ α) (clean : Step σ Unit) : Step σ α := fun s =>
  match m s with
  | some (some a, t) => some (some a, t)
  | some (none, t) => (clean t).map fun r => (none, r.2)
  | none => none

def attempt (m : Step σ α) : Step σ (Option α) := fun s =>
  match m s with
  | some (some a, t) => some (some (some a), t)
  | some (none, t) => some (some none, t)
  | none => none

def Meets (m : Step σ α) (s : σ) (post : α → σ → Prop) (failed : σ → Prop) : Prop :=
  match m s with
  | some (some a, t) => post a t
  | some (none, t) => failed t
  | none => False

variable {m : Step σ α} {s : σ} {post post' : α → σ → Prop} {failed failed' : σ → Prop}

theorem bind_of_some {f : α → Step σ β} {a : α} {t : σ} (h : m s = some (some a, t)) : (m >>= f) s = f a t := by
  have hBind : (m >>= f) s = Step.bind m f s := rfl
  rw [hBind, Step.bind, h]

theorem Meets.bind {f : α → Step σ β} {after : β → σ → Prop} (h : m.Meets s post failed)
    (hNext : ∀ a t, post a t → (f a).Meets t after failed) : (m >>= f).Meets s after failed := by
  have hBind : (m >>= f) s = Step.bind m f s := rfl
  rw [Meets] at h
  rw [Meets, hBind, Step.bind]
  split at h
  · exact hNext _ _ h
  · exact h
  · exact h

/-- Where the result of the first step is known. -/
theorem Meets.next {f : α → Step σ β} {after : β → σ → Prop} {a : α} {t : σ} (h : m s = some (some a, t))
    (hNext : (f a).Meets t after failed) : (m >>= f).Meets s after failed := by
  rwa [Meets, bind_of_some h]

theorem Meets.mono (h : m.Meets s post failed) (hPost : ∀ a t, post a t → post' a t)
    (hFailed : ∀ t, failed t → failed' t) :
    m.Meets s post' failed' := by
  rw [Meets] at h ⊢
  split at h
  · exact hPost _ _ h
  · exact hFailed _ h
  · exact h

theorem Meets.pure {a : α} (h : post a s) : (Pure.pure a : Step σ α).Meets s post failed := h

theorem Meets.fail (h : failed s) : (fail : Step σ α).Meets s post failed := h

theorem Meets.onFail {clean : Step σ Unit} (h : m.Meets s post failed)
    (hClean : ∀ t, failed t → clean.Meets t (fun _ => failed') failed') : (m.onFail clean).Meets s post failed' := by
  rw [Meets] at h
  rw [Meets, Step.onFail]
  split at h
  · exact h
  · rename_i t hEq
    have hClean := hClean t h
    rw [Meets] at hClean
    split at hClean
    · rename_i hDone
      rw [hDone]
      exact hClean
    · rename_i hDone
      rw [hDone]
      exact hClean
    · exact hClean.elim
  · exact h

theorem Meets.attempt {after : Option α → σ → Prop} {failed' : σ → Prop} (h : m.Meets s post failed)
    (hPost : ∀ a t, post a t → after (some a) t) (hFailed : ∀ t, failed t → after none t) :
    m.attempt.Meets s after failed' := by
  rw [Meets] at h
  rw [Meets, Step.attempt]
  split at h
  · exact hPost _ _ h
  · exact hFailed _ h
  · exact h

theorem Meets.defined (h : m.Meets s post failed) : m s ≠ none := by
  intro hNone
  rw [Meets, hNone] at h
  exact h

/-- A step that does not fail has a result. -/
theorem Meets.result (h : m.Meets s post fun _ => False) : ∃ a t, m s = some (some a, t) ∧ post a t := by
  rw [Meets] at h
  split at h
  · rename_i a t hRun
    exact ⟨a, t, hRun, h⟩
  · exact h.elim
  · exact h.elim

theorem Meets.of_some {a : α} {t : σ} (h : m.Meets s post failed) (hRun : m s = some (some a, t)) : post a t := by
  rwa [Meets, hRun] at h

end Step

end Lib.Cleanup
