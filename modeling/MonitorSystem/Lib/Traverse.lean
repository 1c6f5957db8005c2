import Mathlib.Data.List.Basic
import Mathlib.Tactic.Common

/-! # Loops over the keys of a map

A loop visits keys one after the other. When the keys differ, what is observed
at one key changes at its own visit only.
-/

namespace Lib.Traverse

universe u v

variable {σ : Type u} {κ : Type v} {f : σ → κ → σ}

theorem foldl_invariant {I : σ → Prop} (hStep : ∀ s k, I s → I (f s k)) {ks : List κ} {s : σ} (h : I s) :
    I (ks.foldl f s) := by
  induction ks generalizing s with
  | nil => exact h
  | cons k ks ih => exact ih (hStep s k h)

theorem foldl_others {I : σ → Prop} {k : κ} (hOther : ∀ s k', k' ≠ k → I s → I (f s k')) {ks : List κ}
    (hFresh : k ∉ ks) {s : σ} (h : I s) : I (ks.foldl f s) := by
  induction ks generalizing s with
  | nil => exact h
  | cons k' ks ih =>
    rw [List.mem_cons, not_or] at hFresh
    exact ih hFresh.2 (hOther s k' (Ne.symm hFresh.1) h)

/-- The visit rule: before and after its own visit the key is left alone. -/
theorem foldl_visit {before after : σ → Prop} {k : κ}
    (hBefore : ∀ s k', k' ≠ k → before s → before (f s k')) (hVisit : ∀ s, before s → after (f s k))
    (hAfter : ∀ s k', k' ≠ k → after s → after (f s k')) {ks : List κ} (hNodup : ks.Nodup) (hMem : k ∈ ks)
    {s : σ} (h : before s) : after (ks.foldl f s) := by
  obtain ⟨pre, post, rfl⟩ := List.append_of_mem hMem
  have hApart := List.nodup_append.mp hNodup
  have hPre : k ∉ pre := by
    intro hIn
    exact hApart.2.2 k hIn k List.mem_cons_self rfl
  have hPost : k ∉ post := (List.nodup_cons.mp hApart.2.1).1
  rw [List.foldl_append, List.foldl_cons]
  exact foldl_others hAfter hPost (hVisit _ (foldl_others hBefore hPre h))

end Lib.Traverse
