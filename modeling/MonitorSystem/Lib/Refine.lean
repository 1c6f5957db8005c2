import Mathlib.Data.Option.Basic
import Mathlib.Tactic.Common

/-! # Machines that reply, and simulation between two of them

A machine takes an operation only when it is enabled. A simulation matches
the enabled operations, the replies and the states of two machines step by
step; runs are then matched as a whole.
-/

namespace Lib.Refine

universe u v w x

structure Machine (σ : Type u) (ι : Type v) (ω : Type w) where
  step : σ → ι → Option (σ × ω)

variable {σ : Type u} {τ : Type x} {ι : Type v} {ω : Type w}

def Machine.run (M : Machine σ ι ω) : σ → List ι → Option (σ × List ω)
  | s, [] => some (s, [])
  | s, op :: ops => (M.step s op).bind fun r => (M.run r.1 ops).map fun rest => (rest.1, r.2 :: rest.2)

theorem Machine.of_run_cons {M : Machine σ ι ω} {s t : σ} {op : ι} {ops : List ι} {replies : List ω}
    (h : M.run s (op :: ops) = some (t, replies)) :
    ∃ next reply rest, M.step s op = some (next, reply) ∧ M.run next ops = some (t, rest) ∧ replies = reply :: rest := by
  obtain ⟨⟨next, reply⟩, hStep, hTail⟩ := Option.bind_eq_some_iff.mp h
  obtain ⟨⟨last, rest⟩, hRest, hEq⟩ := Option.map_eq_some_iff.mp hTail
  cases hEq
  exact ⟨next, reply, rest, hStep, hRest, rfl⟩

theorem Machine.run_concat {M : Machine σ ι ω} {s t u : σ} {ops : List ι} {replies : List ω} {op : ι} {reply : ω}
    (hRun : M.run s ops = some (t, replies)) (hStep : M.step t op = some (u, reply)) :
    M.run s (ops ++ [op]) = some (u, replies ++ [reply]) := by
  induction ops generalizing s replies with
  | nil =>
    cases hRun
    rw [List.nil_append, Machine.run, hStep]
    rfl
  | cons first ops ih =>
    obtain ⟨next, reply', rest, hFirst, hRest, rfl⟩ := Machine.of_run_cons hRun
    rw [List.cons_append, Machine.run, hFirst, Option.bind_some, ih hRest]
    rfl

/-- Both are disabled, or both go on with the same reply to related states. -/
def Matched {ρ : Type w} (R : σ → τ → Prop) : Option (σ × ρ) → Option (τ × ρ) → Prop :=
  Option.Rel fun c a => c.2 = a.2 ∧ R c.1 a.1

def Simulates (C : Machine σ ι ω) (A : Machine τ ι ω) (R : σ → τ → Prop) : Prop :=
  ∀ s t op, R s t → Matched R (C.step s op) (A.step t op)

theorem Simulates.run {C : Machine σ ι ω} {A : Machine τ ι ω} {R : σ → τ → Prop} (h : Simulates C A R)
    (ops : List ι) {s : σ} {t : τ} (hR : R s t) : Matched R (C.run s ops) (A.run t ops) := by
  induction ops generalizing s t with
  | nil => exact .some ⟨rfl, hR⟩
  | cons op ops ih =>
    have hStep := h s t op hR
    rw [Machine.run, Machine.run]
    generalize C.step s op = c at hStep
    generalize A.step t op = a at hStep
    cases hStep with
    | none => exact .none
    | @some c a hFirst =>
      obtain ⟨hReply, hNext⟩ := hFirst
      have hRest := ih hNext
      simp only [Option.bind_some]
      generalize C.run c.1 ops = c' at hRest
      generalize A.run a.1 ops = a' at hRest
      cases hRest with
      | none => exact .none
      | some hRest => exact .some ⟨congrArg₂ List.cons hReply hRest.1, hRest.2⟩

theorem Matched.mono {ρ : Type w} {R R' : σ → τ → Prop} (hMono : ∀ s t, R s t → R' s t)
    {c : Option (σ × ρ)} {a : Option (τ × ρ)} (h : Matched R c a) : Matched R' c a := by
  cases h with
  | none => exact .none
  | some h => exact .some ⟨h.1, hMono _ _ h.2⟩

end Lib.Refine
