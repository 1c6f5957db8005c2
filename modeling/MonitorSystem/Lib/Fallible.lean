import Mathlib.Tactic.Common

/-! # Steps that may be refused or undefined

A step has a result, reports a failure, or does what the language leaves
undefined. A specification says what holds of a result and what excuses a
failure; nothing excuses the last.
-/

namespace Lib.Fallible

universe u v

inductive Outcome (α : Type u)
  | ok (a : α)
  | refused
  | undefined

namespace Outcome

variable {α : Type u} {β : Type u}

def bind (o : Outcome α) (f : α → Outcome β) : Outcome β :=
  match o with
  | .ok a => f a
  | .refused => .refused
  | .undefined => .undefined

instance : Monad Outcome where
  pure := .ok
  bind := Outcome.bind

/-- A result has the property, and a failure has the excuse. -/
def Meets (excuse : Prop) (post : α → Prop) : Outcome α → Prop
  | .ok a => post a
  | .refused => excuse
  | .undefined => False

variable {excuse : Prop} {o : Outcome α} {f : α → Outcome β} {post post' : α → Prop} {after : β → Prop}

theorem Meets.bind (h : o.Meets excuse post) (hNext : ∀ a, post a → (f a).Meets excuse after) :
    (o >>= f).Meets excuse after := by
  cases o with
  | ok a => exact hNext a h
  | refused => exact h
  | undefined => exact h

theorem Meets.pure {a : α} (h : post a) : (Pure.pure a : Outcome α).Meets excuse post := h

theorem Meets.mono (h : o.Meets excuse post) (hPost : ∀ a, post a → post' a) : o.Meets excuse post' := by
  cases o with
  | ok a => exact hPost a h
  | refused => exact h
  | undefined => exact h

theorem Meets.excused {excuse' : Prop} (h : o.Meets excuse post) (hExcuse : excuse → excuse') :
    o.Meets excuse' post := by
  cases o with
  | ok a => exact h
  | refused => exact hExcuse h
  | undefined => exact h

/-- Without an excuse there is a result. -/
theorem Meets.result (h : o.Meets excuse post) (hNone : ¬ excuse) : ∃ a, o = .ok a ∧ post a := by
  cases o with
  | ok a => exact ⟨a, rfl, h⟩
  | refused => exact absurd h hNone
  | undefined => exact h.elim

theorem Meets.defined (h : o.Meets excuse post) : o ≠ .undefined := by
  rintro rfl
  exact h

end Outcome

end Lib.Fallible
