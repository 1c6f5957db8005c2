import MonitorSystem.Lib.Refine
import MonitorSystem.Lib.Transition
import Mathlib.Algebra.BigOperators.Group.Finset.Basic
import Mathlib.Algebra.Order.BigOperators.Group.Finset
import Mathlib.Data.Fintype.Card

/-! # Critical sections under one mutex, with a condition variable

Any number of threads call operations on one object. An operation locks the
mutex, executes its statements one by one, and unlocks; a section may begin
with a loop that waits on the condition variable, and a notice may be given
after the unlock. Every statement is a step of its own.
-/

namespace Lib.Mutex

open Lib.Refine Lib.Transition

/-- What a statement of a section does. A thread that waits goes back to the
first statement once it is woken and has the mutex again. -/
inductive Effect (σ κ ω : Type*)
  | goto (s : σ) (k : κ)
  | wait
  | unlock (reply : ω)

inductive Notice
  | silent
  | signal
  | broadcast
deriving DecidableEq

/-- The sections of the operations. They wait at most before their first
assignment, and no section loops for ever. -/
structure Code (σ ι κ ω : Type*) where
  entry : ι → κ
  exec : σ → κ → Effect σ κ ω
  notice : ω → Notice
  rank : κ → Nat
  longest : Nat
  rank_le : ∀ k, rank k ≤ longest
  rank_lt : ∀ {s k s' k'}, exec s k = .goto s' k' → rank k' < rank k
  first : ∀ {s k s' k'}, exec s k = .goto s' k' → exec s' k' ≠ .wait

/-- Where a thread is. A woken thread is again at the lock. -/
inductive Place (ι κ ω : Type*)
  | idle
  | lock (op : ι)
  | inside (op : ι) (k : κ)
  | asleep (op : ι)
  | unlocked (op : ι) (reply : ω)

/-- The log lists the operations in the order of their unlocks. -/
structure State (T σ ι κ ω : Type*) where
  object : σ
  owner : Option T
  place : T → Place ι κ ω
  log : List (T × ι × ω)

/-- A signal wakes one of the threads that wait, if there is any; a thread may
also wake up unasked. -/
inductive Act (T ι : Type*)
  | call (t : T) (op : ι)
  | run (t : T)
  | signal (t u : T)
  | wakeup (t : T)

variable {T σ ι κ ω : Type*}

def Place.sleeping : Place ι κ ω → Bool
  | .asleep _ => true
  | _ => false

def Place.wake : Place ι κ ω → Place ι κ ω
  | .asleep op => .lock op
  | p => p

/-- The phases of an operation that are still to come: the unlock, and what follows it. -/
def Place.owed : Place ι κ ω → Nat
  | .idle => 0
  | .unlocked _ _ => 1
  | .lock _ | .inside _ _ | .asleep _ => 2

/-- The steps that the threads take without a call and without being woken from outside. -/
def Act.own : Act T ι → Bool
  | .run _ | .signal _ _ => true
  | .call _ _ | .wakeup _ => false

def Place.stmt : Place ι κ ω → Option (ι × κ)
  | .inside op k => some (op, k)
  | _ => none

def Place.op : Place ι κ ω → Option ι
  | .idle => none
  | .lock op | .inside op _ | .asleep op | .unlocked op _ => some op

def State.ops (s : State T σ ι κ ω) : List ι := s.log.map fun e => e.2.1

def State.replies (s : State T σ ι κ ω) : List ω := s.log.map fun e => e.2.2

namespace Code

variable (C : Code σ ι κ ω)

section Alone

/-- At most `fuel` statements of a section, with no other thread in between. -/
def execAlone : Nat → σ → κ → Option (σ × ω)
  | 0, _, _ => none
  | fuel + 1, s, k => match C.exec s k with
    | .goto s' k' => execAlone fuel s' k'
    | .wait => none
    | .unlock r => some (s, r)

def alone (s : σ) (k : κ) : Option (σ × ω) := C.execAlone (C.rank k + 1) s k

def atomic : Machine σ ι ω where
  step s op := C.alone s (C.entry op)

theorem execAlone_eq {fuel : Nat} {k : κ} (hFuel : C.rank k < fuel) (s : σ) :
    C.execAlone fuel s k = C.alone s k := by
  induction fuel using Nat.strong_induction_on generalizing s k with
  | _ fuel ih =>
    obtain ⟨fuel, rfl⟩ : ∃ n, fuel = n + 1 := ⟨fuel - 1, by omega⟩
    rw [alone, execAlone, execAlone]
    cases hExec : C.exec s k with
    | goto s' k' =>
      have hRank := C.rank_lt hExec
      dsimp only
      rw [ih fuel (by omega) (by omega), ih (C.rank k) (by omega) hRank]
    | wait => rfl
    | unlock r => rfl

theorem alone_goto {s s' : σ} {k k' : κ} (h : C.exec s k = .goto s' k') : C.alone s k = C.alone s' k' := by
  rw [alone, execAlone, h]
  exact C.execAlone_eq (C.rank_lt h) s'

theorem alone_wait {s : σ} {k : κ} (h : C.exec s k = .wait) : C.alone s k = none := by
  rw [alone, execAlone, h]

theorem alone_unlock {s : σ} {k : κ} {r : ω} (h : C.exec s k = .unlock r) : C.alone s k = some (s, r) := by
  rw [alone, execAlone, h]

theorem alone_isSome {s : σ} {k : κ} (h : C.exec s k ≠ .wait) : (C.alone s k).isSome := by
  induction hRank : C.rank k using Nat.strong_induction_on generalizing s k with
  | _ n ih =>
    cases hExec : C.exec s k with
    | goto s' k' =>
      rw [C.alone_goto hExec]
      exact ih _ (hRank ▸ C.rank_lt hExec) (C.first hExec) rfl
    | wait => exact absurd hExec h
    | unlock r => rw [C.alone_unlock hExec, Option.isSome_some]

end Alone

section Step

variable [DecidableEq T] [Fintype T]

def step (s : State T σ ι κ ω) : Act T ι → Option (State T σ ι κ ω)
  | .call t op => match s.place t with
    | .idle => some { s with place := Function.update s.place t (.lock op) }
    | _ => none
  | .run t => match s.place t with
    | .idle => none
    | .lock op =>
      if s.owner.isNone then
        some { s with owner := some t, place := Function.update s.place t (.inside op (C.entry op)) }
      else none
    | .inside op k => match C.exec s.object k with
      | .goto object k' => some { s with object := object, place := Function.update s.place t (.inside op k') }
      | .wait => some { s with owner := none, place := Function.update s.place t (.asleep op) }
      | .unlock r =>
        some { s with
          owner := none
          place := Function.update s.place t (.unlocked op r)
          log := s.log ++ [(t, op, r)] }
    | .asleep _ => none
    | .unlocked _ r => match C.notice r with
      | .silent => some { s with place := Function.update s.place t .idle }
      | .signal =>
        if ∀ u, (s.place u).sleeping = false then some { s with place := Function.update s.place t .idle } else none
      | .broadcast => some { s with place := Function.update (fun u => (s.place u).wake) t .idle }
  | .signal t u => match s.place t, s.place u with
    | .unlocked _ r, .asleep op =>
      if C.notice r = .signal then
        some { s with place := Function.update (Function.update s.place u (.lock op)) t .idle }
      else none
    | _, _ => none
  | .wakeup t => match s.place t with
    | .asleep op => some { s with place := Function.update s.place t (.lock op) }
    | _ => none

def initial (object : σ) : State T σ ι κ ω := ⟨object, none, fun _ => .idle, []⟩

def system (start : σ → Prop) : System (State T σ ι κ ω) (Act T ι) where
  start s := ∃ object, start object ∧ s = initial object
  step := C.step

/-- Everything that a step can be. -/
inductive Moved (s : State T σ ι κ ω) : Act T ι → State T σ ι κ ω → Prop
  | call {t op} (h : s.place t = .idle) :
      Moved s (.call t op) { s with place := Function.update s.place t (.lock op) }
  | lock {t op} (h : s.place t = .lock op) (hFree : s.owner = none) :
      Moved s (.run t)
        { s with owner := some t, place := Function.update s.place t (.inside op (C.entry op)) }
  | goto {t op k object k'} (h : s.place t = .inside op k) (hExec : C.exec s.object k = .goto object k') :
      Moved s (.run t) { s with object := object, place := Function.update s.place t (.inside op k') }
  | wait {t op k} (h : s.place t = .inside op k) (hExec : C.exec s.object k = .wait) :
      Moved s (.run t) { s with owner := none, place := Function.update s.place t (.asleep op) }
  | unlock {t op k r} (h : s.place t = .inside op k) (hExec : C.exec s.object k = .unlock r) :
      Moved s (.run t)
        { s with
          owner := none
          place := Function.update s.place t (.unlocked op r)
          log := s.log ++ [(t, op, r)] }
  | quiet {t op r} (h : s.place t = .unlocked op r) (hNotice : C.notice r ≠ .broadcast)
      (hNobody : C.notice r = .signal → ∀ u, (s.place u).sleeping = false) :
      Moved s (.run t) { s with place := Function.update s.place t .idle }
  | broadcast {t op r} (h : s.place t = .unlocked op r) (hNotice : C.notice r = .broadcast) :
      Moved s (.run t) { s with place := Function.update (fun u => (s.place u).wake) t .idle }
  | signal {t u op r op'} (h : s.place t = .unlocked op r) (hNotice : C.notice r = .signal)
      (hAsleep : s.place u = .asleep op') :
      Moved s (.signal t u) { s with place := Function.update (Function.update s.place u (.lock op')) t .idle }
  | wakeup {t op} (h : s.place t = .asleep op) :
      Moved s (.wakeup t) { s with place := Function.update s.place t (.lock op) }

theorem moved_of_step {s s' : State T σ ι κ ω} {a : Act T ι} (h : C.step s a = some s') : C.Moved s a s' := by
  cases a with
  | call t op =>
    simp only [step] at h
    split at h
    · rename_i hPlace
      cases h
      exact .call hPlace
    · cases h
  | wakeup t =>
    simp only [step] at h
    split at h
    · rename_i hPlace
      cases h
      exact .wakeup hPlace
    · cases h
  | signal t u =>
    simp only [step] at h
    split at h
    · rename_i hPlace hAsleep
      obtain ⟨hNotice, hEq⟩ := Option.ite_none_right_eq_some.mp h
      cases hEq
      exact .signal hPlace hNotice hAsleep
    · cases h
  | run t =>
    simp only [step] at h
    cases hPlace : s.place t with
    | idle =>
      rw [hPlace] at h
      cases h
    | lock op =>
      rw [hPlace] at h
      obtain ⟨hFree, hEq⟩ := Option.ite_none_right_eq_some.mp h
      cases hEq
      exact .lock hPlace (Option.isNone_iff_eq_none.mp hFree)
    | inside op k =>
      rw [hPlace] at h
      dsimp only at h
      cases hExec : C.exec s.object k with
      | goto object k' =>
        rw [hExec] at h
        cases h
        exact .goto hPlace hExec
      | wait =>
        rw [hExec] at h
        cases h
        exact .wait hPlace hExec
      | unlock r =>
        rw [hExec] at h
        cases h
        exact .unlock hPlace hExec
    | asleep op =>
      rw [hPlace] at h
      cases h
    | unlocked op r =>
      rw [hPlace] at h
      dsimp only at h
      cases hNotice : C.notice r with
      | silent =>
        rw [hNotice] at h
        cases h
        exact .quiet hPlace (by simp [hNotice]) (by simp [hNotice])
      | signal =>
        rw [hNotice] at h
        obtain ⟨hNobody, hEq⟩ := Option.ite_none_right_eq_some.mp h
        cases hEq
        exact .quiet hPlace (by simp [hNotice]) fun _ => hNobody
      | broadcast =>
        rw [hNotice] at h
        cases h
        exact .broadcast hPlace hNotice

/-- The object is what the unlocked operations made of it in turn, up to what
the owner of the mutex has already done; the owner has still to do the rest. -/
structure Linear (start base : σ) (s : State T σ ι κ ω) : Prop where
  history : C.atomic.run start s.ops = some (base, s.replies)
  free : s.owner = none → base = s.object
  owned : ∀ t, s.owner = some t ↔ (s.place t).stmt.isSome
  rest : ∀ t op k, (s.place t).stmt = some (op, k) → C.alone s.object k = C.alone base (C.entry op)
  fresh : ∀ t op k, (s.place t).stmt = some (op, k) → C.exec s.object k = .wait → base = s.object

variable {C} {start base : σ} {s s' : State T σ ι κ ω}

omit [Fintype T] in
theorem stmt_update {place : T → Place ι κ ω} {t : T} {p : Place ι κ ω} (hOut : (place t).stmt = none)
    (hp : p.stmt = none) (u : T) : (Function.update place t p u).stmt = (place u).stmt := by
  obtain rfl | hNe := eq_or_ne u t
  · rw [Function.update_self, hp, hOut]
  · rw [Function.update_of_ne hNe]

omit [DecidableEq T] [Fintype T] in
theorem wake_stmt (p : Place ι κ ω) : p.wake.stmt = p.stmt := by
  cases p <;> rfl

omit [DecidableEq T] [Fintype T] in
theorem wake_op (p : Place ι κ ω) : p.wake.op = p.op := by
  cases p <;> rfl

omit [DecidableEq T] [Fintype T] in
theorem Linear.same (h : C.Linear start base s) {place : T → Place ι κ ω}
    (hPlace : ∀ t, (place t).stmt = (s.place t).stmt) : C.Linear start base { s with place := place } where
  history := h.history
  free := h.free
  owned t := by
    rw [hPlace]
    exact h.owned t
  rest t op k hStmt := h.rest t op k (hPlace t ▸ hStmt)
  fresh t op k hStmt := h.fresh t op k (hPlace t ▸ hStmt)

omit [DecidableEq T] [Fintype T] in
theorem Linear.waits (h : C.Linear start base s) {t : T} {op : ι} {k : κ} (hPlace : s.place t = .inside op k)
    (hExec : C.exec s.object k = .wait) : base = s.object ∧ C.exec base (C.entry op) = .wait := by
  have hRest := h.rest t op k (congrArg Place.stmt hPlace)
  rw [C.alone_wait hExec] at hRest
  refine ⟨h.fresh t op k (congrArg Place.stmt hPlace) hExec, ?_⟩
  by_contra hGo
  have hSome := C.alone_isSome hGo
  rw [← hRest] at hSome
  cases hSome

omit [DecidableEq T] [Fintype T] in
theorem Linear.alone_inside (h : C.Linear start base s) {t u : T} (hOwner : s.owner = some t)
    (hInside : (s.place u).stmt.isSome) : u = t := by
  have hOther := (h.owned u).mpr hInside
  exact Option.some.inj (hOther.symm.trans hOwner)

omit [Fintype T] in
theorem Linear.enter (h : C.Linear start base s) {t : T} (hFree : s.owner = none) (op : ι) :
    C.Linear start base
      { s with owner := some t, place := Function.update s.place t (.inside op (C.entry op)) } := by
  have hBase := h.free hFree
  have hOthers : ∀ u, u ≠ t → (s.place u).stmt = none := by
    intro u _
    rw [← Option.not_isSome_iff_eq_none, ← h.owned u, hFree]
    exact nofun
  have hStmt : ∀ u op' k, (Function.update s.place t (.inside op (C.entry op)) u).stmt = some (op', k) →
      op' = op ∧ k = C.entry op := by
    intro u op' k hu
    obtain rfl | hNe := eq_or_ne u t
    · rw [Function.update_self] at hu
      cases hu
      exact ⟨rfl, rfl⟩
    · rw [Function.update_of_ne hNe, hOthers u hNe] at hu
      cases hu
  refine ⟨h.history, nofun, ?_, ?_, ?_⟩
  · intro u
    dsimp only
    obtain rfl | hNe := eq_or_ne u t
    · rw [Function.update_self]
      exact iff_of_true rfl rfl
    · rw [Function.update_of_ne hNe, hOthers u hNe]
      exact iff_of_false (fun hEq => hNe (Option.some.inj hEq).symm) nofun
  · intro u op' k hu
    obtain ⟨rfl, rfl⟩ := hStmt u op' k hu
    rw [hBase]
  · intro _ _ _ _ _
    exact hBase

omit [Fintype T] in
theorem Linear.next (h : C.Linear start base s) {t : T} {op : ι} {k k' : κ} {object : σ}
    (hPlace : s.place t = .inside op k) (hExec : C.exec s.object k = .goto object k') :
    C.Linear start base { s with object := object, place := Function.update s.place t (.inside op k') } := by
  have hStmt : (s.place t).stmt = some (op, k) := by rw [hPlace, Place.stmt]
  have hOwner : s.owner = some t := (h.owned t).mpr (hStmt ▸ rfl)
  have hOnly : ∀ u op' l, (Function.update s.place t (.inside op k') u).stmt = some (op', l) →
      op' = op ∧ l = k' := by
    intro u op' l hu
    obtain rfl | hNe := eq_or_ne u t
    · rw [Function.update_self] at hu
      cases hu
      exact ⟨rfl, rfl⟩
    · rw [Function.update_of_ne hNe] at hu
      exact absurd (h.alone_inside hOwner (hu ▸ rfl)) hNe
  refine ⟨h.history, ?_, ?_, ?_, ?_⟩
  · intro hFree
    rw [hOwner] at hFree
    cases hFree
  · intro u
    dsimp only
    obtain rfl | hNe := eq_or_ne u t
    · rw [Function.update_self]
      exact iff_of_true hOwner rfl
    · rw [Function.update_of_ne hNe]
      exact h.owned u
  · intro u op' l hu
    obtain ⟨rfl, rfl⟩ := hOnly u op' l hu
    rw [← h.rest t op' k hStmt, C.alone_goto hExec]
  · intro u op' l hu hWait
    obtain ⟨rfl, rfl⟩ := hOnly u op' l hu
    exact absurd hWait (C.first hExec)

omit [Fintype T] in
theorem Linear.leave (h : C.Linear start base s) {t : T} {p : Place ι κ ω} (hOwner : s.owner = some t)
    (hOut : p.stmt = none) (u : T) : (Function.update s.place t p u).stmt = none := by
  obtain rfl | hNe := eq_or_ne u t
  · rw [Function.update_self, hOut]
  · rw [Function.update_of_ne hNe, ← Option.not_isSome_iff_eq_none]
    exact fun hInside => hNe (h.alone_inside hOwner hInside)

theorem Linear.step {a : Act T ι} (h : C.Linear start base s) (hStep : C.step s a = some s') :
    ∃ base', C.Linear start base' s' := by
  cases C.moved_of_step hStep with
  | call hPlace => exact ⟨base, h.same (stmt_update (congrArg Place.stmt hPlace) rfl)⟩
  | @lock t op hPlace hFree => exact ⟨base, h.enter hFree op⟩
  | goto hPlace hExec => exact ⟨base, h.next hPlace hExec⟩
  | @wait t op k hPlace hExec =>
    have hStmt : (s.place t).stmt = some (op, k) := by rw [hPlace, Place.stmt]
    have hOut := h.leave (p := .asleep op) ((h.owned t).mpr (hStmt ▸ rfl)) rfl
    refine ⟨base, h.history, fun _ => h.fresh t op k hStmt hExec, ?_, ?_, ?_⟩
    · intro u
      dsimp only
      rw [hOut]
      exact iff_of_false nofun nofun
    · intro u op' l hu
      dsimp only at hu
      rw [hOut] at hu
      cases hu
    · intro u op' l hu
      dsimp only at hu
      rw [hOut] at hu
      cases hu
  | @unlock t op k r hPlace hExec =>
    have hStmt : (s.place t).stmt = some (op, k) := by rw [hPlace, Place.stmt]
    have hOut := h.leave (p := .unlocked op r) ((h.owned t).mpr (hStmt ▸ rfl)) rfl
    have hDone : C.atomic.step base op = some (s.object, r) :=
      (h.rest t op k hStmt).symm.trans (C.alone_unlock hExec)
    refine ⟨s.object, ?_, fun _ => rfl, ?_, ?_, ?_⟩
    · rw [State.ops, State.replies, List.map_append, List.map_append]
      exact Machine.run_concat h.history hDone
    · intro u
      dsimp only
      rw [hOut]
      exact iff_of_false nofun nofun
    · intro u op' l hu
      dsimp only at hu
      rw [hOut] at hu
      cases hu
    · intro _ _ _ _ _
      rfl
  | quiet hPlace => exact ⟨base, h.same (stmt_update (congrArg Place.stmt hPlace) rfl)⟩
  | broadcast hPlace =>
    have hWoken := h.same fun u => wake_stmt (s.place u)
    exact ⟨base, hWoken.same (stmt_update (congrArg (fun p => p.wake.stmt) hPlace) rfl)⟩
  | @signal t u op r op' hPlace _ hAsleep =>
    have hWoken := stmt_update (p := .lock op') (congrArg Place.stmt hAsleep) rfl
    refine ⟨base, h.same ?_⟩
    intro u
    rw [stmt_update _ rfl, hWoken]
    rw [hWoken, hPlace]
    rfl
  | wakeup hPlace => exact ⟨base, h.same (stmt_update (congrArg Place.stmt hPlace) rfl)⟩

omit [DecidableEq T] [Fintype T] in
theorem linear_initial (object : σ) : C.Linear object object (initial object : State T σ ι κ ω) where
  history := rfl
  free _ := rfl
  owned t := iff_of_false nofun nofun
  rest t op k hStmt := by cases hStmt
  fresh t op k hStmt := by cases hStmt

/-- Whatever the order of the statements, the operations take effect one after
the other. -/
theorem linear_of_reachable {I : σ → Prop} (h : Reachable (C.system I) s) :
    ∃ start base, I start ∧ C.Linear start base s := by
  refine Reachable.invariant (I := fun s => ∃ start base, I start ∧ C.Linear start base s) ?_ ?_ h
  · rintro s ⟨object, hStart, rfl⟩
    exact ⟨object, object, hStart, linear_initial object⟩
  · rintro s a t ⟨start, base, hStart, hLinear⟩ hStep
    obtain ⟨base', hNext⟩ := hLinear.step hStep
    exact ⟨start, base', hStart, hNext⟩

def Called (Q : T → ι → Prop) (place : T → Place ι κ ω) : Prop := ∀ t op, (place t).op = some op → Q t op

omit [Fintype T] in
theorem Called.update {Q : T → ι → Prop} {place : T → Place ι κ ω} (h : Called Q place) {t : T} {p : Place ι κ ω}
    (hp : ∀ op, p.op = some op → Q t op) : Called Q (Function.update place t p) := by
  intro u op hu
  obtain rfl | hNe := eq_or_ne u t
  · rw [Function.update_self] at hu
    exact hp op hu
  · rw [Function.update_of_ne hNe] at hu
    exact h u op hu

/-- What holds of every call holds of every operation under way. -/
theorem Called.step {Q : T → ι → Prop} {a : Act T ι} (h : Called Q s.place)
    (hCall : ∀ t op, a = .call t op → Q t op) (hStep : C.step s a = some s') : Called Q s'.place := by
  cases C.moved_of_step hStep with
  | @call t op hPlace =>
    apply h.update
    rintro op' ⟨⟩
    exact hCall t op rfl
  | lock hPlace | goto hPlace | wait hPlace | unlock hPlace | wakeup hPlace =>
    apply h.update
    rintro op' ⟨⟩
    exact h _ _ (congrArg Place.op hPlace)
  | quiet hPlace =>
    apply h.update
    rintro op' ⟨⟩
  | broadcast hPlace =>
    have hWoken : Called Q fun u => (s.place u).wake := by
      intro u op hu
      exact h u op ((wake_op (s.place u)).symm.trans hu)
    apply hWoken.update
    rintro op' ⟨⟩
  | @signal t u op r op' hPlace _ hAsleep =>
    have hWoken : Called Q (Function.update s.place u (.lock op')) := by
      apply h.update
      rintro op'' ⟨⟩
      exact h u op' (congrArg Place.op hAsleep)
    apply hWoken.update
    rintro op'' ⟨⟩

end Step

section Sleepers

/-- A section after which one that waits could go on gives notice to all. -/
def Announces (C : Code σ ι κ ω) : Prop :=
  ∀ s s' op op' r, C.exec s (C.entry op) = .wait → C.alone s (C.entry op') = some (s', r) →
    C.exec s' (C.entry op) = .wait ∨ C.notice r = .broadcast

/-- A thread that sleeps has a reason to, or is about to be woken. -/
def Awaited (C : Code σ ι κ ω) (base : σ) (place : T → Place ι κ ω) : Prop :=
  ∀ t op, place t = .asleep op → C.exec base (C.entry op) = .wait ∨
    ∃ u op' r, place u = .unlocked op' r ∧ C.notice r = .broadcast

variable {C : Code σ ι κ ω} {start base base' : σ} {s s' : State T σ ι κ ω}

theorem Linear.base_eq (h : C.Linear start base s) (h' : C.Linear start base' s') (hLog : s'.log = s.log) :
    base' = base := by
  have hRun := h'.history
  rw [State.ops, State.replies, hLog] at hRun
  cases h.history.symm.trans hRun
  rfl

variable [DecidableEq T]

/-- The other threads' reasons do not depend on where t goes. -/
theorem Awaited.other {place : T → Place ι κ ω} (h : C.Awaited base place) {t u : T} {p : Place ι κ ω} {op : ι}
    (hSilent : ∀ op r, place t = .unlocked op r → C.notice r ≠ .broadcast) (hNe : u ≠ t)
    (hu : Function.update place t p u = .asleep op) :
    C.exec base (C.entry op) = .wait ∨
      ∃ v op' r, Function.update place t p v = .unlocked op' r ∧ C.notice r = .broadcast := by
  rw [Function.update_of_ne hNe] at hu
  obtain hWait | ⟨v, op', r, hv, hNotice⟩ := h u op hu
  · exact .inl hWait
  · refine .inr ⟨v, op', r, ?_, hNotice⟩
    rw [Function.update_of_ne, hv]
    rintro rfl
    exact hSilent op' r hv hNotice

theorem Awaited.update {place : T → Place ι κ ω} (h : C.Awaited base place) {t : T} {p : Place ι κ ω}
    (hSilent : ∀ op r, place t = .unlocked op r → C.notice r ≠ .broadcast) (hp : p.sleeping = false) :
    C.Awaited base (Function.update place t p) := by
  intro u op hu
  obtain rfl | hNe := eq_or_ne u t
  · rw [Function.update_self] at hu
    subst hu
    cases hp
  · exact h.other hSilent hNe hu

variable [Fintype T]

theorem Awaited.step {a : Act T ι} (hAnnounces : C.Announces) (hLinear : C.Linear start base s)
    (hNext : C.Linear start base' s') (h : C.Awaited base s.place) (hStep : C.step s a = some s') :
    C.Awaited base' s'.place := by
  cases C.moved_of_step hStep with
  | call hPlace | lock hPlace | goto hPlace | wakeup hPlace =>
    rw [hLinear.base_eq hNext rfl]
    apply h.update _ rfl
    intro op r hEq
    cases hPlace.symm.trans hEq
  | @wait t op k hPlace hExec =>
    rw [hLinear.base_eq hNext rfl]
    obtain ⟨_, hWait⟩ := hLinear.waits hPlace hExec
    intro u op' hu
    obtain rfl | hNe := eq_or_ne u t
    · cases (Function.update_self ..).symm.trans hu
      exact .inl hWait
    · exact h.other (fun _ _ hEq => nomatch hPlace.symm.trans hEq) hNe hu
  | @unlock t op k r hPlace hExec =>
    have hBase : base' = s.object := hNext.free rfl
    have hDone : C.alone base (C.entry op) = some (base', r) := by
      rw [hBase, ← hLinear.rest t op k (congrArg Place.stmt hPlace), C.alone_unlock hExec]
    intro u op' hu
    obtain rfl | hNe := eq_or_ne u t
    · cases (Function.update_self ..).symm.trans hu
    · obtain hOld | hWoken := h.other (fun _ _ hEq => nomatch hPlace.symm.trans hEq) hNe hu
      · obtain hStill | hNotice := hAnnounces _ _ _ _ _ hOld hDone
        · exact .inl hStill
        · exact .inr ⟨t, op, r, Function.update_self .., hNotice⟩
      · exact .inr hWoken
  | quiet hPlace hNotice =>
    rw [hLinear.base_eq hNext rfl]
    apply h.update _ rfl
    intro op r hEq
    cases hPlace.symm.trans hEq
    exact hNotice
  | @broadcast t op r hPlace =>
    intro u op' hu
    obtain rfl | hNe := eq_or_ne u t
    · dsimp only at hu
      rw [Function.update_self] at hu
      cases hu
    · dsimp only at hu
      rw [Function.update_of_ne hNe] at hu
      cases hPlace' : s.place u with
      | _ =>
        rw [hPlace'] at hu
        cases hu
  | @signal t u op r op' hPlace hNotice hAsleep =>
    rw [hLinear.base_eq hNext rfl]
    have hWoken : C.Awaited base (Function.update s.place u (.lock op')) := by
      apply h.update _ rfl
      intro op r hEq
      cases hAsleep.symm.trans hEq
    apply hWoken.update _ rfl
    intro op'' r' hEq
    have hNe : t ≠ u := by
      rintro rfl
      cases hPlace.symm.trans hAsleep
    rw [Function.update_of_ne hNe] at hEq
    cases hPlace.symm.trans hEq
    simp [hNotice]

end Sleepers

section Rest

variable (C : Code σ ι κ ω)

/-- The statements of the operation itself that the thread can still execute
before it sleeps or unlocks. -/
def work : Place ι κ ω → Nat
  | .lock op => C.rank (C.entry op) + 2
  | .inside _ k => C.rank k + 1
  | .idle | .asleep _ | .unlocked _ _ => 0

variable [Fintype T]

/-- No run without calls takes more steps than this. -/
def remaining (s : State T σ ι κ ω) : Nat :=
  (∑ t, (s.place t).owed) * (Fintype.card T * (C.longest + 2) + 1) + ∑ t, C.work (s.place t)

theorem work_le (p : Place ι κ ω) : C.work p ≤ C.longest + 2 := by
  cases p with
  | lock op => exact Nat.add_le_add_right (C.rank_le _) 2
  | inside op k => exact (Nat.add_le_add_right (C.rank_le _) 1).trans (Nat.le_succ _)
  | idle | asleep op | unlocked op r => exact Nat.zero_le _

theorem sum_work_le (place : T → Place ι κ ω) :
    ∑ t, C.work (place t) ≤ Fintype.card T * (C.longest + 2) := by
  have hSum := Finset.sum_le_card_nsmul Finset.univ (fun t => C.work (place t)) _ fun t _ => C.work_le (place t)
  rwa [Finset.card_univ, Nat.nsmul_eq_mul] at hSum

theorem remaining_of_owed {s s' : State T σ ι κ ω}
    (h : ∑ t, (s'.place t).owed < ∑ t, (s.place t).owed) : C.remaining s' < C.remaining s := by
  have hWork := C.sum_work_le s'.place
  have hMul := Nat.mul_le_mul_right (Fintype.card T * (C.longest + 2) + 1) (Nat.succ_le_of_lt h)
  rw [Nat.succ_mul] at hMul
  rw [remaining, remaining]
  omega

theorem remaining_of_work {s s' : State T σ ι κ ω}
    (hOwed : ∑ t, (s'.place t).owed = ∑ t, (s.place t).owed)
    (hWork : ∑ t, C.work (s'.place t) < ∑ t, C.work (s.place t)) : C.remaining s' < C.remaining s := by
  rw [remaining, remaining, hOwed]
  omega

variable {C}

theorem sum_update [DecidableEq T] (f : Place ι κ ω → Nat) (place : T → Place ι κ ω) (t : T) (p : Place ι κ ω) :
    ∑ u, f (Function.update place t p u) + f (place t) = ∑ u, f (place u) + f p := by
  have hRest : ∀ u ∈ Finset.univ.erase t, f (Function.update place t p u) = f (place u) := by
    intro u hu
    rw [Function.update_of_ne (Finset.ne_of_mem_erase hu)]
  have hNew := Finset.add_sum_erase Finset.univ (fun u => f (Function.update place t p u)) (Finset.mem_univ t)
  have hOld := Finset.add_sum_erase Finset.univ (fun u => f (place u)) (Finset.mem_univ t)
  rw [Finset.sum_congr rfl hRest, Function.update_self] at hNew
  omega

variable [DecidableEq T] {s s' : State T σ ι κ ω}

theorem remaining_step {a : Act T ι} (hOwn : a.own = true) (hStep : C.step s a = some s') :
    C.remaining s' < C.remaining s := by
  cases C.moved_of_step hStep with
  | call | wakeup => cases hOwn
  | @lock t op hPlace =>
    have hOwed := sum_update Place.owed s.place t (.inside op (C.entry op))
    have hWork := sum_update C.work s.place t (.inside op (C.entry op))
    rw [hPlace] at hOwed hWork
    apply C.remaining_of_work (Nat.add_right_cancel hOwed)
    simp only [work] at hWork ⊢
    omega
  | @goto t op k object k' hPlace hExec =>
    have hRank := C.rank_lt hExec
    have hOwed := sum_update Place.owed s.place t (.inside op k')
    have hWork := sum_update C.work s.place t (.inside op k')
    rw [hPlace] at hOwed hWork
    apply C.remaining_of_work (Nat.add_right_cancel hOwed)
    simp only [work] at hWork ⊢
    omega
  | @wait t op k hPlace =>
    have hOwed := sum_update Place.owed s.place t (.asleep op)
    have hWork := sum_update C.work s.place t (.asleep op)
    rw [hPlace] at hOwed hWork
    apply C.remaining_of_work (Nat.add_right_cancel hOwed)
    simp only [work] at hWork ⊢
    omega
  | @unlock t op k r hPlace =>
    have hOwed := sum_update Place.owed s.place t (.unlocked op r)
    rw [hPlace] at hOwed
    apply C.remaining_of_owed
    simp only [Place.owed] at hOwed ⊢
    omega
  | @quiet t op r hPlace =>
    have hOwed := sum_update Place.owed s.place t .idle
    rw [hPlace] at hOwed
    apply C.remaining_of_owed
    simp only [Place.owed] at hOwed ⊢
    omega
  | @broadcast t op r hPlace =>
    have hOwed := sum_update Place.owed (fun u => (s.place u).wake) t .idle
    have hWake : ∀ p : Place ι κ ω, p.wake.owed = p.owed := by
      intro p
      cases p <;> rfl
    simp only [hWake, hPlace] at hOwed
    apply C.remaining_of_owed
    simp only [Place.owed] at hOwed ⊢
    omega
  | @signal t u op r op' hPlace hNotice hAsleep =>
    have hNe : t ≠ u := by
      rintro rfl
      cases hPlace.symm.trans hAsleep
    have hWoken := sum_update Place.owed s.place u (.lock op')
    have hOwed := sum_update Place.owed (Function.update s.place u (.lock op')) t .idle
    rw [hAsleep] at hWoken
    rw [Function.update_of_ne hNe, hPlace] at hOwed
    apply C.remaining_of_owed
    simp only [Place.owed] at hOwed hWoken ⊢
    omega

theorem length_run {labels : List (Act T ι)} (hOwn : ∀ a ∈ labels, a.own = true) {S : System (State T σ ι κ ω) (Act T ι)}
    (hSystem : S.step = C.step) (hRun : S.run s labels = some s') :
    labels.length + C.remaining s' ≤ C.remaining s := by
  induction labels generalizing s with
  | nil =>
    cases hRun
    rw [List.length_nil, Nat.zero_add]
  | cons a labels ih =>
    rw [run_cons, hSystem] at hRun
    obtain ⟨next, hStep, hRest⟩ := Option.bind_eq_some_iff.mp hRun
    have hFirst := remaining_step (hOwn a List.mem_cons_self) hStep
    have hTail := ih (fun b hb => hOwn b (List.mem_cons_of_mem a hb)) hRest
    rw [List.length_cons]
    omega

/-- A thread in the middle of an operation holds the mutex or waits for one that
can go on. -/
theorem Linear.progress {start base : σ} (h : C.Linear start base s) {t : T} (hBusy : 0 < C.work (s.place t) ∨
    ∃ op r, s.place t = .unlocked op r) : ∃ a : Act T ι, a.own = true ∧ (C.step s a).isSome := by
  have hInside : ∀ u op k, s.place u = .inside op k → (C.step s (.run u)).isSome := by
    intro u op k hu
    simp only [Code.step, hu]
    split <;> rfl
  cases hPlace : s.place t with
  | idle | asleep =>
    rw [hPlace] at hBusy
    obtain hWork | ⟨_, _, hEq⟩ := hBusy
    · cases hWork
    · cases hEq
  | lock op =>
    cases hOwner : s.owner with
    | none =>
      refine ⟨.run t, rfl, ?_⟩
      simp [Code.step, hPlace, hOwner]
    | some u =>
      obtain ⟨⟨op', k⟩, hStmt⟩ := Option.isSome_iff_exists.mp ((h.owned u).mp hOwner)
      refine ⟨.run u, rfl, ?_⟩
      cases hu : s.place u with
      | inside op' k => exact hInside u op' k hu
      | idle | lock | asleep | unlocked =>
        rw [hu] at hStmt
        cases hStmt
  | inside op k => exact ⟨.run t, rfl, hInside t op k hPlace⟩
  | unlocked op r =>
    by_cases hSignal : C.notice r = .signal ∧ ∃ u, (s.place u).sleeping = true
    · obtain ⟨hNotice, u, hSleeping⟩ := hSignal
      refine ⟨.signal t u, rfl, ?_⟩
      cases hu : s.place u with
      | asleep op' => simp [Code.step, hPlace, hu, hNotice]
      | idle | lock | inside | unlocked =>
        rw [hu] at hSleeping
        cases hSleeping
    · refine ⟨.run t, rfl, ?_⟩
      simp only [Code.step, hPlace]
      split
      · rfl
      · rename_i hNotice
        have hNobody : ∀ u, (s.place u).sleeping = false := by
          intro u
          rw [← Bool.not_eq_true]
          exact fun hu => hSignal ⟨hNotice, u, hu⟩
        rw [if_pos hNobody]
        rfl
      · rfl

/-- The state in which no thread goes on by itself. -/
structure Rests (C : Code σ ι κ ω) (s : State T σ ι κ ω) : Prop where
  still : ∀ t, s.place t = .idle ∨ ∃ op, s.place t = .asleep op
  waits : ∀ t op, s.place t = .asleep op → C.exec s.object (C.entry op) = .wait

theorem still_of_stuck {start base : σ} (h : C.Linear start base s)
    (hStuck : ∀ a : Act T ι, a.own = true → C.step s a = none) (t : T) :
    s.place t = .idle ∨ ∃ op, s.place t = .asleep op := by
  by_contra hBusy
  rw [not_or, not_exists] at hBusy
  have hWork : 0 < C.work (s.place t) ∨ ∃ op r, s.place t = .unlocked op r := by
    cases hPlace : s.place t with
    | idle => exact absurd hPlace hBusy.1
    | asleep op => exact absurd hPlace (hBusy.2 op)
    | lock op => exact .inl (Nat.succ_pos _)
    | inside op k => exact .inl (Nat.succ_pos _)
    | unlocked op r => exact .inr ⟨op, r, rfl⟩
  obtain ⟨a, hOwn, hSome⟩ := h.progress hWork
  rw [hStuck a hOwn] at hSome
  cases hSome

theorem rests_of_stuck {start base : σ} (h : C.Linear start base s) (hAwaited : C.Awaited base s.place)
    (hStuck : ∀ a : Act T ι, a.own = true → C.step s a = none) : C.Rests s := by
  have hStill := still_of_stuck h hStuck
  refine ⟨hStill, ?_⟩
  intro t op ht
  have hFree : s.owner = none := by
    rw [Option.eq_none_iff_forall_ne_some]
    intro u hOwner
    have hInside := (h.owned u).mp hOwner
    obtain hu | ⟨op', hu⟩ := hStill u <;> rw [hu] at hInside <;> cases hInside
  obtain hWait | ⟨u, op', r, hu, _⟩ := hAwaited t op ht
  · rwa [h.free hFree] at hWait
  · obtain hIdle | ⟨op'', hAsleep⟩ := hStill u
    · cases hu.symm.trans hIdle
    · cases hu.symm.trans hAsleep

end Rest

end Code

end Lib.Mutex
