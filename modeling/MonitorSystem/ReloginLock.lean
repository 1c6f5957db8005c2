import MonitorSystem.Lib.Mutex
import MonitorSystem.Trigger

/-! # try_to_relogin and the relogin thread statement by statement

The senders count their failures under mutex. The relogin thread sleeps on cond
while the counter is positive, and keeps the mutex during login and the replays.
A sender that finds the counter at 0 signals after its unlock. What login does
to the socket and the replays do to the files is not protected by mutex; an
exit of the process ends the run.
-/

namespace MonitorSystem.ReloginLock

open Report SendData Relogin Lib.Refine Lib.Transition Lib.Mutex

/-- try_to_relogin, or one turn of the relogin thread with the outcome of login. -/
inductive Op
  | fail
  | relogin (accepted : Bool)

inductive Stmt
  | test
  | zero
  | decrement
  | counted
  | positive (accepted : Bool)
  | reset (accepted : Bool)
  | login (accepted : Bool)
  | replay (kind : Kind)
  | done (accepted : Bool)

inductive Reply
  | signalled
  | counted
  | tried (accepted : Bool)
deriving DecidableEq

def entry : Op → Stmt
  | .fail => .test
  | .relogin accepted => .positive accepted

def exec (checkForRelogin : Int) : Stmt → Effect Int Stmt Reply
  | .test => .goto checkForRelogin (if checkForRelogin = 0 then .zero else .decrement)
  | .zero => .unlock .signalled
  | .decrement => .goto (checkForRelogin - 1) .counted
  | .counted => .unlock .counted
  | .positive accepted => if 0 < checkForRelogin then .wait else .goto checkForRelogin (.reset accepted)
  | .reset accepted => .goto reloginNum (.login accepted)
  | .login accepted => .goto checkForRelogin (if accepted then .replay .mem else .done false)
  | .replay .mem => .goto checkForRelogin (.replay .cpu)
  | .replay .cpu => .goto checkForRelogin (.replay .disk)
  | .replay .disk => .goto checkForRelogin (.replay .sys)
  | .replay .sys => .goto checkForRelogin (.done true)
  | .done accepted => .unlock (.tried accepted)

def notice : Reply → Notice
  | .signalled => .signal
  | .counted | .tried _ => .silent

def rank : Stmt → Nat
  | .test => 2
  | .decrement => 1
  | .positive _ => 7
  | .reset _ => 6
  | .login _ => 5
  | .replay .mem => 4
  | .replay .cpu => 3
  | .replay .disk => 2
  | .replay .sys => 1
  | .zero | .counted | .done _ => 0

theorem rank_le (k : Stmt) : rank k ≤ 7 := by
  cases k with
  | replay kind => cases kind <;> simp [rank]
  | _ => simp [rank]

theorem goto_cases {c c' : Int} {k k' : Stmt} (h : exec c k = .goto c' k') :
    rank k' < rank k ∧ exec c' k' ≠ .wait := by
  cases k with
  | zero | counted | done => cases h
  | decrement | reset =>
    cases h
    exact ⟨by simp [rank], nofun⟩
  | test =>
    cases h
    split <;> exact ⟨by simp [rank], nofun⟩
  | positive accepted =>
    rw [exec] at h
    split at h <;> cases h
    exact ⟨by simp [rank], nofun⟩
  | login accepted =>
    cases h
    split <;> exact ⟨by simp [rank], nofun⟩
  | replay kind =>
    cases kind <;> cases h <;> exact ⟨by simp [rank], nofun⟩

def counter : Code Int Op Stmt Reply where
  entry := entry
  exec := exec
  notice := notice
  rank := rank
  longest := 7
  rank_le := rank_le
  rank_lt h := (goto_cases h).1
  first h := (goto_cases h).2

def Op.isRelogin : Op → Bool
  | .fail => false
  | .relogin _ => true

/-- One thread runs relogin; the others only report failures. -/
def Roles {T : Type} (r : T) : Act T Op → Prop
  | .call t op => t = r ↔ op.isRelogin = true
  | .run _ | .signal _ _ | .wakeup _ => True

instance {T : Type} [DecidableEq T] (r : T) : DecidablePred (Roles r)
  | .call _ _ => inferInstanceAs (Decidable (_ ↔ _))
  | .run _ | .signal _ _ | .wakeup _ => isTrue trivial

def system (T : Type) [DecidableEq T] [Fintype T] : System (State T Int Op Stmt Reply) (Act T Op) :=
  counter.system fun c => c = reloginNum

theorem alone_fail (c : Int) :
    counter.alone c .test = some (if c = 0 then (c, .signalled) else (c - 1, .counted)) := by
  have hTest : counter.exec c .test = .goto c (if c = 0 then .zero else .decrement) := rfl
  rw [counter.alone_goto hTest]
  split
  · rw [counter.alone_unlock rfl]
  · rw [counter.alone_goto rfl, counter.alone_unlock rfl]

theorem alone_relogin (c : Int) (accepted : Bool) :
    counter.alone c (.positive accepted) = if 0 < c then none else some (reloginNum, .tried accepted) := by
  split
  · rename_i hPos
    exact counter.alone_wait (if_pos hPos)
  · rename_i hNot
    have hTest : counter.exec c (.positive accepted) = .goto c (.reset accepted) := if_neg hNot
    rw [counter.alone_goto hTest, counter.alone_goto rfl]
    cases accepted with
    | false => rw [counter.alone_goto rfl, if_neg (by simp), counter.alone_unlock rfl]
    | true =>
      rw [counter.alone_goto rfl, if_pos rfl, counter.alone_goto rfl, counter.alone_goto rfl,
        counter.alone_goto rfl, counter.alone_goto rfl, counter.alone_unlock rfl]

theorem alone_tryToRelogin (c : Client) :
    (counter.alone c.checkForRelogin .test).map Prod.fst = some (tryToRelogin c).checkForRelogin := by
  rw [alone_fail, tryToRelogin]
  split <;> rfl

theorem alone_turn (a : Attempt) (c : Client) (accepted : Bool) (hZero : ¬ 0 < c.checkForRelogin) :
    (counter.alone c.checkForRelogin (.positive accepted)).map Prod.fst =
      some (relogin a c).checkForRelogin := by
  rw [alone_relogin, if_neg hZero, Trigger.relogin_checkForRelogin]
  rfl

/-- The failures that were counted and those that were signalled since the last login. -/
structure Since where
  counted : Nat
  signals : Nat

def Since.add (f : Since) : Reply → Since
  | .signalled => { f with signals := f.signals + 1 }
  | .counted => { f with counted := f.counted + 1 }
  | .tried _ => ⟨0, 0⟩

def since (replies : List Reply) : Since := replies.foldl Since.add ⟨0, 0⟩

def Third : Since → List Reply → Prop
  | _, [] => True
  | f, reply :: rest => (∀ accepted, reply = .tried accepted → f.counted = 3) ∧ Third (f.add reply) rest

structure Counts (c : Int) (f : Since) : Prop where
  nonneg : 0 ≤ c
  counted : c + f.counted = 3
  signals : 0 < f.signals → c = 0

theorem counts_step {c c' : Int} {f : Since} {op : Op} {reply : Reply} (h : Counts c f)
    (hStep : counter.atomic.step c op = some (c', reply)) :
    Counts c' (f.add reply) ∧ ∀ accepted, reply = .tried accepted → f.counted = 3 := by
  obtain ⟨hNonneg, hCounted, hSignals⟩ := h
  cases op with
  | fail =>
    have hDone := Option.some.inj ((alone_fail c).symm.trans hStep)
    split at hDone
    · rename_i hZero
      cases hDone
      exact ⟨⟨hNonneg, hCounted, fun _ => hZero⟩, nofun⟩
    · cases hDone
      refine ⟨⟨by omega, ?_, fun hPos => absurd (hSignals hPos) ‹_›⟩, nofun⟩
      simp only [Since.add]
      omega
  | relogin accepted =>
    have hDone := (alone_relogin c accepted).symm.trans hStep
    split at hDone
    · cases hDone
    · cases hDone
      exact ⟨⟨by decide, rfl, fun hPos => absurd hPos (Nat.lt_irrefl 0)⟩, fun _ _ => by omega⟩

theorem counts_run {c c' : Int} {f : Since} {ops : List Op} {replies : List Reply} (h : Counts c f)
    (hRun : counter.atomic.run c ops = some (c', replies)) :
    Counts c' (replies.foldl Since.add f) ∧ Third f replies := by
  induction ops generalizing c f replies with
  | nil =>
    cases hRun
    exact ⟨h, trivial⟩
  | cons op ops ih =>
    obtain ⟨next, reply, rest, hStep, hRest, rfl⟩ := Machine.of_run_cons hRun
    obtain ⟨hNext, hThird⟩ := counts_step h hStep
    obtain ⟨hCounts, hMore⟩ := ih hNext hRest
    exact ⟨hCounts, hThird, hMore⟩

section

variable {T : Type} [DecidableEq T] [Fintype T] {r : T} {s s' : State T Int Op Stmt Reply}

/-- Only the relogin thread sleeps, and a signal given since the last login finds
it awake or is about to wake it. -/
structure Heard (r : T) (signals : Nat) (place : T → Place Op Stmt Reply) : Prop where
  sleeper : ∀ t op, place t = .asleep op → t = r
  kept : ∀ t op, place t = .asleep op → 0 < signals → ∃ u op', place u = .unlocked op' .signalled

structure Prompt (r : T) (s : State T Int Op Stmt Reply) : Prop where
  counts : s.owner = none → Counts s.object (since s.replies)
  third : Third ⟨0, 0⟩ s.replies
  heard : Heard r (since s.replies).signals s.place

structure Inv (r : T) (base : Int) (s : State T Int Op Stmt Reply) : Prop where
  linear : counter.Linear reloginNum base s
  called : Code.Called (fun t op => t = r ↔ op.isRelogin = true) s.place
  heard : Heard r (since s.replies).signals s.place

omit [DecidableEq T] [Fintype T] in
theorem Inv.counts {base : Int} (h : Inv r base s) : Counts base (since s.replies) ∧ Third ⟨0, 0⟩ s.replies :=
  counts_run ⟨by decide, rfl, fun hPos => absurd hPos (Nat.lt_irrefl 0)⟩ h.linear.history

omit [DecidableEq T] [Fintype T] in
theorem heard_of_awake {signals : Nat} {place : T → Place Op Stmt Reply} (h : ∀ t op, place t ≠ .asleep op) :
    Heard r signals place where
  sleeper t op ht := absurd ht (h t op)
  kept t op ht := absurd ht (h t op)

omit [Fintype T] in
theorem asleep_update {place : T → Place Op Stmt Reply} {t u : T} {p : Place Op Stmt Reply} {op : Op}
    (hp : ∀ op, p ≠ .asleep op) (hu : Function.update place t p u = .asleep op) : u ≠ t ∧ place u = .asleep op := by
  obtain rfl | hNe := eq_or_ne u t
  · rw [Function.update_self] at hu
    exact absurd hu (hp op)
  · rw [Function.update_of_ne hNe] at hu
    exact ⟨hNe, hu⟩

omit [Fintype T] in
theorem Heard.update {signals : Nat} {place : T → Place Op Stmt Reply} {t : T} {p : Place Op Stmt Reply}
    (h : Heard r signals place) (hp : ∀ op, p ≠ .asleep op) (hSilent : ∀ op, place t ≠ .unlocked op .signalled) :
    Heard r signals (Function.update place t p) where
  sleeper u op hu := h.sleeper u op (asleep_update hp hu).2
  kept u op hu hPos := by
    obtain ⟨v, op', hv⟩ := h.kept u op (asleep_update hp hu).2 hPos
    refine ⟨v, op', ?_⟩
    rw [Function.update_of_ne, hv]
    rintro rfl
    exact hSilent op' hv

theorem heard_step {base : Int} {a : Act T Op} (h : Inv r base s) (hStep : counter.step s a = some s') :
    Heard r (since s'.replies).signals s'.place := by
  cases counter.moved_of_step hStep with
  | call hPlace | lock hPlace | goto hPlace | wakeup hPlace =>
    refine h.heard.update (by simp) ?_
    intro op hEq
    cases hPlace.symm.trans hEq
  | @wait t op k hPlace hExec =>
    -- The counter is positive here, so nothing was signalled since the last login.
    obtain ⟨_, hWait⟩ := h.linear.waits hPlace hExec
    obtain ⟨accepted, rfl⟩ : ∃ accepted, op = .relogin accepted := by
      cases op with
      | fail => cases hWait
      | relogin accepted => exact ⟨accepted, rfl⟩
    have hPos : 0 < base := by
      by_contra hNot
      change exec base (.positive accepted) = _ at hWait
      rw [exec, if_neg hNot] at hWait
      cases hWait
    refine ⟨?_, ?_⟩
    · intro u op hu
      obtain rfl | hNe := eq_or_ne u t
      · exact (h.called u _ (congrArg Place.op hPlace)).mpr rfl
      · dsimp only at hu
        rw [Function.update_of_ne hNe] at hu
        exact h.heard.sleeper u op hu
    · intro _ _ _ hSignals
      have hZero := h.counts.1.signals hSignals
      omega
  | @unlock t op k reply hPlace hExec =>
    have hReplies : since ((s.log ++ [(t, op, reply)]).map fun e => e.2.2) = (since s.replies).add reply := by
      rw [List.map_append, List.map_singleton, since, List.foldl_append]
      rfl
    have hUpdate : Heard r (since s.replies).signals (Function.update s.place t (.unlocked op reply)) := by
      refine h.heard.update (by simp) ?_
      intro op' hEq
      cases hPlace.symm.trans hEq
    rw [State.replies, hReplies]
    refine ⟨hUpdate.sleeper, ?_⟩
    intro u op' hu hSignals
    cases reply with
    | signalled => exact ⟨t, op, Function.update_self ..⟩
    | counted => exact hUpdate.kept u op' hu hSignals
    | tried accepted => exact absurd hSignals (Nat.lt_irrefl 0)
  | @quiet t op reply hPlace hNotice hNobody =>
    by_cases hSignal : reply = .signalled
    · subst hSignal
      apply heard_of_awake
      intro u op' hu
      have hNot := hNobody rfl u
      rw [(asleep_update (p := .idle) (by simp) hu).2] at hNot
      cases hNot
    · refine h.heard.update (by simp) ?_
      intro op' hEq
      cases hPlace.symm.trans hEq
      exact hSignal rfl
  | @broadcast t op reply hPlace hNotice =>
    cases reply <;> cases hNotice
  | @signal t u op reply op' hPlace hNotice hAsleep =>
    apply heard_of_awake
    intro v op'' hv
    obtain ⟨_, hWoken⟩ := asleep_update (p := .idle) (by simp) hv
    obtain ⟨hNe, hOld⟩ := asleep_update (p := .lock op') (by simp) hWoken
    exact hNe ((h.heard.sleeper v op'' hOld).trans (h.heard.sleeper u op' hAsleep).symm)

theorem inv_of_roles (h : ReachableUnder (system T) (fun _ => Roles r) s) : ∃ base, Inv r base s := by
  refine ReachableUnder.invariant (I := fun s => ∃ base, Inv r base s) ?_ ?_ h
  · rintro s ⟨object, rfl, rfl⟩
    exact ⟨_, Code.linear_initial _, nofun, heard_of_awake nofun⟩
  · rintro s a t ⟨base, hInv⟩ hRoles hStep
    obtain ⟨base', hLinear⟩ := hInv.linear.step hStep
    refine ⟨base', hLinear, hInv.called.step ?_ hStep, heard_step hInv hStep⟩
    rintro t op rfl
    exact hRoles

/-- A signal is never lost, although it is given after the unlock. -/
theorem prompt_of_roles (h : ReachableUnder (system T) (fun _ => Roles r) s) : Prompt r s := by
  obtain ⟨base, hInv⟩ := inv_of_roles h
  exact ⟨fun hFree => hInv.linear.free hFree ▸ hInv.counts.1, hInv.counts.2, hInv.heard⟩

end

def started : State Bool Int Op Stmt Reply := Code.initial reloginNum

def failure (n : Nat) : List (Act Bool Op) := .call false .fail :: List.replicate n (.run false)

def fourth : List (Act Bool Op) :=
  [.call true (.relogin true), .run true, .run true] ++ failure 5 ++ failure 5 ++ failure 5 ++ failure 3 ++
    [.signal false true] ++ List.replicate 10 (.run true)

theorem prompt_fourth : ∃ s, s.log =
    [(false, .fail, .counted), (false, .fail, .counted), (false, .fail, .counted), (false, .fail, .signalled),
      (true, .relogin true, .tried true)] ∧ Prompt true s := by
  have hRun : ((system Bool).run started fourth).map State.log = some
      [(false, .fail, .counted), (false, .fail, .counted), (false, .fail, .counted), (false, .fail, .signalled),
        (true, .relogin true, .tried true)] := rfl
  have hRoles : ∀ a ∈ fourth, Roles true a := by decide
  obtain ⟨s, hRun, hLog⟩ := Option.map_eq_some_iff.mp hRun
  have hStart : (system Bool).start started := ⟨_, rfl, rfl⟩
  exact ⟨s, hLog, prompt_of_roles (.of_run (.start hStart) (.of_forall (fun _ a ha => hRoles a ha) hRun) hRun)⟩

section

variable {T : Type} [DecidableEq T] [Fintype T] {r : T} {s s' : State T Int Op Stmt Reply}

/-- Without further calls the threads come to rest, and a relogin thread that
sleeps then has answered every signal by a login. -/
theorem signals_answered (h : ReachableUnder (system T) (fun _ => Roles r) s) {labels : List (Act T Op)}
    (hOwn : ∀ a ∈ labels, a.own = true) (hRun : (system T).run s labels = some s') :
    labels.length ≤ counter.remaining s ∧
      ((∀ a : Act T Op, a.own = true → (system T).step s' a = none) →
        (∀ t, t ≠ r → s'.place t = .idle) ∧
          (s'.place r = .idle ∨ (since s'.replies).signals = 0)) := by
  refine ⟨(Nat.le_add_right _ _).trans (Code.length_run hOwn rfl hRun), ?_⟩
  intro hStuck
  have hMeets : (system T).Meets (fun _ => Roles r) s labels := by
    refine .of_forall ?_ hRun
    intro t a ha
    have hAct := hOwn a ha
    cases a with
    | call => cases hAct
    | run | signal | wakeup => trivial
  obtain ⟨base, hInv⟩ := inv_of_roles (h.of_run hMeets hRun)
  have hStill := Code.still_of_stuck hInv.linear hStuck
  constructor
  · intro t hNe
    obtain hIdle | ⟨op, ht⟩ := hStill t
    · exact hIdle
    · exact absurd (hInv.heard.sleeper t op ht) hNe
  · obtain hIdle | ⟨op, hr⟩ := hStill r
    · exact .inl hIdle
    · refine .inr (Nat.eq_zero_of_not_pos fun hPos => ?_)
      obtain ⟨u, op', hu⟩ := hInv.heard.kept r op hr hPos
      obtain hIdle | ⟨op'', hAsleep⟩ := hStill u
      · cases hu.symm.trans hIdle
      · cases hu.symm.trans hAsleep

end

/-- The thread waits again after the login that the fourth failure led to. -/
theorem answered_fourth : ∃ s : State Bool Int Op Stmt Reply,
    s.place true = .asleep (.relogin true) ∧ s.log.length = 5 ∧ (since s.replies).signals = 0 := by
  have hStart : ReachableUnder (system Bool) (fun _ => Roles true) started := .start ⟨_, rfl, rfl⟩
  have hRoles : ∀ a ∈ fourth ++ [.call true (.relogin true)], Roles true a := by decide
  have hRun : ((system Bool).run started (fourth ++ [.call true (.relogin true)])).bind (fun s =>
      ((system Bool).run s [.run true, .run true]).map fun t => (t.place true, t.place false, t.log.length)) =
      some (.asleep (.relogin true), .idle, 5) := rfl
  obtain ⟨s, hCalls, hRest⟩ := Option.bind_eq_some_iff.mp hRun
  obtain ⟨t, hOwn, hPlaces⟩ := Option.map_eq_some_iff.mp hRest
  obtain ⟨hTrue, hPair⟩ := Prod.mk.inj hPlaces
  obtain ⟨hFalse, hLength⟩ := Prod.mk.inj hPair
  have hStuck : ∀ a : Act Bool Op, a.own = true → (system Bool).step t a = none := by
    intro a ha
    cases a with
    | call | wakeup => cases ha
    | run u => cases u <;> simp [system, Code.system, Code.step, hTrue, hFalse]
    | signal u v => cases u <;> simp [system, Code.system, Code.step, hTrue, hFalse]
  have hReach := ReachableUnder.of_run hStart (.of_forall (fun _ a ha => hRoles a ha) hCalls) hCalls
  obtain ⟨_, hAnswered⟩ := signals_answered hReach (by simp [Act.own]) hOwn
  obtain hIdle | hZero := (hAnswered hStuck).2
  · cases hTrue.symm.trans hIdle
  · exact ⟨t, hTrue, hLength, hZero⟩

end MonitorSystem.ReloginLock
