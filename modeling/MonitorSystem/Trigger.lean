import MonitorSystem.Lib.Transition
import MonitorSystem.Relogin

/-! # When the client reconnects

A round is one send of a report over TCP, after which the relogin thread runs
until it waits again. It leaves its wait when try_to_relogin signals, or without
a signal, and then looks at the counter.
-/

namespace MonitorSystem.Trigger

open Msg Report SendData Relogin Lib.CString Lib.Transition

structure Round where
  failed : Bool
  attempted : Bool
deriving DecidableEq

structure State where
  client : Client
  log : List Round

/-- The report and what becomes of its send, whether the wait ends without a
signal, and what a login would meet with. -/
structure Turn where
  kind : Kind
  str : Bytes
  io : Io
  spurious : Bool
  attempt : Attempt

/-- The send returns an error, or raises SIGPIPE and ends the client. -/
def Turn.failed (t : Turn) : Bool := t.io.send = .error ∨ t.io.send = .brokenPipe

def step (s : State) (t : Turn) : Option State :=
  if s.client.running = false then none
  else
    let c := sendTcp t.kind t.str t.io s.client
    let woken := s.client.signals < c.signals ∨ t.spurious = true
    if c.running = true ∧ woken ∧ ¬ 0 < c.checkForRelogin then
      some ⟨relogin t.attempt c, s.log ++ [⟨t.failed, true⟩]⟩
    else some ⟨c, s.log ++ [⟨t.failed, false⟩]⟩

def system : System State Turn where
  start s := s.client.running = true ∧ s.client.checkForRelogin = reloginNum ∧ s.log = []
  step := step

def Round.count (failures : Nat) (r : Round) : Nat :=
  if r.attempted = true then 0 else if r.failed = true then failures + 1 else failures

/-- An attempt follows exactly the third failed send since the one before it;
so many have failed so far. -/
def OnTime : Nat → List Round → Prop
  | _, [] => True
  | failures, r :: rest =>
    (r.attempted = true ↔ r.failed = true ∧ failures + 1 = 3) ∧ OnTime (r.count failures) rest

instance decidableOnTime : ∀ failures log, Decidable (OnTime failures log)
  | _, [] => isTrue trivial
  | failures, r :: rest =>
    have := decidableOnTime (r.count failures) rest
    inferInstanceAs (Decidable (_ ∧ _))

def pending (log : List Round) : Nat := log.foldl Round.count 0

structure Triggered (s : State) : Prop where
  nonneg : 0 ≤ s.client.checkForRelogin
  atMost : s.client.checkForRelogin ≤ 3
  onTime : OnTime 0 s.log

/-- Where a send is the third to fail, it returns an error, all three were memory reports, this one
is kept, and the wait just then ends without a signal. -/
def InTime (s : State) (t : Turn) : Prop :=
  t.failed = true → pending s.log = 2 →
    t.io.send = .error ∧ t.kind = .mem ∧ s.client.checkForRelogin = 1 ∧
      (persist t.kind t.str t.io s.client).running = true ∧ t.spurious = true

instance (s : State) (t : Turn) : Decidable (InTime s t) := inferInstanceAs (Decidable (_ → _ → _))

/-- Only memory reports are counted, so the counter lags behind the failures. -/
structure Inv (s : State) : Prop where
  onTime : OnTime 0 s.log
  pending : pending s.log ≤ 2
  counted : 3 ≤ s.client.checkForRelogin + Trigger.pending s.log
  atMost : s.client.checkForRelogin ≤ 3

theorem Inv.triggered {s : State} (h : Inv s) : Triggered s := by
  obtain ⟨hTime, hPending, hCounted, hMost⟩ := h
  exact ⟨by omega, hMost, hTime⟩

theorem onTime_concat {failures : Nat} {log : List Round} {r : Round} :
    OnTime failures (log ++ [r]) ↔ OnTime failures log ∧
      (r.attempted = true ↔ r.failed = true ∧ log.foldl Round.count failures + 1 = 3) := by
  induction log generalizing failures with
  | nil =>
    rw [List.nil_append, OnTime, OnTime, OnTime, List.foldl_nil]
    exact and_comm
  | cons first log ih => rw [List.cons_append, OnTime, OnTime, ih, List.foldl_cons, and_assoc]

theorem pending_concat (log : List Round) (r : Round) : pending (log ++ [r]) = r.count (pending log) := by
  rw [pending, List.foldl_append]
  rfl

theorem relogin_checkForRelogin (a : Attempt) (c : Client) : (relogin a c).checkForRelogin = reloginNum := by
  rw [relogin]
  split
  · rfl
  · split
    · rw [replays_checkForRelogin]
    · rfl

theorem persist_counters (kind : Kind) (str : Bytes) (io : Io) (c : Client) :
    (persist kind str io c).checkForRelogin = c.checkForRelogin ∧ (persist kind str io c).signals = c.signals := by
  rw [persist]
  split
  · exact ⟨rfl, rfl⟩
  · split <;> exact ⟨rfl, rfl⟩

def Turn.counted (t : Turn) (c : Client) : Prop :=
  t.io.send = .error ∧ t.kind = .mem ∧ (persist t.kind t.str t.io c).running = true

theorem Turn.counted_failed {t : Turn} {c : Client} (h : t.counted c) : t.failed = true :=
  decide_eq_true (.inl h.1)

theorem sendTcp_counters (t : Turn) {c : Client} (hCounter : c.checkForRelogin ≠ 0) :
    (sendTcp t.kind t.str t.io c).signals = c.signals ∧
      ((t.counted c ∧ (sendTcp t.kind t.str t.io c).running = true ∧
          (sendTcp t.kind t.str t.io c).checkForRelogin = c.checkForRelogin - 1) ∨
        (¬ t.counted c ∧ (sendTcp t.kind t.str t.io c).checkForRelogin = c.checkForRelogin)) := by
  obtain ⟨hSame, hSignals⟩ := persist_counters t.kind t.str t.io c
  rw [sendTcp, Turn.counted]
  cases hSend : t.io.send with
  | accepted n => exact ⟨rfl, .inr ⟨fun h => by simp at h, rfl⟩⟩
  | brokenPipe => exact ⟨rfl, .inr ⟨fun h => by simp at h, rfl⟩⟩
  | error =>
    dsimp only
    split
    · rename_i hMem
      rw [tryToRelogin, if_neg (by rw [hSame]; exact hCounter)]
      exact ⟨hSignals, .inl ⟨⟨rfl, hMem⟩, hMem.2, congrArg (· - 1) hSame⟩⟩
    · rename_i hNot
      exact ⟨hSignals, .inr ⟨fun h => hNot h.2, hSame⟩⟩

theorem step_cases {s s' : State} {t : Turn} (hCounter : 0 < s.client.checkForRelogin) (h : step s t = some s') :
    (s'.log = s.log ++ [⟨t.failed, true⟩] ∧ t.counted s.client ∧ s.client.checkForRelogin = 1 ∧ t.spurious = true ∧
        s'.client.checkForRelogin = 3) ∨
      (s'.log = s.log ++ [⟨t.failed, false⟩] ∧
        ¬ (t.counted s.client ∧ s.client.checkForRelogin = 1 ∧ t.spurious = true) ∧
        ((t.counted s.client ∧ s'.client.checkForRelogin = s.client.checkForRelogin - 1) ∨
          (¬ t.counted s.client ∧ s'.client.checkForRelogin = s.client.checkForRelogin))) := by
  obtain ⟨_, h⟩ := Option.ite_none_left_eq_some.mp h
  obtain ⟨hSignals, hCases⟩ := sendTcp_counters t hCounter.ne'
  dsimp only at h
  rw [hSignals] at h
  split at h
  · rename_i hWoken
    cases h
    obtain ⟨_, hWake, hZero⟩ := hWoken
    have hSpurious := hWake.resolve_left (lt_irrefl _)
    obtain ⟨hCounted, _, hLess⟩ | ⟨_, hSame⟩ := hCases
    · exact .inl ⟨rfl, hCounted, by omega, hSpurious, relogin_checkForRelogin _ _⟩
    · omega
  · rename_i hWaits
    cases h
    refine .inr ⟨rfl, ?_, hCases.imp (fun h => ⟨h.1, h.2.2⟩) id⟩
    rintro ⟨hCounted, hOne, hSpurious⟩
    obtain ⟨_, hRunning, hLess⟩ | ⟨hNot, _⟩ := hCases
    · exact hWaits ⟨hRunning, .inr hSpurious, by omega⟩
    · exact hNot hCounted

theorem inv_step {s s' : State} {t : Turn} (h : Inv s) (hTime : InTime s t) (hStep : step s t = some s') : Inv s' := by
  obtain ⟨hOn, hPending, hCounted, hMost⟩ := h
  obtain ⟨hLog, hFails, hOne, hSpurious, hCounter⟩ | ⟨hLog, hNot, hCounter⟩ := step_cases (by omega) hStep
  · have hThird : pending s.log + 1 = 3 := by omega
    constructor
    · rw [hLog, onTime_concat]
      exact ⟨hOn, fun _ => ⟨Turn.counted_failed hFails, hThird⟩, fun _ => rfl⟩
    · rw [hLog, pending_concat, Round.count, if_pos rfl]
      omega
    · rw [hCounter]
      omega
    · rw [hCounter]
  · have hEarly : t.failed = true → pending s.log ≠ 2 := fun hFailed hTwo => by
      obtain ⟨hError, hMem, hOne, hRunning, hSpurious⟩ := hTime hFailed hTwo
      exact hNot ⟨⟨hError, hMem, hRunning⟩, hOne, hSpurious⟩
    have hCount : pending s'.log = if t.failed = true then pending s.log + 1 else pending s.log := by
      rw [hLog, pending_concat, Round.count]
      exact if_neg Bool.false_ne_true
    constructor
    · rw [hLog, onTime_concat]
      refine ⟨hOn, fun h => absurd h Bool.false_ne_true, fun ⟨hFailed, hThird⟩ => ?_⟩
      exact absurd (Nat.succ.inj hThird) (hEarly hFailed)
    · rw [hCount]
      split
      · rename_i hFailed
        have := hEarly hFailed
        omega
      · exact hPending
    · rw [hCount]
      split
      · omega
      · rename_i hSent
        obtain ⟨hLess, _⟩ | ⟨_, hSame⟩ := hCounter
        · exact absurd (Turn.counted_failed hLess) hSent
        · omega
    · omega

theorem not_triggered {s s' : State} {t : Turn} (h : Inv s) (hLate : ¬ InTime s t) (hStep : step s t = some s') :
    ¬ Triggered s' := by
  obtain ⟨hOn, hPending, hCounted, hMost⟩ := h
  rw [InTime, Classical.not_imp, Classical.not_imp] at hLate
  obtain ⟨hFailed, hTwo, hNever⟩ := hLate
  rintro ⟨_, _, hTime⟩
  obtain ⟨hLog, hFails, hOne, hSpurious, _⟩ | ⟨hLog, _⟩ := step_cases (by omega) hStep
  · exact hNever ⟨hFails.1, hFails.2.1, hOne, hFails.2.2, hSpurious⟩
  · rw [hLog, onTime_concat] at hTime
    exact absurd (hTime.2.mpr ⟨hFailed, congrArg (· + 1) hTwo⟩) Bool.false_ne_true

theorem inv_start {s : State} (h : system.start s) : Inv s := by
  obtain ⟨_, hCounter, hLog⟩ := h
  have hNum : reloginNum = 3 := rfl
  have hNone : pending s.log = 0 := by rw [hLog]; rfl
  refine ⟨?_, by omega, by omega, by omega⟩
  rw [hLog]
  trivial

/-- In a run, logins are attempted after every third failed send and at no other
time exactly when every send that is the third to fail meets the condition. -/
theorem triggered_iff {turns : List Turn} {s s' : State} (hStart : system.start s) (hRun : system.run s turns = some s') :
    system.Along Triggered s turns ↔ system.Meets InTime s turns := by
  apply Iff.symm
  apply meets_iff_along (I := Inv)
  · intro s h
    exact h.triggered
  · intro s t s' h hTime hStep
    exact inv_step h hTime hStep
  · intro s t s' h hLate hStep
    exact not_triggered h hLate hStep
  · exact inv_start hStart
  · exact hRun

def Turn.failing (kind : Kind) : Turn where
  kind := kind
  str := lit "m"
  io := ⟨.error, true, some 1, true⟩
  spurious := false
  attempt := .refused

/-- Three memory reports fail, and no login is attempted. -/
theorem third_ignored : ¬ ∀ turns s s', system.start s → system.run s turns = some s' →
    system.Along Triggered s turns := by
  intro hAll
  obtain ⟨_, hFirst⟩ := hAll (List.replicate 3 (.failing .mem)) ⟨connected, []⟩ _ ⟨rfl, rfl, rfl⟩ rfl
  obtain ⟨_, hSecond⟩ := hFirst _ rfl
  obtain ⟨_, hThird⟩ := hSecond _ rfl
  obtain ⟨_, _, hTime⟩ := hThird _ rfl
  exact absurd hTime (by decide)

def Attempt.rejected : Attempt := { Attempt.welcomed with reply := .data [0, 0, 0, 0] }

/-- Three memory reports fail and the wait ends by itself after the third. -/
theorem triggered_spuriously : system.Along Triggered ⟨connected, []⟩
    [.failing .mem, .failing .mem, { Turn.failing .mem with spurious := true, attempt := Attempt.rejected },
      .failing .cpu] :=
  (triggered_iff ⟨rfl, rfl, rfl⟩ rfl).mpr (by decide)

end MonitorSystem.Trigger
