import MonitorSystem.Lib.Mutex
import MonitorSystem.TaskFifo

/-! # push and pop statement by statement

Any number of threads call push and pop, and every statement between the lock
and the unlock of task_lock is a step of its own. pop sleeps on task_cond while
the queue is empty; a push that was not refused broadcasts after its unlock.
-/

namespace MonitorSystem.QueueLock

open Msg ThreadPool TaskFifo Lib Lib.Refine Lib.Transition Lib.Mutex

inductive Stmt
  | full (arg : MonitorMsgDs)
  | refuse
  | store (arg : MonitorMsgDs)
  | more
  | tail
  | accept
  | empty
  | fewer
  | msg
  | head (slot : Nat)
  | give (slot : Nat)

def entry : Op → Stmt
  | .push arg => .full arg
  | .pop => .empty

/-- The reply of pop is what the slot holds at the unlock. -/
def exec (tp : TaskQueue) : Stmt → Effect TaskQueue Stmt Reply
  | .full arg =>
    if tp.head = (tp.tail + 1) % tp.taskQueueSize then .goto tp .refuse else .goto tp (.store arg)
  | .refuse => .unlock (.returned (-1))
  | .store arg => .goto { tp with data := Function.update tp.data tp.tail arg } .more
  | .more => .goto { tp with curNum := tp.curNum + 1 } .tail
  | .tail => .goto { tp with tail := (tp.tail + 1) % tp.taskQueueSize } .accept
  | .accept => .unlock (.returned 1)
  | .empty => if isEmpty tp then .wait else .goto tp .fewer
  | .fewer => .goto { tp with curNum := tp.curNum - 1 } .msg
  | .msg => .goto tp (.head tp.head)
  | .head slot => .goto { tp with head := (tp.head + 1) % tp.taskQueueSize } (.give slot)
  | .give slot => .unlock (.slot (tp.data slot))

def notice : Reply → Notice
  | .returned res => if res = 1 then .broadcast else .silent
  | .slot _ => .silent

def rank : Stmt → Nat
  | .full _ | .empty => 4
  | .store _ | .fewer => 3
  | .more | .msg => 2
  | .tail | .head _ => 1
  | .refuse | .accept | .give _ => 0

theorem rank_le (k : Stmt) : rank k ≤ 4 := by
  cases k <;> simp only [rank] <;> omega

theorem rank_lt {tp tp' : TaskQueue} {k k' : Stmt} (h : exec tp k = .goto tp' k') : rank k' < rank k := by
  cases k with
  | full arg =>
    rw [exec] at h
    split at h <;> cases h <;> simp only [rank] <;> omega
  | empty =>
    rw [exec] at h
    split at h <;> cases h
    decide
  | refuse | accept | give => cases h
  | store | more | tail | fewer | msg | head =>
    cases h
    simp only [rank]
    omega

theorem first {tp tp' : TaskQueue} {k k' : Stmt} (h : exec tp k = .goto tp' k') : exec tp' k' ≠ .wait := by
  cases k with
  | full arg =>
    rw [exec] at h
    split at h <;> cases h <;> exact nofun
  | empty =>
    rw [exec] at h
    split at h <;> cases h
    exact nofun
  | refuse | accept | give => cases h
  | store | more | tail | fewer | msg | head =>
    cases h
    exact nofun

def queue : Code TaskQueue Op Stmt Reply where
  entry := entry
  exec := exec
  notice := notice
  rank := rank
  longest := 4
  rank_le := rank_le
  rank_lt := rank_lt
  first := first

/-- A queue of size 0 is left out: the test of its first push ends the process. -/
def system (T : Type) [DecidableEq T] [Fintype T] (n : Nat) :
    System (State T TaskQueue Op Stmt Reply) (Act T Op) :=
  queue.system fun tp => 0 < n ∧ ∃ memory, tp = taskQueueInit n memory

theorem alone_refused {tp : TaskQueue} (hFull : tp.head = (tp.tail + 1) % tp.taskQueueSize) (arg : MonitorMsgDs) :
    queue.alone tp (.full arg) = some (tp, .returned (-1)) := by
  have hTest : queue.exec tp (.full arg) = .goto tp .refuse := if_pos hFull
  rw [queue.alone_goto hTest, queue.alone_unlock rfl]

theorem alone_stored {tp : TaskQueue} (hFree : ¬ tp.head = (tp.tail + 1) % tp.taskQueueSize) (arg : MonitorMsgDs) :
    queue.alone tp (.full arg) = some ({ tp with
      data := Function.update tp.data tp.tail arg
      curNum := tp.curNum + 1
      tail := (tp.tail + 1) % tp.taskQueueSize }, .returned 1) := by
  have hTest : queue.exec tp (.full arg) = .goto tp (.store arg) := if_neg hFree
  rw [queue.alone_goto hTest, queue.alone_goto rfl, queue.alone_goto rfl, queue.alone_goto rfl, queue.alone_unlock rfl]

theorem alone_push {tp : TaskQueue} (hSize : 0 < tp.taskQueueSize) (arg : MonitorMsgDs) :
    queue.alone tp (.full arg) = (push tp arg).map fun r => (r.2, .returned r.1) := by
  rw [push, if_neg hSize.ne']
  by_cases hFull : tp.head = (tp.tail + 1) % tp.taskQueueSize
  · rw [alone_refused hFull, if_pos hFull]
    rfl
  · rw [alone_stored hFull, if_neg hFull]
    rfl

theorem alone_pop (tp : TaskQueue) :
    queue.alone tp .empty = (pop tp).map fun r => (r.2, .slot (tp.data r.1)) := by
  by_cases hEmpty : isEmpty tp = true
  · have hTest : queue.exec tp .empty = .wait := if_pos hEmpty
    rw [queue.alone_wait hTest, pop, if_pos hEmpty, Option.map_none]
  · have hTest : queue.exec tp .empty = .goto tp .fewer := if_neg hEmpty
    rw [queue.alone_goto hTest, queue.alone_goto rfl, queue.alone_goto rfl, queue.alone_goto rfl,
      queue.alone_unlock rfl, pop, if_neg hEmpty]
    rfl

theorem atomic_simulates (n : Nat) : Simulates queue.atomic (fifo (n - 1)) (Holds n) := by
  intro tp q op h
  have hSame : queue.atomic.step tp op = ring.step tp op := by
    obtain ⟨_, _, hTracks, _⟩ := h
    cases op with
    | push arg => exact alone_push hTracks.size_pos arg
    | pop => exact alone_pop tp
  rw [hSame]
  exact ring_simulates n tp q op h

theorem announces : queue.Announces := by
  intro tp tp' op op' r hWait hDone
  cases op with
  | push arg =>
    change exec tp (.full arg) = _ at hWait
    rw [exec] at hWait
    split at hWait <;> cases hWait
  | pop =>
    cases op' with
    | pop =>
      rw [queue.alone_wait hWait] at hDone
      cases hDone
    | push arg =>
      by_cases hFull : tp.head = (tp.tail + 1) % tp.taskQueueSize
      · cases (alone_refused hFull arg).symm.trans hDone
        exact .inl hWait
      · cases (alone_stored hFull arg).symm.trans hDone
        exact .inr rfl

section

variable {T : Type} [DecidableEq T] [Fintype T] {n : Nat} {s s' : State T TaskQueue Op Stmt Reply}

/-- What the threads see of the queue: the results of a bounded queue on which
the operations run one after the other, in the order of their unlocks. -/
structure Linearized (n : Nat) (s : State T TaskQueue Op Stmt Reply) : Prop where
  queued : ∃ q, (fifo (n - 1)).run Fifo.empty s.ops = some (q, s.replies) ∧
    (s.owner = none → Implements n s.object q)
  exclusive : ∀ t u, (s.place t).stmt.isSome → (s.place u).stmt.isSome → t = u

theorem linear_of_run (h : Reachable (system T n) s) :
    ∃ memory base, queue.Linear (taskQueueInit n memory) base s := by
  obtain ⟨start, base, ⟨_, memory, rfl⟩, hLinear⟩ := Code.linear_of_reachable h
  exact ⟨memory, base, hLinear⟩

theorem awaited_of_run (h : Reachable (system T n) s) :
    ∃ start base, queue.Linear start base s ∧ queue.Awaited base s.place := by
  refine Reachable.invariant
    (I := fun s => ∃ start base, queue.Linear start base s ∧ queue.Awaited base s.place) ?_ ?_ h
  · rintro s ⟨object, _, rfl⟩
    exact ⟨object, object, Code.linear_initial object, nofun⟩
  · rintro s a t ⟨start, base, hLinear, hAwaited⟩ hStep
    obtain ⟨base', hNext⟩ := hLinear.step hStep
    exact ⟨start, base', hNext, hAwaited.step announces hLinear hNext hStep⟩

/-- push and pop are linearizable: whatever the order of their statements, the
threads see a first-in first-out queue of capacity n - 1. -/
theorem linearized_of_reachable (hn : 1 ≤ n) (hInt : 2 * n ≤ intMax) (h : Reachable (system T n) s) :
    Linearized n s := by
  obtain ⟨memory, base, hLinear⟩ := linear_of_run h
  constructor
  · have hRun := (atomic_simulates n).run s.ops (holds_init hn memory)
    rw [hLinear.history] at hRun
    generalize hFifo : (fifo (n - 1)).run Fifo.empty s.ops = result at hRun
    cases hRun with
    | @some _ r hMatched =>
      obtain ⟨hReplies, hHolds⟩ := hMatched
      refine ⟨r.1, congrArg some (Prod.ext rfl hReplies.symm), ?_⟩
      intro hFree
      have hImplements := hHolds.implements hInt
      rwa [hLinear.free hFree] at hImplements
  · intro t u ht hu
    exact hLinear.alone_inside ((hLinear.owned u).mpr hu) ht

end

def started (T : Type) (n : Nat) : State T TaskQueue Op Stmt Reply :=
  Code.initial (taskQueueInit n fun _ => cleared 0)

theorem start_started (T : Type) [DecidableEq T] [Fintype T] {n : Nat} (hn : 0 < n) : (system T n).start (started T n) :=
  ⟨_, ⟨hn, _, rfl⟩, rfl⟩

def early : List (Act Bool Op) :=
  [.call true .pop, .run true, .run true, .call false (.push (cleared sysMem))] ++
    List.replicate 7 (.run false) ++ List.replicate 6 (.run true)

theorem linearized_early : ∃ s : State Bool TaskQueue Op Stmt Reply,
    s.log = [(false, .push (cleared sysMem), .returned 1), (true, .pop, .slot (cleared sysMem))] ∧
      Linearized 2 s := by
  have hRun : ((system Bool 2).run (started Bool 2) early).map State.log =
      some [(false, .push (cleared sysMem), .returned 1), (true, .pop, .slot (cleared sysMem))] := rfl
  obtain ⟨s, hReach, hLog⟩ := Reachable.of_observed (start_started _ (by decide)) hRun
  exact ⟨s, hLog, linearized_of_reachable (by decide) (by decide) hReach⟩

section

variable {T : Type} [DecidableEq T] [Fintype T] {n : Nat} {s s' : State T TaskQueue Op Stmt Reply}

/-- A run on which no further call is made is finite. Where it cannot be
continued every push has returned, and a pop waits only if the queue is empty. -/
theorem comes_to_rest (h : Reachable (system T n) s) {labels : List (Act T Op)}
    (hOwn : ∀ a ∈ labels, a.own = true) (hRun : (system T n).run s labels = some s') :
    labels.length ≤ queue.remaining s ∧
      ((∀ a : Act T Op, a.own = true → (system T n).step s' a = none) →
        (∀ t, s'.place t = .idle ∨ s'.place t = .asleep .pop) ∧
          ∀ t, s'.place t = .asleep .pop → isEmpty s'.object = true) := by
  refine ⟨(Nat.le_add_right _ _).trans (Code.length_run hOwn rfl hRun), ?_⟩
  intro hStuck
  obtain ⟨start, base, hLinear, hAwaited⟩ := awaited_of_run (h.of_run hRun)
  have hRests := Code.rests_of_stuck hLinear hAwaited hStuck
  have hPop : ∀ t op, s'.place t = .asleep op → op = .pop ∧ isEmpty s'.object = true := by
    intro t op ht
    have hWait := hRests.waits t op ht
    cases op with
    | push arg =>
      change exec s'.object (.full arg) = _ at hWait
      rw [exec] at hWait
      split at hWait <;> cases hWait
    | pop =>
      change exec s'.object .empty = _ at hWait
      rw [exec] at hWait
      split at hWait
      · exact ⟨rfl, ‹_›⟩
      · cases hWait
  constructor
  · intro t
    obtain hIdle | ⟨op, ht⟩ := hRests.still t
    · exact .inl hIdle
    · rw [(hPop t op ht).1] at ht
      exact .inr ht
  · intro t ht
    exact (hPop t .pop ht).2

end

/-- A pop alone: it sleeps over an empty queue. -/
theorem sleeps_over_empty : ∃ s : State Bool TaskQueue Op Stmt Reply,
    s.place true = .asleep .pop ∧ isEmpty s.object = true := by
  have hCalled : Reachable (system Bool 2)
      { started Bool 2 with place := Function.update (fun _ => .idle) true (.lock .pop) } :=
    (Reachable.of_run (.start (start_started _ (by decide))) (show (system Bool 2).run _ [.call true .pop] = _ from rfl))
  have hRun : ((system Bool 2).run
      { started Bool 2 with place := Function.update (fun _ => .idle) true (.lock .pop) }
      [.run true, .run true]).map (fun s => (s.place true, s.place false)) = some (.asleep .pop, .idle) := rfl
  obtain ⟨s, hRun, hPlaces⟩ := Option.map_eq_some_iff.mp hRun
  obtain ⟨hTrue, hFalse⟩ := Prod.mk.inj hPlaces
  have hStuck : ∀ a : Act Bool Op, a.own = true → (system Bool 2).step s a = none := by
    intro a hOwn
    cases a with
    | call | wakeup => cases hOwn
    | run t => cases t <;> simp [system, Code.system, Code.step, hTrue, hFalse]
    | signal t u => cases t <;> simp [system, Code.system, Code.step, hTrue, hFalse]
  obtain ⟨_, hRest⟩ := comes_to_rest hCalled (by simp [Act.own]) hRun
  exact ⟨s, hTrue, (hRest hStuck).2 true hTrue⟩

end MonitorSystem.QueueLock
