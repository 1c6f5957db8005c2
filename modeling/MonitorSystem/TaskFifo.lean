import MonitorSystem.Lib.Fifo
import MonitorSystem.Lib.Refine
import MonitorSystem.ThreadPool

/-! # The task queue as a bounded first-in first-out queue

Each operation is atomic under task_lock. The replies are what push returns
and what the slot handed out by pop contains.
-/

namespace MonitorSystem.TaskFifo

open Msg ThreadPool Lib Lib.Refine

def intMax : Nat := 2147483647

inductive Op
  | push (arg : MonitorMsgDs)
  | pop

inductive Reply
  | returned (res : Int)
  | slot (msg : MonitorMsgDs)
deriving DecidableEq

def ring : Machine TaskQueue Op Reply where
  step
    | tp, .push arg => (push tp arg).map fun r => (r.2, .returned r.1)
    | tp, .pop => (pop tp).map fun r => (r.2, .slot (tp.data r.1))

/-- The purpose of the ring: a queue that refuses what does not fit. -/
def fifo (capacity : Nat) : Machine (Fifo MonitorMsgDs capacity) Op Reply where
  step
    | q, .push arg => match q.put arg with
      | some q' => some (q', .returned 1)
      | none => some (q, .returned (-1))
    | q, .pop => q.take.map fun r => (r.2, .slot r.1)

/-- The values that the operations compute are ints. -/
structure InInt (tp : TaskQueue) : Prop where
  headNext : tp.head + 1 ≤ intMax
  tailNext : tp.tail + 1 ≤ intMax
  distance_nonneg : 0 ≤ (tp.tail : Int) - tp.head + tp.taskQueueSize
  distance_le : (tp.tail : Int) - tp.head + tp.taskQueueSize ≤ intMax
  curNum_nonneg : 0 ≤ tp.curNum
  curNum_le : tp.curNum + 1 ≤ intMax

/-- The queued messages are q, by every description of the fill level, and no
operation disturbs a queued slot. -/
structure Implements (n : Nat) (tp : TaskQueue) (q : Fifo MonitorMsgDs (n - 1)) : Prop where
  head_lt : tp.head < n
  tail_lt : tp.tail < n
  curNum : tp.curNum = q.items.length
  length : length tp = some (q.items.length : Int)
  isEmpty : isEmpty tp = true ↔ q.items.length = 0
  slots : ∀ i m, q.items[i]? = some m → tp.data ((tp.head + i) % n) = m
  refused : ∀ arg, push tp arg = some (-1, tp) ↔ q.items.length = n - 1
  accepted : ∀ arg, q.items.length ≠ n - 1 → ∃ tp', push tp arg = some (1, tp')
  waits : pop tp = none ↔ q.items.length = 0
  push_kept : ∀ arg r, push tp arg = some r → ∀ i < q.items.length,
    r.2.data ((tp.head + i) % n) = tp.data ((tp.head + i) % n)
  pop_kept : ∀ r, pop tp = some r → r.2.data = tp.data
  inInt : InInt tp

def Holds (n : Nat) (tp : TaskQueue) (q : Fifo MonitorMsgDs (n - 1)) : Prop :=
  ∃ pushed popped, Tracks tp pushed popped ∧ tp.taskQueueSize = n ∧ q.items = pushed.drop popped

section Holds

variable {n : Nat} {tp : TaskQueue} {q : Fifo MonitorMsgDs (n - 1)} {pushed : List MonitorMsgDs}
  {popped : Nat}

theorem holds_init (hn : 0 < n) (memory : Nat → MonitorMsgDs) :
    Holds n (taskQueueInit n memory) Fifo.empty := ⟨[], 0, tracks_init hn memory, rfl, rfl⟩

theorem length_items (h : Tracks tp pushed popped) (hItems : q.items = pushed.drop popped) :
    pushed.length = popped + q.items.length := by
  have hLe := h.popped_le
  rw [hItems, List.length_drop]
  omega

theorem step_push (h : Holds n tp q) (arg : MonitorMsgDs) :
    Matched (Holds n) (ring.step tp (.push arg)) ((fifo (n - 1)).step q (.push arg)) := by
  obtain ⟨pushed, popped, hTracks, hSize, hItems⟩ := h
  have hLength := length_items hTracks hItems
  have hPos := hTracks.size_pos
  simp only [ring, fifo]
  obtain ⟨hFull, hRefused⟩ | ⟨hFree, tp', hPush, _, hSame, hNext⟩ := hTracks.push_cases arg
  · rw [hRefused, Fifo.put_full (by omega)]
    exact .some ⟨rfl, pushed, popped, hTracks, hSize, hItems⟩
  · obtain ⟨q', hPut, hItems'⟩ := Fifo.put_free (q := q) (by omega) arg
    rw [hPush, hPut]
    refine .some ⟨rfl, pushed ++ [arg], popped, hNext, hSame.trans hSize, ?_⟩
    rw [hItems', hItems, List.drop_append_of_le_length hTracks.popped_le]

theorem step_pop (h : Holds n tp q) :
    Matched (Holds n) (ring.step tp .pop) ((fifo (n - 1)).step q .pop) := by
  obtain ⟨pushed, popped, hTracks, hSize, hItems⟩ := h
  have hLength := length_items hTracks hItems
  simp only [ring, fifo]
  cases hQueued : q.items with
  | nil =>
    have hEmpty : isEmpty tp = true := by
      rw [hTracks.isEmpty_iff, hLength, hQueued]
      rfl
    rw [pop, if_pos hEmpty, Fifo.take_nil hQueued]
    exact .none
  | cons m rest =>
    have hNe : isEmpty tp ≠ true := by
      rw [Ne, hTracks.isEmpty_iff, hLength, hQueued, List.length_cons]
      omega
    obtain ⟨⟨slot, tp'⟩, hPop⟩ : ∃ r, pop tp = some r := by
      rw [pop, if_neg hNe]
      exact ⟨_, rfl⟩
    obtain ⟨_, hSlot, _, hSize', hNext⟩ := hTracks.pop_some hPop
    obtain ⟨q', hTake, hItems'⟩ := Fifo.take_cons hQueued
    have hDrop : pushed.drop popped = m :: rest := hItems.symm.trans hQueued
    have hHead : pushed[popped]? = some m := by
      rw [← Nat.add_zero popped, ← List.getElem?_drop, hDrop]
      rfl
    rw [hPop, hTake]
    refine .some ⟨?_, pushed, popped + 1, hNext, hSize'.trans hSize, ?_⟩
    · exact congrArg Reply.slot ((congrArg tp.data hSlot).trans (hTracks.data_head hHead))
    · rw [hItems', ← List.drop_drop, hDrop]
      rfl

theorem ring_simulates (n : Nat) : Simulates ring (fifo (n - 1)) (Holds n) := by
  intro tp q op h
  cases op with
  | push arg => exact step_push h arg
  | pop => exact step_pop h

theorem Holds.inInt (h : Holds n tp q) (hInt : 2 * n ≤ intMax) : InInt tp := by
  obtain ⟨pushed, popped, hTracks, rfl, _⟩ := h
  have hHead : tp.head < tp.taskQueueSize := hTracks.head ▸ Nat.mod_lt _ hTracks.size_pos
  have hTail : tp.tail < tp.taskQueueSize := hTracks.tail ▸ Nat.mod_lt _ hTracks.size_pos
  have hCur := hTracks.curNum
  have hLe := hTracks.popped_le
  have hLap := hTracks.lt_lap
  constructor
  all_goals omega

theorem Holds.implements (h : Holds n tp q) (hInt : 2 * n ≤ intMax) : Implements n tp q := by
  have hInInt := h.inInt hInt
  obtain ⟨pushed, popped, hTracks, rfl, hItems⟩ := h
  have hLength := length_items hTracks hItems
  have hLap := hTracks.lt_lap
  have hPos := hTracks.size_pos
  have hAccepted : ∀ arg, q.items.length ≠ tp.taskQueueSize - 1 → ∃ tp', push tp arg = some (1, tp') := by
    intro arg hNe
    obtain ⟨tp', hPush, _⟩ := hTracks.push_free (by omega) arg
    exact ⟨tp', hPush⟩
  have hRefused : ∀ arg, push tp arg = some (-1, tp) ↔ q.items.length = tp.taskQueueSize - 1 := by
    intro arg
    constructor
    · intro hRes
      by_contra hNe
      obtain ⟨tp', hPush⟩ := hAccepted arg hNe
      cases hRes.symm.trans hPush
    · intro hFull
      exact hTracks.push_full (by omega) arg
  refine ⟨?_, ?_, ?_, ?_, ?_, ?_, hRefused, hAccepted, ?_, ?_, ?_, hInInt⟩
  · exact hTracks.head ▸ Nat.mod_lt _ hPos
  · exact hTracks.tail ▸ Nat.mod_lt _ hPos
  · rw [hTracks.curNum]
    omega
  · rw [hTracks.length_eq]
    exact congrArg some (by omega)
  · rw [hTracks.isEmpty_iff]
    omega
  · intro i m hm
    rw [hItems] at hm
    rw [List.getElem?_drop] at hm
    exact hTracks.data_slot hm
  · rw [pop]
    split
    · rename_i hEmpty
      rw [hTracks.isEmpty_iff] at hEmpty
      exact iff_of_true rfl (by omega)
    · rename_i hNe
      rw [hTracks.isEmpty_iff] at hNe
      exact iff_of_false (Option.some_ne_none _) (by omega)
  · intro arg r hPush i hi
    obtain ⟨_, hRefused⟩ | ⟨_, tp', hPush', hData, _⟩ := hTracks.push_cases arg
    · cases hRefused.symm.trans hPush
      rfl
    · cases hPush'.symm.trans hPush
      rw [hData]
      exact Function.update_of_ne (hTracks.slot_ne_tail (by omega)) _ _
  · intro r hPop
    exact (hTracks.pop_some hPop).2.2.1

end Holds

/-- Whatever the order of pushes and pops, ring and queue of capacity n - 1
wait at the same pops, reply alike, and end in corresponding states. -/
theorem ring_implements_fifo (n : Nat) (hn : 1 ≤ n) (hInt : 2 * n ≤ intMax)
    (memory : Nat → MonitorMsgDs) (ops : List Op) :
    Matched (Implements n) (ring.run (taskQueueInit n memory) ops) ((fifo (n - 1)).run Fifo.empty ops) := by
  have hRun := (ring_simulates n).run ops (holds_init hn memory)
  exact hRun.mono fun tp q h => h.implements hInt

/-- Three slots, wrapped around once, with a refused push in between. -/
theorem ring_implements_fifo_three : 1 ≤ 3 ∧ 2 * 3 ≤ intMax ∧
    ∃ tp, Implements 3 tp ⟨[cleared sysDisk], by decide⟩ ∧ tp.head = 2 ∧ tp.tail = 0 := by
  refine ⟨by decide, by decide, ?_⟩
  have hRun := ring_implements_fifo 3 (by decide) (by decide) (fun _ => cleared 0)
    [.push (cleared sysMem), .push (cleared sysCpu), .push (cleared sysSys), .pop,
      .push (cleared sysDisk), .pop]
  obtain ⟨_, hImplements⟩ := (Option.rel_some_some ..).mp hRun
  exact ⟨_, hImplements, rfl, rfl⟩

end MonitorSystem.TaskFifo
