import MonitorSystem.Lib.Ring
import MonitorSystem.Msg
import Mathlib.Data.Int.DivMod

/-! # The bounded task queue of the server

The ring is tracked by two running counters, the successful pushes and the
pops; head and tail are their remainders. One cell always stays empty.
-/

namespace MonitorSystem.ThreadPool

open Msg Lib.Ring

structure TaskQueue where
  data : Nat → MonitorMsgDs
  taskQueueSize : Nat
  head : Nat
  tail : Nat
  curNum : Int

/-- Neither result of malloc is looked at: both calls are taken to succeed, and memory is what the block
for the messages holds. -/
def taskQueueInit (taskQueueSize : Nat) (memory : Nat → MonitorMsgDs) : TaskQueue where
  data := memory
  taskQueueSize := taskQueueSize
  head := 0
  tail := 0
  curNum := 0

def isEmpty (tp : TaskQueue) : Bool := tp.head == tp.tail

/-- None for a size of 0: the remainder ends the process. -/
def length (tp : TaskQueue) : Option Int :=
  if tp.taskQueueSize = 0 then none
  else some (((tp.tail : Int) - tp.head + tp.taskQueueSize).tmod tp.taskQueueSize)

/-- None for a size of 0, as in length. -/
def push (tp : TaskQueue) (arg : MonitorMsgDs) : Option (Int × TaskQueue) :=
  if tp.taskQueueSize = 0 then none
  else if tp.head = (tp.tail + 1) % tp.taskQueueSize then some (-1, tp)
  else some (1, { tp with
    data := Function.update tp.data tp.tail arg
    curNum := tp.curNum + 1
    tail := (tp.tail + 1) % tp.taskQueueSize })

/-- The address of the slot; none while the caller waits on the condition variable,
which it does forever on a queue of size 0. -/
def pop (tp : TaskQueue) : Option (Nat × TaskQueue) :=
  if isEmpty tp then none
  else some (tp.head, { tp with
    curNum := tp.curNum - 1
    head := (tp.head + 1) % tp.taskQueueSize })

/-- A push would find a free slot. -/
def HasRoom (tp : TaskQueue) : Prop := ∃ used ∈ length tp, used + 1 < (tp.taskQueueSize : Int)

instance (tp : TaskQueue) : Decidable (HasRoom tp) :=
  inferInstanceAs (Decidable (∃ used ∈ length tp, used + 1 < (tp.taskQueueSize : Int)))

/-- The queue after these successful pushes, the first `popped` of which were popped. -/
structure Tracks (tp : TaskQueue) (pushed : List MonitorMsgDs) (popped : Nat) : Prop where
  size_pos : 0 < tp.taskQueueSize
  head : tp.head = popped % tp.taskQueueSize
  tail : tp.tail = pushed.length % tp.taskQueueSize
  popped_le : popped ≤ pushed.length
  lt_lap : pushed.length < popped + tp.taskQueueSize
  curNum : tp.curNum = pushed.length - popped
  recent : Recent tp.taskQueueSize tp.data pushed

section Tracks

variable {tp : TaskQueue} {pushed : List MonitorMsgDs} {popped : Nat}

theorem tracks_init {n : Nat} (hn : 0 < n) (memory : Nat → MonitorMsgDs) :
    Tracks (taskQueueInit n memory) [] 0 where
  size_pos := hn
  head := (Nat.zero_mod n).symm
  tail := (Nat.zero_mod n).symm
  popped_le := le_rfl
  lt_lap := by simpa [taskQueueInit] using hn
  curNum := rfl
  recent := recent_nil _ _

theorem Tracks.isEmpty_iff (h : Tracks tp pushed popped) :
    isEmpty tp = true ↔ popped = pushed.length := by
  have hLap := h.lt_lap
  have hLe := h.popped_le
  rw [isEmpty, beq_iff_eq, h.head, h.tail, cell_inj (by omega) (by omega)]

theorem Tracks.full_iff (h : Tracks tp pushed popped) :
    tp.head = (tp.tail + 1) % tp.taskQueueSize ↔ pushed.length + 1 = popped + tp.taskQueueSize := by
  have hLap := h.lt_lap
  have hLe := h.popped_le
  have hPos := h.size_pos
  rw [h.head, h.tail, Nat.mod_add_mod, ← Nat.add_mod_right popped]
  rw [cell_inj (by omega) (by omega)]
  omega

theorem Tracks.length_eq (h : Tracks tp pushed popped) :
    length tp = some ((pushed.length : Int) - popped) := by
  have hLap := h.lt_lap
  have hLe := h.popped_le
  have hPos := h.size_pos
  have hHead : tp.head < tp.taskQueueSize := h.head ▸ Nat.mod_lt _ hPos
  have hCong : ((tp.tail : Int) - tp.head + tp.taskQueueSize) % tp.taskQueueSize =
      ((pushed.length : Int) - popped) % tp.taskQueueSize := by
    rw [Int.add_emod_right, h.head, h.tail, Int.natCast_mod, Int.natCast_mod, Int.sub_emod_emod,
      Int.emod_sub_emod]
  rw [length, if_neg hPos.ne', Int.tmod_eq_emod_of_nonneg (by omega), hCong]
  exact congrArg some (Int.emod_eq_of_lt (by omega) (by omega))

theorem Tracks.hasRoom_iff (h : Tracks tp pushed popped) :
    HasRoom tp ↔ pushed.length + 1 < popped + tp.taskQueueSize := by
  rw [HasRoom, h.length_eq]
  constructor
  · rintro ⟨used, hUsed, hLess⟩
    cases hUsed
    omega
  · intro hLess
    exact ⟨_, rfl, by omega⟩

theorem Tracks.push_full (h : Tracks tp pushed popped)
    (hFull : pushed.length + 1 = popped + tp.taskQueueSize) (arg : MonitorMsgDs) :
    push tp arg = some (-1, tp) := by
  rw [push, if_neg h.size_pos.ne', if_pos (h.full_iff.mpr hFull)]

theorem Tracks.push_free (h : Tracks tp pushed popped)
    (hFree : pushed.length + 1 < popped + tp.taskQueueSize) (arg : MonitorMsgDs) :
    ∃ tp', push tp arg = some (1, tp') ∧ tp'.data = Function.update tp.data tp.tail arg ∧
      tp'.taskQueueSize = tp.taskQueueSize ∧ Tracks tp' (pushed ++ [arg]) popped := by
  have hNot : ¬ tp.head = (tp.tail + 1) % tp.taskQueueSize := by
    rw [h.full_iff]
    omega
  rw [push, if_neg h.size_pos.ne', if_neg hNot]
  refine ⟨_, rfl, rfl, rfl, h.size_pos, h.head, ?_, ?_, ?_, ?_, ?_⟩
  · simp only [List.length_append, List.length_singleton, h.tail, Nat.mod_add_mod]
  · have hLe := h.popped_le
    simp only [List.length_append, List.length_singleton]
    omega
  · simp only [List.length_append, List.length_singleton]
    omega
  · simp only [h.curNum, List.length_append, List.length_singleton]
    omega
  · have hRecent := h.recent.push arg
    rwa [← h.tail] at hRecent

theorem Tracks.push_cases (h : Tracks tp pushed popped) (arg : MonitorMsgDs) :
    (pushed.length + 1 = popped + tp.taskQueueSize ∧ push tp arg = some (-1, tp)) ∨
      (pushed.length + 1 < popped + tp.taskQueueSize ∧
        ∃ tp', push tp arg = some (1, tp') ∧ tp'.data = Function.update tp.data tp.tail arg ∧
          tp'.taskQueueSize = tp.taskQueueSize ∧ Tracks tp' (pushed ++ [arg]) popped) := by
  have hLap := h.lt_lap
  by_cases hFull : pushed.length + 1 = popped + tp.taskQueueSize
  · exact .inl ⟨hFull, h.push_full hFull arg⟩
  · have hFree : pushed.length + 1 < popped + tp.taskQueueSize := by omega
    exact .inr ⟨hFree, h.push_free hFree arg⟩

theorem Tracks.pop_some (h : Tracks tp pushed popped) {slot : Nat} {tp' : TaskQueue}
    (hPop : pop tp = some (slot, tp')) :
    popped < pushed.length ∧ slot = popped % tp.taskQueueSize ∧ tp'.data = tp.data ∧
      tp'.taskQueueSize = tp.taskQueueSize ∧ Tracks tp' pushed (popped + 1) := by
  have hNe : isEmpty tp ≠ true := by
    intro hEmpty
    rw [pop, if_pos hEmpty] at hPop
    cases hPop
  rw [pop, if_neg hNe] at hPop
  cases hPop
  rw [Ne, h.isEmpty_iff] at hNe
  have hLe := h.popped_le
  have hLap := h.lt_lap
  refine ⟨by omega, h.head, rfl, rfl, h.size_pos, ?_, h.tail, by omega, ?_, ?_, h.recent⟩
  · simp only [h.head, Nat.mod_add_mod]
  · simp only
    omega
  · simp only [h.curNum]
    omega

theorem Tracks.data_head (h : Tracks tp pushed popped) {m : MonitorMsgDs}
    (hm : pushed[popped]? = some m) : tp.data (popped % tp.taskQueueSize) = m :=
  h.recent popped m hm h.lt_lap.le

theorem Tracks.data_slot (h : Tracks tp pushed popped) {i : Nat} {m : MonitorMsgDs}
    (hm : pushed[popped + i]? = some m) : tp.data ((tp.head + i) % tp.taskQueueSize) = m := by
  have hLap := h.lt_lap
  rw [h.head, Nat.mod_add_mod]
  exact h.recent (popped + i) m hm (by omega)

theorem Tracks.slot_ne_tail (h : Tracks tp pushed popped) {i : Nat} (hi : popped + i < pushed.length) :
    (tp.head + i) % tp.taskQueueSize ≠ tp.tail := by
  have hLap := h.lt_lap
  rw [h.head, h.tail, Nat.mod_add_mod, Ne, cell_inj (by omega) (by omega)]
  omega

end Tracks

end MonitorSystem.ThreadPool
