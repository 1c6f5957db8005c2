import MonitorSystem.Dispatch
import MonitorSystem.Lib.Transition
import MonitorSystem.ThreadPool
import Mathlib.Data.List.Pairwise
import Mathlib.Data.List.ReduceOption

/-! # Reports between the dispatcher's recv and the workers' pop

One event is one recv of do_dispatch with the push it leads to, or one pop.
A report is a data message received in full; it is known by its number in the
order of receipt. A recv of fewer bytes can push what the storage then holds,
which is no report but takes a slot. The lists of the state are history.
-/

namespace MonitorSystem.Backlog

open Msg ThreadPool Dispatch Lib.CString Lib.Transition

structure Popped (W : Type) where
  worker : W
  report : Option Nat
  msg : MonitorMsgDs

structure State (W K : Type) where
  msg : Bytes
  tq : TaskQueue
  received : List (K × MonitorMsgDs)
  pushed : List (Option Nat × MonitorMsgDs)
  popped : List (Popped W)

inductive Event (W K : Type)
  | recv (client : K) (r : Recv)
  | pop (w : W)

def Recv.inFull : Recv → Bool
  | .data bytes => bytes.length = sizeofMsg
  | .eof | .error => false

variable {W K : Type}

/-- The push in do_dispatch, which does not look at what push returns. -/
def pushMsg (s : State W K) (client : K) (whole : Bool) (msg : MonitorMsgDs) : Option (State W K) :=
  (push s.tq msg).map fun r =>
    { s with
      tq := r.2
      received := if whole then s.received ++ [(client, msg)] else s.received
      pushed := if r.1 = (1 : Int) then s.pushed ++ [(if whole then some s.received.length else none, msg)]
        else s.pushed }

def step (s : State W K) : Event W K → Option (State W K)
  | .recv client r =>
    if r.within sizeofMsg then
      let t := { s with msg := recvInto s.msg r }
      match classify (ofStorage t.msg) with
      | .push => pushMsg t client (Recv.inFull r) (ofStorage t.msg)
      | .ack | .ignored => some t
    else none
  | .pop w => (pop s.tq).map fun r =>
      { s with
        tq := r.2
        popped := s.popped ++ [⟨w, s.pushed[s.popped.length]?.bind Prod.fst, s.tq.data r.1⟩] }

def initial (W K : Type) (n : Nat) (memory : Nat → MonitorMsgDs) (msg : Bytes) : State W K :=
  ⟨msg, taskQueueInit n memory, [], [], []⟩

def system (W K : Type) (n : Nat) : System (State W K) (Event W K) where
  start s := ∃ memory msg, s = initial W K n memory msg
  step := step

theorem system_step (W K : Type) (n : Nat) : (system W K n).step = step := rfl

theorem start_initial (W K : Type) (n : Nat) (memory : Nat → MonitorMsgDs) (msg : Bytes) :
    (system W K n).start (initial W K n memory msg) := ⟨memory, msg, rfl⟩

def queued (s : State W K) : List (Option Nat) := (s.pushed.drop s.popped.length).map Prod.fst

structure Conserved (s : State W K) : Prop where
  present : ∀ k client m, s.received[k]? = some (client, m) →
    (∃ i, (queued s)[i]? = some (some k) ∧ s.tq.data ((s.tq.head + i) % s.tq.taskQueueSize) = m) ∨
      ∃ p ∈ s.popped, p.report = some k ∧ p.msg = m
  once : (s.popped.map Popped.report ++ queued s).reduceOption.Nodup
  ordered : ∀ (i j : Nat) p q k l client m m', i < j → s.popped[i]? = some p → s.popped[j]? = some q →
    p.report = some k → q.report = some l → s.received[k]? = some (client, m) →
    s.received[l]? = some (client, m') → k < l

/-- A data message received in full finds a free slot. -/
def Room (s : State W K) : Event W K → Prop
  | .recv _ r => Recv.inFull r = true → classify (ofStorage (recvInto s.msg r)) = .push →
      HasRoom s.tq
  | .pop _ => True

structure Inv (s : State W K) : Prop where
  slots : s.tq.taskQueueSize = 0 → isEmpty s.tq = true ∧ s.pushed = []
  tracks : 0 < s.tq.taskQueueSize → Tracks s.tq (s.pushed.map Prod.snd) s.popped.length
  taken : s.popped.map (fun p => (p.report, p.msg)) = s.pushed.take s.popped.length
  counted : (s.pushed.map Prod.fst).reduceOption = List.range s.received.length
  reports : ∀ k m, (some k, m) ∈ s.pushed → ∃ client, s.received[k]? = some (client, m)

theorem inv_initial (n : Nat) (memory : Nat → MonitorMsgDs) (msg : Bytes) :
    Inv (initial W K n memory msg) where
  slots _ := ⟨rfl, rfl⟩
  tracks hPos := tracks_init hPos memory
  taken := rfl
  counted := rfl
  reports k m hMem := by cases hMem

theorem inv_pushMsg {s t : State W K} (h : Inv s) {client : K} {whole : Bool} {msg : MonitorMsgDs}
    (hRoom : whole = true → HasRoom s.tq) (hPush : pushMsg s client whole msg = some t) : Inv t := by
  rw [pushMsg, Option.map_eq_some_iff] at hPush
  obtain ⟨r, hPush, rfl⟩ := hPush
  have hPos : 0 < s.tq.taskQueueSize := by
    rw [Nat.pos_iff_ne_zero]
    intro hZero
    rw [push, if_pos hZero] at hPush
    cases hPush
  have hTracks := h.tracks hPos
  obtain ⟨hFull, hRefused⟩ | ⟨_, tp', hAccepted, _, _, hNext⟩ := hTracks.push_cases msg
  · cases hRefused.symm.trans hPush
    cases whole with
    | false => exact h
    | true =>
      have hFree := hTracks.hasRoom_iff.mp (hRoom rfl)
      omega
  · cases hAccepted.symm.trans hPush
    have hLe := hTracks.popped_le
    rw [List.length_map] at hLe
    rw [if_pos rfl]
    refine ⟨?_, ?_, ?_, ?_, ?_⟩
    · intro hZero
      exact absurd hZero hNext.size_pos.ne'
    · intro _
      rwa [List.map_append]
    · rw [List.take_append_of_le_length hLe]
      exact h.taken
    · rw [List.map_append, List.reduceOption_append, h.counted]
      cases whole with
      | false => simp
      | true => simp [List.range_succ]
    · intro k m hMem
      obtain hOld | hNew := List.mem_append.mp hMem
      · obtain ⟨client', hReceived⟩ := h.reports k m hOld
        refine ⟨client', ?_⟩
        cases whole with
        | false => exact hReceived
        | true =>
          exact (List.getElem?_append_left (List.getElem?_eq_some_iff.mp hReceived).1).trans hReceived
      · rw [List.mem_singleton] at hNew
        cases whole with
        | false => cases hNew
        | true =>
          cases hNew
          exact ⟨client, List.getElem?_concat_length ..⟩

theorem inv_recv {s t : State W K} {client : K} {r : Recv} (h : Inv s) (hRoom : Room s (.recv client r))
    (hStep : step s (.recv client r) = some t) : Inv t := by
  obtain ⟨_, hStep⟩ := Option.ite_none_right_eq_some.mp hStep
  have hStored : Inv { s with msg := recvInto s.msg r } := { h with }
  dsimp only at hStep
  split at hStep
  · rename_i hPush
    exact inv_pushMsg hStored (fun hWhole => hRoom hWhole hPush) hStep
  · cases hStep
    exact hStored
  · cases hStep
    exact hStored

theorem inv_pop {s t : State W K} {w : W} (h : Inv s) (hStep : step s (.pop w) = some t) : Inv t := by
  obtain ⟨⟨slot, tq'⟩, hPop, hEq⟩ := Option.map_eq_some_iff.mp hStep
  subst hEq
  have hPos : 0 < s.tq.taskQueueSize := by
    rw [Nat.pos_iff_ne_zero]
    intro hZero
    rw [pop, if_pos (h.slots hZero).1] at hPop
    cases hPop
  obtain ⟨hLt, hSlot, _, hSize, hTracks⟩ := (h.tracks hPos).pop_some hPop
  rw [List.length_map] at hLt
  have hHead : s.tq.data slot = s.pushed[s.popped.length].2 := by
    rw [hSlot]
    apply (h.tracks hPos).data_head
    rw [List.getElem?_map, List.getElem?_eq_getElem hLt]
    rfl
  refine ⟨?_, ?_, ?_, h.counted, h.reports⟩
  · intro hZero
    exact absurd (hSize.symm.trans hZero) hPos.ne'
  · intro _
    rwa [List.length_append, List.length_singleton]
  · rw [List.map_append, h.taken, List.length_append, List.length_singleton, List.take_succ_eq_append_getElem hLt,
      List.map_singleton, hHead, List.getElem?_eq_getElem hLt]
    rfl

theorem inv_step {s t : State W K} {e : Event W K} (h : Inv s) (hRoom : Room s e)
    (hStep : step s e = some t) : Inv t := by
  cases e with
  | recv client r => exact inv_recv h hRoom hStep
  | pop w => exact inv_pop h hStep

theorem Inv.popped_le {s : State W K} (h : Inv s) : s.popped.length ≤ s.pushed.length := by
  have hLength := congrArg List.length h.taken
  rw [List.length_map, List.length_take] at hLength
  omega

theorem Inv.reports_popped {s : State W K} (h : Inv s) :
    s.popped.map Popped.report = (s.pushed.take s.popped.length).map Prod.fst := by
  rw [← h.taken, List.map_map]
  rfl

theorem Inv.popped_append_queued {s : State W K} (h : Inv s) :
    s.popped.map Popped.report ++ queued s = s.pushed.map Prod.fst := by
  rw [h.reports_popped, queued, ← List.map_append, List.take_append_drop]

theorem Inv.pushed_of_received {s : State W K} (h : Inv s) {k : Nat} {client : K} {m : MonitorMsgDs}
    (hk : s.received[k]? = some (client, m)) : ∃ i : Nat, s.pushed[i]? = some (some k, m) := by
  have hLt := (List.getElem?_eq_some_iff.mp hk).1
  have hMem : k ∈ (s.pushed.map Prod.fst).reduceOption := by
    rw [h.counted, List.mem_range]
    exact hLt
  rw [List.reduceOption_mem_iff, List.mem_map] at hMem
  obtain ⟨⟨report, m'⟩, hPushed, hReport⟩ := hMem
  dsimp only at hReport
  subst hReport
  obtain ⟨client', hReceived⟩ := h.reports k m' hPushed
  cases hk.symm.trans hReceived
  exact List.mem_iff_getElem?.mp hPushed

theorem Inv.size_pos {s : State W K} (h : Inv s) {i : Nat} {x : Option Nat × MonitorMsgDs}
    (hi : s.pushed[i]? = some x) : 0 < s.tq.taskQueueSize := by
  rw [Nat.pos_iff_ne_zero]
  intro hZero
  rw [(h.slots hZero).2] at hi
  cases hi

theorem Inv.conserved {s : State W K} (h : Inv s) : Conserved s where
  present k client m hk := by
    obtain ⟨i, hi⟩ := h.pushed_of_received hk
    by_cases hPopped : i < s.popped.length
    · refine .inr ?_
      have hTaken : (some k, m) ∈ s.popped.map fun p => (p.report, p.msg) := by
        rw [h.taken]
        apply List.mem_of_getElem? (i := i)
        rw [List.getElem?_take_of_lt hPopped, hi]
      obtain ⟨p, hp, hEq⟩ := List.mem_map.mp hTaken
      obtain ⟨hReport, hMsg⟩ := Prod.mk.inj hEq
      exact ⟨p, hp, hReport, hMsg⟩
    · refine .inl ⟨i - s.popped.length, ?_, ?_⟩
      · rw [queued, List.getElem?_map, List.getElem?_drop, Nat.add_sub_of_le (Nat.le_of_not_lt hPopped), hi]
        rfl
      · apply (h.tracks (h.size_pos hi)).data_slot
        rw [Nat.add_sub_of_le (Nat.le_of_not_lt hPopped), List.getElem?_map, hi]
        rfl
  once := by
    rw [h.popped_append_queued, h.counted]
    exact List.nodup_range
  ordered i j p q k l client m m' hij hp hq hk hl _ _ := by
    have hSorted : ((s.popped.map Popped.report).reduceOption).Pairwise (· < ·) := by
      have hAll := h.counted ▸ List.pairwise_lt_range (n := s.received.length)
      rw [← h.popped_append_queued, List.reduceOption_append] at hAll
      exact (List.pairwise_append.mp hAll).1
    rw [List.reduceOption, List.pairwise_filterMap, List.pairwise_map, List.pairwise_iff_getElem] at hSorted
    obtain ⟨hi, hp⟩ := List.getElem?_eq_some_iff.mp hp
    obtain ⟨hj, hq⟩ := List.getElem?_eq_some_iff.mp hq
    apply hSorted i j hi hj hij
    · rw [hp]
      exact hk
    · rw [hq]
      exact hl

/-- As long as every report finds a free slot, none is dropped. -/
theorem conserved_of_room (n : Nat) {s : State W K} (h : ReachableUnder (system W K n) Room s) :
    Conserved s := by
  have hInv : Inv s := by
    refine ReachableUnder.invariant ?_ (fun s e t => inv_step) h
    rintro s ⟨memory, msg, rfl⟩
    exact inv_initial n memory msg
  exact hInv.conserved

theorem step_image {s : State W K} (client : K) {m : MonitorMsgDs} {pad : Bytes}
    (hPad : pad.length = padding) (hPush : classify m = .push) :
    step s (.recv client (.data (m.image pad))) =
      pushMsg { s with msg := recvInto s.msg (.data (m.image pad)) } client true m := by
  have hLength := m.length_image hPad
  have hWithin : (Recv.data (m.image pad)).within sizeofMsg = true := by
    simp [Recv.within, hLength, sizeofMsg]
  have hInFull : Recv.inFull (.data (m.image pad)) = true := decide_eq_true hLength
  rw [step, if_pos hWithin]
  simp only [ofStorage_recvInto, hPush, hInFull]

def report (type : BitVec 64) : Recv := .data ((cleared type).image [0, 0, 0, 0])

theorem step_report {n : Nat} {s : State W K} (client : K) (type : BitVec 64)
    (hPush : classify (cleared type) = .push) :
    (system W K n).step s (.recv client (report type)) =
      pushMsg { s with msg := recvInto s.msg (report type) } client true (cleared type) := by
  rw [system_step]
  exact step_image client rfl hPush

/-- A queue of two slots holds one report, and no worker comes in time. -/
theorem report_dropped : ¬ ∀ (W K : Type) (n : Nat) (s : State W K),
    Reachable (system W K n) s → Conserved s := by
  intro hAll
  have hStart : Reachable (system Unit Unit 2) (initial Unit Unit 2 (fun _ => cleared 0) []) :=
    .start (start_initial _ _ _ _ _)
  have hFirst := hStart.step trivial ((step_report () sysMem (by decide)).trans rfl)
  have hSecond := hFirst.step trivial ((step_report () sysCpu (by decide)).trans rfl)
  obtain ⟨i, hQueued, _⟩ | ⟨p, hPopped, _⟩ := (hAll _ _ _ _ hSecond).present 1 () _ rfl
  · have hMem := List.mem_of_getElem? hQueued
    exact absurd hMem (by decide)
  · exact absurd hPopped (List.not_mem_nil)

instance : ∀ (s : State W K) (e : Event W K), Decidable (Room s e)
  | s, .recv _ r => inferInstanceAs (Decidable (Recv.inFull r = true →
      classify (ofStorage (recvInto s.msg r)) = .push → HasRoom s.tq))
  | _, .pop _ => inferInstanceAs (Decidable True)

def turns : List (Event Bool Bool) :=
  [.recv true (report sysMem), .recv false (report sysCpu), .pop false, .recv true (report sysDisk), .pop true]

theorem conserved_three_reports : ∃ s : State Bool Bool, s.received.map Prod.fst = [true, false, true] ∧
    s.popped.map (fun p => (p.worker, p.report)) = [(false, some 0), (true, some 1)] ∧ Conserved s := by
  have hRun : ((system Bool Bool 3).run (initial Bool Bool 3 (fun _ => cleared 0) []) turns).map
      (fun s => (s.received.map Prod.fst, s.popped.map fun p => (p.worker, p.report))) =
      some ([true, false, true], [(false, some 0), (true, some 1)]) := by decide +kernel
  have hRoom : (system Bool Bool 3).Meets Room (initial Bool Bool 3 (fun _ => cleared 0) []) turns := by decide +kernel
  obtain ⟨s, hReach, hSeen⟩ := ReachableUnder.of_observed (start_initial _ _ _ _ _) hRoom hRun
  obtain ⟨hReceived, hPopped⟩ := Prod.mk.inj hSeen
  exact ⟨s, hReceived, hPopped, conserved_of_room 3 hReach⟩

end MonitorSystem.Backlog
