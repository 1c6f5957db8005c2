import MonitorSystem.Framing
import MonitorSystem.Lib.Channel
import MonitorSystem.Lib.Socket
import MonitorSystem.Payload
import MonitorSystem.Workers

/-! # From the clients' connections to the database

Clients send on their connections at any time. The dispatcher takes what recv
returns for a message and queues the reports; the workers pop slots, read them
and issue the statements. Every order of these steps is a run. A message whose
payload makes the worker fault ends the process.
-/

namespace MonitorSystem.Pipeline

open Msg ThreadPool Dispatch Framing Workers MonitorSystem.Insert Payload Lib.CString Lib.Transition Lib.Socket Lib.Channel

/-- What was sent and what was queued, in order, is kept for the specification. -/
structure State (K W : Type) where
  stream : K → ByteStream
  sends : List (K × ClientFrame)
  msg : Bytes
  pool : Pool W
  arrivals : List (K × MonitorMsgDs)
  rows : List Bytes

inductive Event (K W : Type)
  | send (k : K) (f : ClientFrame)
  | recv (k : K) (got : Got)
  | pop (w : W)
  | deal (w : W)

variable {K W : Type}

def result (s : State K W) (k : K) : Got → Recv
  | .bytes n => .data ((s.stream k).chunk (.bytes n))
  | .eof => .eof
  | .error => .error

def statement (msg : MonitorMsgDs) : Option Bytes :=
  match deal msg with
  | .query sql => some sql
  | .nothing | .fault => none

variable [DecidableEq K] [DecidableEq W]

def step (s : State K W) : Event K W → Option (State K W)
  | .send k f => some { s with
      stream := Function.update s.stream k ((s.stream k).send f.image)
      sends := s.sends ++ [(k, f)] }
  | .recv k got =>
    if (s.stream k).allows false sizeofMsg got then
      let t := { s with
        stream := Function.update s.stream k ((s.stream k).recv got)
        msg := recvInto s.msg (result s k got) }
      let msg := ofStorage t.msg
      match classify msg with
      | .push => (Workers.step s.pool (.push msg)).map fun pool =>
          { t with
            pool := pool
            arrivals := if (push s.pool.tq msg).map Prod.fst = some 1 then s.arrivals ++ [(k, msg)] else s.arrivals }
      | .ack | .ignored => some t
    else none
  | .pop w => (Workers.step s.pool (.pop w)).map fun pool => { s with pool := pool }
  | .deal w =>
    match s.pool.task w with
    | none => none
    | some task =>
      let msg := s.pool.tq.data task.slot
      if deal msg = .fault then none
      else (Workers.step s.pool (.deal w)).map fun pool =>
        { s with pool := pool, rows := s.rows ++ (statement msg).toList }

def initial (K W : Type) (n : Nat) (memory : Nat → MonitorMsgDs) (msg : Bytes) : State K W :=
  ⟨fun _ => .empty, [], msg, Workers.initial W n memory, [], []⟩

def system (K W : Type) [DecidableEq K] [DecidableEq W] (n : Nat) : System (State K W) (Event K W) where
  start s := ∃ memory msg, s = initial K W n memory msg
  step := step

def reports (frames : List ClientFrame) : List MonitorMsgDs :=
  (frames.map ClientFrame.msg).filter fun m => classify m = .push

/-- A recv returns one whole message, and a report finds a slot that is free and
that no worker still has to read. -/
def Clean (s : State K W) : Event K W → Prop
  | .recv k got => got = .bytes sizeofMsg ∧
      (classify (ofStorage (recvInto s.msg (result s k got))) = .push →
        HasRoom s.pool.tq ∧ SlotFree s.pool (.push (ofStorage (recvInto s.msg (result s k got)))))
  | .send _ _ | .pop _ | .deal _ => True

/-- Where the messages of a connection are: read or still in the stream. -/
structure Cut (s : State K W) (k : K) (read unread : List ClientFrame) : Prop where
  sent : on k s.sends = read ++ unread
  stream : s.stream k = ⟨(on k s.sends).map ClientFrame.image, read.map ClientFrame.image⟩
  queued : on k s.arrivals = reports read

structure Inv (s : State K W) : Prop where
  pool : Workers.Inv s.pool
  pushed : s.pool.pushed = s.arrivals.map Prod.snd
  cut : ∀ k, ∃ read unread, Cut s k read unread
  rows : s.rows = s.pool.processed.filterMap fun p => statement p.msg

/-- Nothing is under way: no unread byte, no queued message, no worker at work. -/
structure Settled (s : State K W) : Prop where
  streams : ∀ k, (s.stream k).pending = []
  queue : isEmpty s.pool.tq = true
  workers : ∀ w, s.pool.task w = none

theorem reports_concat (frames : List ClientFrame) (f : ClientFrame) :
    reports (frames ++ [f]) = if classify f.msg = .push then reports frames ++ [f.msg] else reports frames := by
  rw [reports, List.map_append, List.filter_append]
  split <;> simp_all [reports]

omit [DecidableEq W] in
theorem Cut.recv_whole {s : State K W} {k : K} {read unread : List ClientFrame} (h : Cut s k read unread)
    (hAllows : (s.stream k).allows false sizeofMsg (.bytes sizeofMsg) = true) :
    ∃ f rest, unread = f :: rest ∧
      (s.stream k).recv (.bytes sizeofMsg) = ⟨(on k s.sends).map ClientFrame.image, (read ++ [f]).map ClientFrame.image⟩ ∧
      ofStorage (recvInto s.msg (result s k (.bytes sizeofMsg))) = f.msg := by
  have hSent : (s.stream k).sent = (s.stream k).read ++ unread.map ClientFrame.image := by
    rw [h.stream]
    dsimp only
    rw [h.sent, List.map_append]
  cases unread with
  | nil =>
    rw [ByteStream.allows, ByteStream.pending_eq hSent] at hAllows
    simp [sizeofMsg] at hAllows
  | cons f rest =>
    rw [List.map_cons] at hSent
    have hTake := ByteStream.take_next hSent
    have hRecv := ByteStream.recv_next hSent
    rw [f.length_image] at hTake hRecv
    refine ⟨f, rest, rfl, ?_, ?_⟩
    · rw [hRecv, h.stream, List.map_append]
      rfl
    · rw [result, ByteStream.chunk, hTake]
      exact ofStorage_recvInto s.msg f.msg f.pad

omit [DecidableEq W] in
theorem inv_initial {n : Nat} (hn : 0 < n) (memory : Nat → MonitorMsgDs) (msg : Bytes) :
    Inv (initial K W n memory msg) where
  pool := Workers.inv_initial hn memory
  pushed := rfl
  cut _ := ⟨[], [], rfl, rfl, rfl⟩
  rows := rfl

omit [DecidableEq W] in
theorem inv_send {s : State K W} (h : Inv s) (k : K) (f : ClientFrame) :
    Inv { s with stream := Function.update s.stream k ((s.stream k).send f.image), sends := s.sends ++ [(k, f)] } := by
  refine { h with cut := ?_ }
  intro k'
  obtain ⟨read, unread, hSent, hStream, hQueued⟩ := h.cut k'
  obtain rfl | hNe := eq_or_ne k' k
  · refine ⟨read, unread ++ [f], ?_, ?_, hQueued⟩
    · rw [on_concat_self, hSent, List.append_assoc]
    · dsimp only
      rw [Function.update_self, on_concat_self, ByteStream.send, hStream, List.map_append, List.map_singleton]
  · refine ⟨read, unread, ?_, ?_, hQueued⟩
    · rw [on_concat_ne hNe.symm, hSent]
    · dsimp only
      rw [Function.update_of_ne hNe, on_concat_ne hNe.symm, hStream]

theorem inv_recv {s t : State K W} {k : K} {got : Got} (h : Inv s) (hClean : Clean s (.recv k got))
    (hStep : step s (.recv k got) = some t) : Inv t := by
  obtain ⟨rfl, hRoom⟩ := hClean
  obtain ⟨hAllows, hStep⟩ := Option.ite_none_right_eq_some.mp hStep
  obtain ⟨read, unread, hCut⟩ := h.cut k
  obtain ⟨f, rest, rfl, hRecv, hMsg⟩ := hCut.recv_whole hAllows
  have hOthers : ∀ k' arrivals, k' ≠ k → on k' arrivals = on k' s.arrivals → ∃ read unread,
      Cut { s with
        stream := Function.update s.stream k ((s.stream k).recv (.bytes sizeofMsg))
        arrivals := arrivals } k' read unread := by
    intro k' arrivals hNe hSame
    obtain ⟨read', unread', hSent, hStream, hQueued⟩ := h.cut k'
    exact ⟨read', unread', hSent, (Function.update_of_ne hNe ..).trans hStream, hSame.trans hQueued⟩
  have hSent : on k s.sends = (read ++ [f]) ++ rest := by
    rw [hCut.sent, List.append_assoc]
    rfl
  dsimp only at hStep
  rw [hMsg] at hRoom hStep
  split at hStep
  · rename_i hPush
    obtain ⟨hFree, hSlot⟩ := hRoom hPush
    obtain ⟨pool, hPool, hEq⟩ := Option.map_eq_some_iff.mp hStep
    subst hEq
    obtain ⟨hRes, hPushed, hProcessed⟩ := Workers.step_push_free h.pool hFree hPool
    refine ⟨Workers.inv_push h.pool hSlot hPool, ?_, ?_, ?_⟩
    · rw [hPushed, if_pos hRes, List.map_append, h.pushed]
      rfl
    · intro k'
      obtain rfl | hNe := eq_or_ne k' k
      · refine ⟨read ++ [f], rest, hSent, (Function.update_self ..).trans hRecv, ?_⟩
        dsimp only
        rw [if_pos hRes, on_concat_self, reports_concat, if_pos hPush, hCut.queued]
      · obtain ⟨read', unread', hOther⟩ := hOthers k' _ hNe (on_concat_ne hNe.symm s.arrivals f.msg)
        rw [if_pos hRes]
        exact ⟨read', unread', hOther.sent, hOther.stream, hOther.queued⟩
    · rw [hProcessed]
      exact h.rows
  all_goals
    rename_i hNot
    cases hStep
    refine { h with cut := ?_ }
    intro k'
    obtain rfl | hNe := eq_or_ne k' k
    · refine ⟨read ++ [f], rest, hSent, (Function.update_self ..).trans hRecv, ?_⟩
      dsimp only
      rw [reports_concat, if_neg (by simp [hNot]), hCut.queued]
    · obtain ⟨read', unread', hOther⟩ := hOthers k' s.arrivals hNe rfl
      exact ⟨read', unread', hOther.sent, hOther.stream, hOther.queued⟩

theorem inv_pop {s t : State K W} {w : W} (h : Inv s) (hStep : step s (.pop w) = some t) : Inv t := by
  obtain ⟨pool, hPool, hEq⟩ := Option.map_eq_some_iff.mp hStep
  subst hEq
  have hSame : pool.pushed = s.pool.pushed ∧ pool.processed = s.pool.processed := by
    simp only [Workers.step] at hPool
    split at hPool
    · cases hPool
    · obtain ⟨r, _, hEq⟩ := Option.map_eq_some_iff.mp hPool
      subst hEq
      exact ⟨rfl, rfl⟩
  refine ⟨Workers.inv_pop h.pool hPool, hSame.1.trans h.pushed, ?_, ?_⟩
  · intro k
    obtain ⟨read, unread, hSent, hStream, hQueued⟩ := h.cut k
    exact ⟨read, unread, hSent, hStream, hQueued⟩
  · rw [hSame.2]
    exact h.rows

theorem inv_deal {s t : State K W} {w : W} (h : Inv s) (hStep : step s (.deal w) = some t) : Inv t := by
  simp only [step] at hStep
  cases hTask : s.pool.task w with
  | none =>
    rw [hTask] at hStep
    cases hStep
  | some task =>
    rw [hTask] at hStep
    dsimp only at hStep
    obtain ⟨_, hStep⟩ := Option.ite_none_left_eq_some.mp hStep
    obtain ⟨pool, hPool, hEq⟩ := Option.map_eq_some_iff.mp hStep
    subst hEq
    obtain ⟨task', hTask', hPoolEq⟩ := Option.map_eq_some_iff.mp hPool
    cases hTask.symm.trans hTask'
    refine ⟨Workers.inv_deal h.pool hPool, ?_, ?_, ?_⟩
    · rw [← hPoolEq]
      exact h.pushed
    · intro k
      obtain ⟨read, unread, hSent, hStream, hQueued⟩ := h.cut k
      exact ⟨read, unread, hSent, hStream, hQueued⟩
    · rw [← hPoolEq]
      dsimp only
      rw [List.filterMap_append, ← h.rows]
      cases hStatement : statement (s.pool.tq.data task.slot) with
      | none => simp [hStatement]
      | some sql => simp [hStatement]

theorem inv_step {s t : State K W} {e : Event K W} (h : Inv s) (hClean : Clean s e) (hStep : step s e = some t) :
    Inv t := by
  cases e with
  | send k f =>
    cases hStep
    exact inv_send h k f
  | recv k got => exact inv_recv h hClean hStep
  | pop w => exact inv_pop h hStep
  | deal w => exact inv_deal h hStep

theorem inv_of_clean {n : Nat} (hn : 0 < n) {s : State K W} (h : ReachableUnder (system K W n) Clean s) : Inv s := by
  refine ReachableUnder.invariant ?_ (fun s e t => inv_step) h
  rintro s ⟨memory, msg, rfl⟩
  exact inv_initial hn memory msg

omit [DecidableEq W] in
theorem processed_subperm {p : Pool W} (h : Workers.Inv p) : (p.processed.map Processed.msg).Subperm p.pushed := by
  have hSeq : (p.processed.map Processed.seq).Subperm (List.range p.pushed.length) := by
    apply h.once.subperm
    intro k hk
    obtain ⟨q, hq, rfl⟩ := List.mem_map.mp hk
    obtain ⟨hLt, _⟩ := List.getElem?_eq_some_iff.mp (h.pushed q hq)
    exact List.mem_range.mpr hLt
  have hMsgs : p.processed.map (fun q => some q.msg) = (p.processed.map Processed.seq).map fun k => p.pushed[k]? := by
    rw [List.map_map]
    apply List.map_congr_left
    intro q hq
    rw [Function.comp_apply, h.pushed q hq, h.same q hq]
  have hRange : (List.range p.pushed.length).map (fun k => p.pushed[k]?) = p.pushed.map some := by
    apply List.ext_getElem (by simp)
    intro i _ hi
    simp
  have hSome := Multiset.map_le_map (f := fun k => p.pushed[k]?) (Multiset.coe_le.mpr hSeq)
  rw [Multiset.map_coe, Multiset.map_coe, ← hMsgs, hRange] at hSome
  have hJoined := Multiset.filterMap_le_filterMap id hSome
  simpa [List.filterMap_map, Function.comp_def] using hJoined

omit [DecidableEq W] in
theorem processed_perm {p : Pool W} (h : Workers.Inv p) (hEmpty : isEmpty p.tq = true) (hIdle : ∀ w, p.task w = none) :
    (p.processed.map Processed.msg).Perm p.pushed := by
  apply (processed_subperm h).perm_of_length_le
  have hAll : p.popped = p.pushed.length := h.tracks.isEmpty_iff.mp hEmpty
  have hSeq : List.range p.pushed.length ⊆ p.processed.map Processed.seq := by
    intro k hk
    rw [List.mem_range, ← hAll] at hk
    obtain ⟨w, t, ht, _⟩ | hDone := h.accounted k hk
    · rw [hIdle w] at ht
      cases ht
    · exact hDone
  have hLength := (List.nodup_range.subperm hSeq).length_le
  rwa [List.length_range, List.length_map, ← List.length_map (f := Processed.msg)] at hLength

theorem classify_data {msg : MonitorMsgDs} {type : BitVec 64} (hData : type ∈ [sysMem, sysCpu, sysDisk, sysSys])
    (hType : msg.type = type) : classify msg = .push := by
  simp only [List.mem_cons, List.not_mem_nil, or_false] at hData
  obtain rfl | rfl | rfl | rfl := hData <;> rw [classify, hType] <;> decide

theorem statement_eq_none {msg : MonitorMsgDs} (h : classify msg ≠ .push) : statement msg = none := by
  have hOther : ∀ type ∈ [sysMem, sysCpu, sysDisk, sysSys], msg.type ≠ type := by
    intro type hData hType
    exact h (classify_data hData hType)
  have hMem := hOther sysMem (by simp)
  have hCpu := hOther sysCpu (by simp)
  have hDisk := hOther sysDisk (by simp)
  have hSys := hOther sysSys (by simp)
  have hNothing : deal msg = .nothing := by
    rw [deal, if_neg (by simp [isData, hMem, hCpu, hDisk, hSys]), dealWithMonitorMsg, if_neg hMem, if_neg hCpu,
      if_neg hDisk, if_neg hSys]
  rw [statement, hNothing]

theorem statement_reports (frames : List ClientFrame) :
    (reports frames).filterMap statement = frames.filterMap fun f => statement f.msg := by
  rw [reports, List.filterMap_filter, List.filterMap_map]
  apply List.filterMap_congr
  intro f _
  simp only [Function.comp_apply]
  split
  · rfl
  · rename_i hNot
    exact (statement_eq_none (of_decide_eq_false (eq_false_of_ne_true hNot))).symm

/-- What the server has done at any moment: every report of a connection was
queued once and in order or is not read yet, the workers handled the queued ones
once each, no statement was issued without a report that asked for it, and once
nothing is under way the statements issued are those of the reports sent. -/
structure Delivered (s : State K W) : Prop where
  inOrder : ∀ k, ∃ unread, on k s.arrivals ++ reports unread = reports (on k s.sends) ∧
    (s.stream k).pending = (unread.map ClientFrame.image).flatten
  queued : s.pool.pushed = s.arrivals.map Prod.snd
  handled : ExactlyOnce s.pool
  rows : s.rows = s.pool.processed.filterMap fun p => statement p.msg
  atMost : s.rows.Subperm (s.sends.filterMap fun e => statement e.2.msg)
  settled : Settled s → s.rows.Perm (s.sends.filterMap fun e => statement e.2.msg)

omit [DecidableEq W] in
theorem Cut.pending {s : State K W} {k : K} {read unread : List ClientFrame} (h : Cut s k read unread) :
    (s.stream k).pending = (unread.map ClientFrame.image).flatten := by
  apply ByteStream.pending_eq
  rw [h.stream, h.sent, List.map_append]

theorem unread_eq_nil {unread : List ClientFrame} (h : (unread.map ClientFrame.image).flatten = []) : unread = [] := by
  cases unread with
  | nil => rfl
  | cons f rest =>
    have hLength := congrArg List.length h
    rw [List.map_cons, List.flatten_cons, List.length_append, f.length_image] at hLength
    simp [sizeofMsg] at hLength

omit [DecidableEq W] in
theorem Inv.atMost {s : State K W} (h : Inv s) : s.rows.Subperm (s.sends.filterMap fun e => statement e.2.msg) := by
  have hOn : ∀ k, ((on k s.arrivals).filterMap statement).Subperm
      ((on k s.sends).filterMap fun f => statement f.msg) := by
    intro k
    obtain ⟨read, unread, hCut⟩ := h.cut k
    rw [hCut.queued, statement_reports, hCut.sent, List.filterMap_append]
    exact (List.sublist_append_left _ _).subperm
  have hRows := Multiset.filterMap_le_filterMap statement (Multiset.coe_le.mpr (processed_subperm h.pool))
  rw [Multiset.filterMap_coe, Multiset.filterMap_coe, Multiset.coe_le, h.pushed, List.filterMap_map,
    List.filterMap_map] at hRows
  rw [h.rows]
  exact hRows.trans (filterMap_subperm_of_on hOn)

omit [DecidableEq W] in
theorem Inv.settled {s : State K W} (h : Inv s) (hSettled : Settled s) :
    s.rows.Perm (s.sends.filterMap fun e => statement e.2.msg) := by
  have hOn : ∀ k, (on k s.arrivals).filterMap statement = (on k s.sends).filterMap fun f => statement f.msg := by
    intro k
    obtain ⟨read, unread, hCut⟩ := h.cut k
    have hNone : unread = [] := unread_eq_nil (hCut.pending.symm.trans (hSettled.streams k))
    rw [hCut.queued, statement_reports, hCut.sent, hNone, List.append_nil]
  have hRows := (processed_perm h.pool hSettled.queue hSettled.workers).filterMap statement
  rw [h.pushed, List.filterMap_map, List.filterMap_map] at hRows
  rw [h.rows]
  exact hRows.trans (filterMap_perm_of_on hOn)

omit [DecidableEq W] in
theorem Inv.delivered {s : State K W} (h : Inv s) : Delivered s := by
  refine ⟨?_, h.pushed, h.pool.toExactlyOnce, h.rows, h.atMost, h.settled⟩
  intro k
  obtain ⟨read, unread, hCut⟩ := h.cut k
  refine ⟨unread, ?_, hCut.pending⟩
  rw [hCut.queued, hCut.sent, reports, reports, reports, List.map_append, List.filter_append]

/-- No report is lost, doubled or mixed up between the connections and the
database, whatever the order of the steps. -/
theorem delivered_of_clean {n : Nat} (hn : 0 < n) {s : State K W} (h : ReachableUnder (system K W n) Clean s) :
    Delivered s :=
  (inv_of_clean hn h).delivered

theorem disk_mem : Payload.wellFormed.type ∈ clientTypes := by decide

theorem zeros_padding : List.length [(0 : UInt8), 0, 0, 0] = padding := rfl

def diskFrame : ClientFrame := ⟨Payload.wellFormed, [0, 0, 0, 0], zeros_padding, disk_mem⟩

instance [Fintype W] : ∀ (s : State K W) (e : Event K W), Decidable (Clean s e)
  | s, .recv k got => inferInstanceAs (Decidable (got = .bytes sizeofMsg ∧
      (classify (ofStorage (recvInto s.msg (result s k got))) = .push → HasRoom s.pool.tq ∧
        SlotFree s.pool (.push (ofStorage (recvInto s.msg (result s k got)))))))
  | _, .send _ _ | _, .pop _ | _, .deal _ => inferInstanceAs (Decidable True)

/-- Two clients send three reports, and both workers are at work while the last one is queued. -/
def turns : List (Event Bool Bool) :=
  [.send true diskFrame, .send false diskFrame, .recv false (.bytes sizeofMsg), .send true diskFrame,
    .recv true (.bytes sizeofMsg), .pop true, .pop false, .recv true (.bytes sizeofMsg), .deal false, .deal true,
    .pop false, .deal false]

theorem delivered_two_clients : ∃ s : State Bool Bool, s.arrivals.map Prod.fst = [false, true, true] ∧
    s.rows.length = 3 ∧ Delivered s ∧ Settled s := by
  have hStart : (system Bool Bool 3).start (initial Bool Bool 3 (fun _ => cleared 0) []) := ⟨_, _, rfl⟩
  have hRun : ((system Bool Bool 3).run (initial Bool Bool 3 (fun _ => cleared 0) []) turns).map (fun s =>
      (s.arrivals.map Prod.fst, s.rows.length, [true, false].map (fun k => (s.stream k).pending),
        [isEmpty s.pool.tq, (s.pool.task true).isNone, (s.pool.task false).isNone])) =
      some ([false, true, true], 3, [[], []], [true, true, true]) := by decide +kernel
  have hClean : (system Bool Bool 3).Meets Clean (initial Bool Bool 3 (fun _ => cleared 0) []) turns := by
    decide +kernel
  obtain ⟨s, hReach, hSeen⟩ := ReachableUnder.of_observed hStart hClean hRun
  simp only [Prod.mk.injEq, List.map_cons, List.map_nil, List.cons.injEq, and_true] at hSeen
  obtain ⟨hArrivals, hRows, ⟨hFirst, hSecond⟩, hEmpty, hIdle, hIdle'⟩ := hSeen
  refine ⟨s, hArrivals, hRows, delivered_of_clean (by decide) hReach, ?_, hEmpty, ?_⟩
  · intro k
    cases k with
    | true => exact hFirst
    | false => exact hSecond
  · intro w
    cases w with
    | true => exact Option.isNone_iff_eq_none.mp hIdle
    | false => exact Option.isNone_iff_eq_none.mp hIdle'

end MonitorSystem.Pipeline
