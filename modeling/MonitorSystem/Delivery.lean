import MonitorSystem.Dispatch
import MonitorSystem.Payload
import MonitorSystem.ThreadPool

/-! # The two ways a system report takes through the server

Over TCP do_dispatch queues it and a worker makes a statement of it; over an
accepted UDP socket udp_deal_with reads it. The log keeps, in order, what the
workers did with the messages they popped and the warnings that were printed.
-/

namespace MonitorSystem.Delivery

open Msg CJson Report ThreadPool Dispatch MonitorSystem.Insert Lib.CString

inductive Output
  | dealt (effect : Effect)
  | warned

def Tracked (tp : TaskQueue) : Prop := ∃ pushed popped, Tracks tp pushed popped

theorem Tracked.push_isSome {tp : TaskQueue} (h : Tracked tp) (arg : MonitorMsgDs) : (push tp arg).isSome := by
  obtain ⟨pushed, popped, hTracks⟩ := h
  obtain ⟨_, hRefused⟩ | ⟨_, tp', hAccepted, _⟩ := hTracks.push_cases arg
  · rw [hRefused, Option.isSome_some]
  · rw [hAccepted, Option.isSome_some]

theorem Tracked.push {tp : TaskQueue} (h : Tracked tp) {arg : MonitorMsgDs} {r : Int × TaskQueue}
    (hPush : push tp arg = some r) : Tracked r.2 := by
  obtain ⟨pushed, popped, hTracks⟩ := h
  obtain ⟨_, hRefused⟩ | ⟨_, tp', hAccepted, _, _, hNext⟩ := hTracks.push_cases arg
  · cases hRefused.symm.trans hPush
    exact ⟨pushed, popped, hTracks⟩
  · cases hAccepted.symm.trans hPush
    exact ⟨_, popped, hNext⟩

theorem Tracked.pop {tp : TaskQueue} (h : Tracked tp) {r : Nat × TaskQueue} (hPop : pop tp = some r) :
    Tracked r.2 := by
  obtain ⟨pushed, popped, hTracks⟩ := h
  exact ⟨pushed, popped + 1, (hTracks.pop_some hPop).2.2.2.2⟩

/-- The message variables of the two reactors, the task queue and the log. -/
structure Server where
  msg : Bytes
  udpMsg : Bytes
  tq : TaskQueue
  log : List Output
  tracked : Tracked tq

/-- One epoll event of do_dispatch; an ACK does not concern the queue. -/
def doDispatch (s : Server) (r : Recv) : Server :=
  let msg := ofStorage (recvInto s.msg r)
  match classify msg with
  | .push => { s with
      msg := recvInto s.msg r
      tq := ((push s.tq msg).get (s.tracked.push_isSome msg)).2
      tracked := s.tracked.push (Option.some_get _).symm }
  | .ack | .ignored => { s with msg := recvInto s.msg r }

def udpDealWith (s : Server) (r : Recv) : Server :=
  let msg := ofStorage (recvInto s.udpMsg r)
  { s with
    udpMsg := recvInto s.udpMsg r
    log := if msg.type = sysSys then s.log ++ [.warned] else s.log }

/-- The workers take messages off the queue, at most so many. -/
def doTask : Nat → Server → Server
  | 0, s => s
  | fuel + 1, s =>
    match hPop : pop s.tq with
    | none => s
    | some r => doTask fuel { s with
        tq := r.2
        log := s.log ++ [.dealt (dealWithMonitorMsg (s.tq.data r.1))]
        tracked := s.tracked.pop hPop }

def settle (s : Server) : Server := doTask s.tq.taskQueueSize s

inductive Path
  | tcp
  | udp
deriving DecidableEq

def deliver : Path → Server → Recv → Server
  | .tcp => doDispatch
  | .udp => udpDealWith

def statement : Output → Option Effect
  | .dealt effect => some effect
  | .warned => none

def issued (s : Server) : List Effect := (settle s).log.filterMap statement

/-- The members deal_with_monitor_msg reads of a system report. -/
def itemsOf (m : MonitorMsgDs) : Option (List Bytes) :=
  sysItems.mapM fun name => (cJSONGetObjectItem (cJSONParse m.text) name).bind CJSON.valuestring

def sysRow (values : List Bytes) : Row := ⟨tableOf .sys, sysItems, values⟩

theorem doTask_log {pushed : List MonitorMsgDs} {popped : Nat} (fuel : Nat) {s : Server}
    (h : Tracks s.tq pushed popped) (hFuel : pushed.length ≤ popped + fuel) :
    (doTask fuel s).log = s.log ++ (pushed.drop popped).map fun m => .dealt (dealWithMonitorMsg m) := by
  induction fuel generalizing s popped with
  | zero =>
    rw [Nat.add_zero] at hFuel
    rw [doTask, List.drop_of_length_le hFuel, List.map_nil, List.append_nil]
  | succ fuel ih =>
    rw [doTask]
    split
    · rename_i hPop
      have hEmpty : isEmpty s.tq = true := by
        by_contra hNe
        rw [pop, if_neg hNe] at hPop
        cases hPop
      rw [List.drop_of_length_le (h.isEmpty_iff.mp hEmpty).ge, List.map_nil, List.append_nil]
    · rename_i r hPop
      obtain ⟨hLt, hSlot, _, _, hNext⟩ := h.pop_some hPop
      have hHead : s.tq.data r.1 = pushed[popped] := by
        rw [hSlot, h.data_head (List.getElem?_eq_getElem hLt)]
      rw [ih hNext (by omega), List.drop_eq_getElem_cons hLt, List.map_cons, hHead, List.append_assoc]
      rfl

theorem issued_eq {pushed : List MonitorMsgDs} {popped : Nat} {s : Server} (h : Tracks s.tq pushed popped) :
    issued s = s.log.filterMap statement ++ (pushed.drop popped).map dealWithMonitorMsg := by
  have hLap := h.lt_lap
  have hStatements : ∀ ms : List MonitorMsgDs,
      (ms.map fun m => Output.dealt (dealWithMonitorMsg m)).filterMap statement = ms.map dealWithMonitorMsg := by
    intro ms
    induction ms with
    | nil => rfl
    | cons m ms ih => simpa [statement] using ih
  rw [issued, settle, doTask_log _ h (by omega), List.filterMap_append, hStatements]

theorem issued_tcp {s : Server} {m : MonitorMsgDs} {pad : Bytes} (hPush : classify m = .push)
    (hRoom : HasRoom s.tq) : issued (doDispatch s (.data (m.image pad))) = issued s ++ [dealWithMonitorMsg m] := by
  obtain ⟨pushed, popped, hTracks⟩ := s.tracked
  obtain ⟨tp', hAccepted, _, _, hNext⟩ := hTracks.push_free (hTracks.hasRoom_iff.mp hRoom) m
  have hAfter : (doDispatch s (.data (m.image pad))).tq = tp' ∧ (doDispatch s (.data (m.image pad))).log = s.log := by
    rw [doDispatch]
    simp only [ofStorage_recvInto, hPush, hAccepted, Option.get_some, and_self]
  obtain ⟨hQueue, hLog⟩ := hAfter
  rw [← hQueue] at hNext
  rw [issued_eq hNext, issued_eq hTracks, hLog, List.drop_append_of_le_length hTracks.popped_le, List.map_append,
    List.append_assoc]
  rfl

theorem issued_udp {s : Server} (r : Recv) : issued (udpDealWith s r) = issued s := by
  obtain ⟨pushed, popped, hTracks⟩ := s.tracked
  have hAfter : Tracks (udpDealWith s r).tq pushed popped := hTracks
  rw [issued_eq hTracks, issued_eq hAfter, udpDealWith]
  dsimp only
  split
  · rw [List.filterMap_append]
    simp [statement]
  · rfl

theorem sysRow_text (values : List Bytes) : (sysRow values).text = strcatSql sysHead values := by
  have hHead : sysHead = lit "INSERT INTO " ++ tableOf .sys ++ lit " (" ++
      (lit ", ").intercalate sysItems ++ lit ") VALUES ('" := headOf_eq .sys
  rw [strcatSql, hHead]
  rfl

theorem length_sysRow {m : MonitorMsgDs} {values : List Bytes} (hItems : itemsOf m = some values) :
    (sysRow values).text.length = values.flatten.length + 282 := by
  have hLength := @Payload.length_strcatSql .sys values (length_of_mapM hItems)
  have hText : (sysRow values).text = strcatSql (headOf .sys) values := sysRow_text values
  have hRoom : Payload.room .sys = 217 := rfl
  rw [hText]
  omega

theorem dealWithMonitorMsg_sys {m : MonitorMsgDs} {values : List Bytes} (hType : m.type = sysSys)
    (hItems : itemsOf m = some values) : dealWithMonitorMsg m =
      if (sysRow values).text.length < sqlSize then .query (sysRow values).text else .fault := by
  have hKind : m.type = Kind.sys.type := hType
  have hItems' : (Kind.sys.columns.mapM fun name =>
      (cJSONGetObjectItem (cJSONParse m.text) name).bind CJSON.valuestring) = some values := hItems
  rw [dealWithMonitorMsg_kind hKind, branch, sysRow_text]
  simp only [hItems']
  rfl

theorem classify_sys {m : MonitorMsgDs} (hType : m.type = sysSys) : classify m = .push := by
  rw [classify, hType]
  decide

def alarm : List Bytes :=
  [lit "2021-12-13 10:00:00", lit "node1", lit "#1-Ubuntu", lit "5.4.0", lit "2:03", lit "0.50", lit "0.40",
    lit "0.30", lit "1000", lit "95.00%", lit "1000", lit "40.00%", lit "warning", lit "normal", lit "normal"]

theorem alarm_report : ∃ m : MonitorMsgDs, m.type = sysSys ∧ itemsOf m = some alarm := by
  have hFits : (cJSONPrint (Kind.sys.columns.zip alarm)).length < msgBuffSize := by decide +kernel
  have hNul : ∀ v ∈ alarm, 0 ∉ v := by decide +kernel
  obtain ⟨m, hm⟩ : ∃ m, (cleared sysSys).strcpyBuff (cJSONPrint (Kind.sys.columns.zip alarm)) = some m := by
    rw [MonitorMsgDs.strcpyBuff, dif_pos hFits]
    exact ⟨_, rfl⟩
  have hText := strcpyBuff_text (noNul_cJSONPrint _) hm
  refine ⟨m, ?_, @items_printed .sys m alarm (hText ▸ List.prefix_rfl) rfl hNul⟩
  rw [MonitorMsgDs.strcpyBuff, dif_pos hFits] at hm
  cases hm
  rfl

def idle : Server where
  msg := []
  udpMsg := []
  tq := taskQueueInit 2 fun _ => cleared 0
  log := []
  tracked := ⟨[], 0, tracks_init (by decide) _⟩

end MonitorSystem.Delivery
