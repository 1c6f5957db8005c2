import MonitorSystem.Lifetime

/-! # Failing recv calls in the two reactors

Neither do_dispatch nor udp_deal_with leaves the iteration after a recv that
failed: the message variable, still as an earlier recv left it, is classified
like a new one.
-/

namespace MonitorSystem.FailedRecv

open Msg Dispatch ServerFunc Lib.CString
open Lifetime (dispatchRecv dispatchClassify)

def stored (storage : Bytes) (events : List (Fd × Recv)) : Bytes :=
  events.foldl (fun storage e => recvInto storage e.2) storage

def dispatchEvents (s : Server) (events : List (Fd × Recv)) : Server :=
  events.foldl (fun s e => doDispatch s e.1 e.2) s

/-- One event of udp_deal_with that is not the listener's; only a negative result unregisters. -/
def udpEvent (s : Server) (fd : Fd) (r : Recv) : Server :=
  udpReport { s with
    udpMsg := recvInto s.udpMsg r
    udpEpollfd := if r = .error then Function.update s.udpEpollfd fd false else s.udpEpollfd }

def udpEvents (s : Server) (events : List (Fd × Recv)) : Server :=
  events.foldl (fun s e => udpEvent s e.1 e.2) s

def udpUnregister (s : Server) (fd : Fd) : Server :=
  { s with udpEpollfd := Function.update s.udpEpollfd fd false }

theorem msg_doDispatch (s : Server) (fd : Fd) (r : Recv) : (doDispatch s fd r).msg = recvInto s.msg r := by
  rw [Lifetime.doDispatch_eq, ← Lifetime.msg_dispatchRecv, dispatchClassify]
  split
  · split
    · rfl
    · rfl
  · rfl
  · rfl

theorem msg_dispatchEvents (s : Server) (events : List (Fd × Recv)) :
    (dispatchEvents s events).msg = stored s.msg events := by
  induction events generalizing s with
  | nil => rfl
  | cons e events ih =>
    have hNext := ih (doDispatch s e.1 e.2)
    rw [msg_doDispatch] at hNext
    exact hNext

theorem udpMsg_udpReport (s : Server) : (udpReport s).udpMsg = s.udpMsg := by
  obtain ⟨acted, hEq⟩ := udpReport_cases s
  rw [hEq]

theorem udpMsg_udpEvent (s : Server) (fd : Fd) (r : Recv) : (udpEvent s fd r).udpMsg = recvInto s.udpMsg r :=
  udpMsg_udpReport _

theorem udpMsg_udpEvents (s : Server) (events : List (Fd × Recv)) :
    (udpEvents s events).udpMsg = stored s.udpMsg events := by
  induction events generalizing s with
  | nil => rfl
  | cons e events ih =>
    have hNext := ih (udpEvent s e.1 e.2)
    rw [udpMsg_udpEvent] at hNext
    exact hNext

theorem udpRecvError_eq (s : Server) (fd : Fd) : udpRecvError s fd = udpEvent s fd .error := rfl

theorem udpRecv_eq {s t : Server} {fd : Fd} (h : udpRecv s fd = some t) :
    ∃ socks udpMsgFrom bytes, t = udpEvent { s with socks := socks, udpMsgFrom := udpMsgFrom } fd (.data bytes) := by
  obtain ⟨peer, addr, bytes, rest, _, rfl⟩ := udpRecv_cases h
  exact ⟨_, _, _, rfl⟩

theorem doDispatch_failed {s : Server} {fd : Fd} {r : Recv} (hFailed : r.failed = true) :
    doDispatch s fd r = dispatchClassify (s.close fd) fd := by
  rw [Lifetime.doDispatch_eq, dispatchRecv, if_pos hFailed, recvInto_failed hFailed]

theorem dispatchClassify_same_iff {s : Server} {fd : Fd} (hRuns : s.stopped = false) :
    dispatchClassify s fd = s ↔ classify (ofStorage s.msg) = .ignored := by
  have hActed : ∀ {t : Server} {a : Acted}, t.acted = s.acted ++ [a] → t ≠ s := by
    rintro t a hLonger rfl
    simp at hLonger
  rw [dispatchClassify]
  split
  · rename_i hAck
    rw [hAck]
    refine iff_of_false ?_ (by decide)
    split
    · intro hSame
      have hStopped := congrArg Server.stopped hSame
      rw [hRuns] at hStopped
      cases hStopped
    · exact hActed rfl
  · rename_i hPush
    rw [hPush]
    exact iff_of_false (hActed rfl) (by decide)
  · rename_i hIgnored
    exact iff_of_true rfl hIgnored

theorem udpReport_same_iff (s : Server) : udpReport s = s ↔ (ofStorage s.udpMsg).type ≠ sysSys := by
  rw [udpReport]
  split
  · rename_i hWarning
    refine iff_of_false ?_ (not_not.mpr hWarning)
    intro hSame
    have hLonger := congrArg Server.acted hSame
    simp at hLonger
  · rename_i hQuiet
    exact iff_of_true rfl hQuiet

/-- A failing recv does nothing but drop its descriptor exactly when the earlier recv calls left nothing
behind that the reactor acts on. -/
theorem failed_recv_silent_iff (s : Server) (events udp : List (Fd × Recv)) (fd : Fd) {r : Recv}
    (hFailed : r.failed = true) (hRuns : (dispatchEvents s events).stopped = false) :
    (doDispatch (dispatchEvents s events) fd r = (dispatchEvents s events).close fd ↔
      classify (ofStorage (stored s.msg events)) = .ignored) ∧
    (udpEvent (udpEvents s udp) fd .error = udpUnregister (udpEvents s udp) fd ↔
      (ofStorage (stored s.udpMsg udp)).type ≠ sysSys) := by
  constructor
  · rw [doDispatch_failed hFailed, ← msg_dispatchEvents]
    exact @dispatchClassify_same_iff ((dispatchEvents s events).close fd) fd hRuns
  · rw [← udpMsg_udpEvents]
    exact udpReport_same_iff (udpUnregister (udpEvents s udp) fd)

def report (type : BitVec 64) : Recv := .data ((cleared type).image (List.replicate padding 0))

/-- A report is read from one client, then another hangs up: the report is pushed again. The same
with a warning and a failing recv of udp_deal_with. -/
theorem report_replayed :
    ¬ (∀ (s : Server) (events : List (Fd × Recv)) (fd : Fd) (r : Recv), r.failed = true →
      (dispatchEvents s events).stopped = false →
        doDispatch (dispatchEvents s events) fd r = (dispatchEvents s events).close fd) ∧
    ¬ ∀ (s : Server) (events : List (Fd × Recv)) (fd : Fd),
      udpEvent (udpEvents s events) fd .error = udpUnregister (udpEvents s events) fd := by
  constructor
  · intro hAll
    have hActed := congrArg (fun t => t.acted.length)
      (hAll (justStarted config) [(5, report sysMem)] 6 .eof rfl (by decide +kernel))
    revert hActed
    decide +kernel
  · intro hAll
    have hActed := congrArg (fun t => t.acted.length) (hAll (justStarted config) [(7, report sysSys)] 8)
    revert hActed
    decide +kernel

def reportThenHeart : List (Fd × Recv) := [(5, report sysMem), (7, .eof), (5, report piHeart)]

def warningThenReport : List (Fd × Recv) := [(7, report sysSys), (8, .error), (7, report sysMem)]

/-- A report and a hang-up come before, but what the last recv read is nothing to act on. -/
theorem failed_recv_silent_after_report :
    doDispatch (dispatchEvents (justStarted config) reportThenHeart) 6 .eof =
        (dispatchEvents (justStarted config) reportThenHeart).close 6 ∧
      udpEvent (udpEvents (justStarted config) warningThenReport) 8 .error =
        udpUnregister (udpEvents (justStarted config) warningThenReport) 8 := by
  have hRuns : (dispatchEvents (justStarted config) reportThenHeart).stopped = false := by decide +kernel
  obtain ⟨hSilent, _⟩ := @failed_recv_silent_iff (justStarted config) reportThenHeart warningThenReport 6 .eof rfl hRuns
  obtain ⟨_, hUdp⟩ := @failed_recv_silent_iff (justStarted config) reportThenHeart warningThenReport 8 .eof rfl hRuns
  exact ⟨hSilent.mpr (by decide +kernel), hUdp.mpr (by decide +kernel)⟩

end MonitorSystem.FailedRecv
