import MonitorSystem.CheckOnline
import MonitorSystem.Insert

/-! # What ends the server process

The loops of do_login, do_dispatch and udp_deal_with, the workers and SIGALRM,
whose handler runs in the thread that the kernel chooses. A server that has
exited, received SIGPIPE or dereferenced null is stopped.
-/

namespace MonitorSystem.Lifetime

open Msg Dispatch ServerFunc CheckOnline Lib.CString Lib.Transition
open MonitorSystem.Insert (dealWithMonitorMsg)

inductive Thread
  | main
  | login
  | dispatch
  | udp
  | worker
deriving DecidableEq

/-- A loop around epoll_wait: in the call, about to serve the events it has
returned, or behind the recv for one of them. -/
inductive Loop
  | wait
  | serve (fd : Fd) (fds : List Fd)
  | received (fd : Fd) (fds : List Fd)
deriving DecidableEq

def Loop.next : List Fd → Loop
  | [] => .wait
  | fd :: fds => .serve fd fds

def Loop.left : Loop → List Fd
  | .wait => []
  | .serve fd fds => fd :: fds
  | .received _ fds => fds

/-- broken holds of the connections on which a send raises SIGPIPE; pushed
lists the messages that do_dispatch has pushed. -/
structure State where
  server : Server
  turn : Turn
  dispatcher : Loop
  udp : Loop
  broken : Nat → Bool
  pushed : List MonitorMsgDs

inductive Act
  | login (a : CheckOnline.Act)
  | acceptFails
  | reset (conn : Nat)
  | tick (thread : Thread)
  | events (fds : List Fd)
  | recv (r : Recv)
  | classify
  | datagram (fd : Fd) (addr : SockaddrIn) (bytes : Bytes)
  | udpEvents (fds : List Fd)
  | udpAccept (sockfd : Option Fd)
  | udpConnect (connected added : Bool)
  | udpRecv
  | udpStream (r : Recv)
  | udpError
  | work (msg : MonitorMsgDs)

def State.stop (s : State) : State := { s with server := { s.server with stopped := true } }

def sendBreaks (s : State) (fd : Fd) : Bool :=
  match s.server.socks fd with
  | some (.tcp conn) => s.broken conn
  | _ => false

/-- heart_beat sends to every client that is still counted. -/
def heartBeatBreaks (s : State) : Bool :=
  s.server.clients.entries.any fun client => 0 < client.2.isonline ∧ sendBreaks s client.1 = true

def dispatchRecv (s : Server) (sockfd : Fd) (r : Recv) : Server :=
  if r.failed then { s with msg := recvInto s.msg r }.close sockfd
  else { s with msg := recvInto s.msg r, msgFrom := connOf (s.socks sockfd) }

theorem msg_dispatchRecv (s : Server) (sockfd : Fd) (r : Recv) :
    (dispatchRecv s sockfd r).msg = recvInto s.msg r := by
  rw [dispatchRecv]
  split
  · rfl
  · rfl

/-- What do_dispatch does with the message variable after the recv. -/
def dispatchClassify (t : Server) (sockfd : Fd) : Server :=
  let msg := ofStorage t.msg
  match Dispatch.classify msg with
  | .ack =>
    match t.clients.lookup sockfd with
    | none => { t with stopped := true }
    | some client => { t with
        clients := t.clients.insert sockfd { client with isonline := 5 }
        acted := t.acted ++ [⟨t.msgFrom, msg⟩] }
  | .push => { t with acted := t.acted ++ [⟨t.msgFrom, msg⟩] }
  | .ignored => t

theorem doDispatch_eq (s : Server) (sockfd : Fd) (r : Recv) :
    doDispatch s sockfd r = dispatchClassify (dispatchRecv s sockfd r) sockfd := rfl

def maxEvents : Nat := 5

def Returned (reactor : Fd → Bool) (fds : List Fd) : Prop :=
  fds ≠ [] ∧ fds.length ≤ maxEvents ∧ fds.Nodup ∧ ∀ fd ∈ fds, reactor fd = true

instance (reactor : Fd → Bool) (fds : List Fd) : Decidable (Returned reactor fds) :=
  inferInstanceAs (Decidable (_ ∧ _ ∧ _ ∧ _))

def heartBeatErases (s : State) : Bool := s.server.clients.entries.any fun client => client.2.isonline = 1

/-- A tick whose loop goes on behind an erase: the handler, and then what becomes of the call
it interrupted. The select of do_login fails like one that times out. -/
def beat (s : State) (thread : Thread) : State :=
  if heartBeatBreaks s then s.stop
  else
    let t := { s with server := heartBeat s.server }
    if (thread = .dispatch ∧ s.dispatcher = .wait) ∨ (thread = .udp ∧ s.udp = .wait) then t.stop else t

/-- The loop of heart_beat steps on from the node it has erased, and nothing is defined from there. -/
def tick (s : State) (thread : Thread) : State := if heartBeatErases s then s.stop else beat s thread

def loginStep (cfg : Config) (s : State) (a : CheckOnline.Act) : Option State :=
  match s.turn, a with
  | .checked sockfd _ _ _ _, .reply _ =>
    if sendBreaks s sockfd then some s.stop
    else (turnStep cfg s.server s.turn a).map fun t => { s with server := t.server, turn := t.turn }
  | _, _ => (turnStep cfg s.server s.turn a).map fun t => { s with server := t.server, turn := t.turn }

def act (cfg : Config) (s : State) : Act → Option State
  | .login a => loginStep cfg s a
  | .acceptFails => if s.turn = .waiting then some s.stop else none
  | .reset conn => some { s with broken := Function.update s.broken conn true }
  | .tick thread => some (tick s thread)
  | .events fds =>
    if s.dispatcher = .wait ∧ Returned s.server.epollfd fds then some { s with dispatcher := .next fds } else none
  | .recv r =>
    match s.dispatcher with
    | .serve fd fds =>
      if r.within sizeofMsg then
        some { s with server := dispatchRecv s.server fd r, dispatcher := .received fd fds }
      else none
    | _ => none
  | .classify =>
    match s.dispatcher with
    | .received fd fds =>
      some { s with
        server := dispatchClassify s.server fd
        dispatcher := .next fds
        pushed := if Dispatch.classify (ofStorage s.server.msg) = .push then s.pushed ++ [ofStorage s.server.msg]
          else s.pushed }
    | _ => none
  | .datagram fd addr bytes => (arrive s.server fd addr bytes).map fun t => { s with server := t }
  | .udpEvents fds =>
    if s.udp = .wait ∧ Returned s.server.udpEpollfd fds then some { s with udp := .next fds } else none
  | .udpAccept sockfd =>
    match s.udp with
    | .serve fd _ =>
      if fd = cfg.udpServerListen ∧ s.server.accepting = none then
        (acceptUdpBind cfg s.server sockfd).map fun t => { s with server := t }
      else none
    | _ => none
  | .udpConnect connected added =>
    match s.udp with
    | .serve _ fds =>
      (acceptUdpConnect s.server connected added).map fun t => { s with server := t, udp := .next fds }
    | _ => none
  | .udpRecv =>
    match s.udp with
    | .serve fd fds =>
      if fd ≠ cfg.udpServerListen then
        (ServerFunc.udpRecv s.server fd).map fun t => { s with server := t, udp := .next fds }
      else none
    | _ => none
  | .udpStream r =>
    match s.udp with
    | .serve fd fds =>
      if fd ≠ cfg.udpServerListen ∧ r.within sizeofMsg then
        (udpRecvStream s.server fd r).map fun t => { s with server := t, udp := .next fds }
      else none
    | _ => none
  | .udpError =>
    match s.udp with
    | .serve fd fds =>
      if fd ≠ cfg.udpServerListen then some { s with server := udpRecvError s.server fd, udp := .next fds } else none
    | _ => none
  | .work msg =>
    if msg ∈ s.pushed then some (if dealWithMonitorMsg msg = .fault then s.stop else s) else none

def step (cfg : Config) (s : State) (a : Act) : Option State := if s.server.stopped then none else act cfg s a

def system (cfg : Config) : System State Act where
  start s := Initial cfg s.server ∧ s.server.stopped = false ∧ s.turn = .waiting ∧ s.dispatcher = .wait ∧
    s.udp = .wait ∧ s.pushed = []
  step := step cfg

def Request (cfg : Config) (s : Server) (bytes : Bytes) : Prop :=
  ∃ addr rest, s.socks cfg.udpServerListen = some (.udp none ((addr, bytes) :: rest))

/-- The branches that end the process: an exit, a send that raises SIGPIPE, an
erase under the iterator, a look-up or a worker that dereferences null. -/
def Ends (cfg : Config) (s : State) : Act → Prop
  | .login (.reply _) => ∃ sockfd ∈ s.turn.sockfd, sendBreaks s sockfd = true
  | .acceptFails => True
  | .tick thread => heartBeatErases s = true ∨ heartBeatBreaks s = true ∨
      (thread = .dispatch ∧ s.dispatcher = .wait) ∨ (thread = .udp ∧ s.udp = .wait)
  | .classify => ∃ fd fds, s.dispatcher = .received fd fds ∧
      Dispatch.classify (ofStorage s.server.msg) = .ack ∧ fd ∉ s.server.clients
  | .udpAccept sockfd => sockfd = none ∨ ∃ bytes, Request cfg s.server bytes ∧ bytes.length < tokenLen
  | .work msg => dealWithMonitorMsg msg = .fault
  | _ => False

def Spared (cfg : Config) (s : State) (a : Act) : Prop := ¬ Ends cfg s a

/-- The end of a turn of do_login that has inserted no client. -/
def Rejects (s t : State) : Prop := t.turn = .waiting ∧ ∀ sockfd, s.turn ≠ .inserted sockfd

/-- The process runs; a rejected login has closed its own descriptor and nothing
else; a tick has done what heart_beat does and stopped no loop. -/
structure Survives (cfg : Config) (s : State) : Prop where
  running : s.server.stopped = false
  rejected : ∀ a t, step cfg s (.login a) = some t → Rejects s t →
    t.server.clients = s.server.clients ∧ t.server.epollfd = s.server.epollfd ∧
      t.server.udpEpollfd = s.server.udpEpollfd ∧
      ∀ fd, s.turn.sockfd ≠ some fd → t.server.socks fd = s.server.socks fd
  interrupted : ∀ thread t, Spared cfg s (.tick thread) → step cfg s (.tick thread) = some t →
    t = { s with server := heartBeat s.server }

def kind : Sock → Sock
  | .udp _ _ => .udp none []
  | sock => sock

def kinds (s : Server) (fd : Fd) : Option Sock := (s.socks fd).map kind

/-- The connection of a turn of do_login is open and in no reactor. -/
structure Inv (s : Server) (turn : Turn) : Prop where
  running : s.stopped = false
  tcp : ∀ fd, s.epollfd fd = true → ∃ conn, kinds s fd = some (.tcp conn)
  udp : ∀ fd, s.udpEpollfd fd = true → kinds s fd = some (.udp none [])
  accepting : ∀ fd client, s.accepting = some (fd, client) → kinds s fd = some (.udp none [])
  pending : ∀ sockfd ∈ turn.sockfd, (∃ conn, kinds s sockfd = some (.tcp conn)) ∧ s.epollfd sockfd = false

/-- No descriptor of the batch has left the reactor. -/
structure Served (s : Server) (loop : Loop) : Prop where
  nodup : loop.left.Nodup
  epollfd : ∀ fd ∈ loop.left, s.epollfd fd = true

theorem kinds_update {s t : Server} {fd : Fd} {sock : Option Sock}
    (h : t.socks = Function.update s.socks fd sock) : kinds t = Function.update (kinds s) fd (sock.map kind) := by
  funext other
  rw [kinds, h]
  obtain rfl | hNe := eq_or_ne other fd
  · rw [Function.update_self, Function.update_self]
  · rw [Function.update_of_ne hNe, Function.update_of_ne hNe]
    rfl

theorem kinds_self {s t : Server} {fd : Fd} {sock : Sock}
    (h : t.socks = Function.update s.socks fd (some sock)) : kinds t fd = some (kind sock) := by
  rw [kinds_update h, Function.update_self]
  rfl

theorem kinds_same {s t : Server} (h : t.socks = s.socks) : kinds t = kinds s := by
  funext fd
  rw [kinds, h]
  rfl

theorem kinds_keep {s t : Server} {fd : Fd} {old new : Sock} (hOld : s.socks fd = some old)
    (h : t.socks = Function.update s.socks fd (some new)) (hKind : kind new = kind old) : kinds t = kinds s := by
  have hSame : some (kind new) = kinds s fd := by
    rw [kinds, hOld, hKind]
    rfl
  rw [kinds_update h, Option.map_some, hSame]
  exact Function.update_eq_self fd (kinds s)

theorem socks_of_kinds_tcp {s : Server} {fd : Fd} {conn : Nat} (h : kinds s fd = some (.tcp conn)) :
    s.socks fd = some (.tcp conn) := by
  obtain ⟨sock, hSock, hKind⟩ := Option.map_eq_some_iff.mp h
  cases sock with
  | tcp n =>
    cases hKind
    exact hSock
  | process => cases hKind
  | udp peer queue => cases hKind

/-- At most data has moved and records were counted. -/
structure Quiet (s t : Server) : Prop where
  stopped : t.stopped = s.stopped
  kinds : kinds t = kinds s
  epollfd : t.epollfd = s.epollfd
  udpEpollfd : t.udpEpollfd = s.udpEpollfd
  accepting : t.accepting = s.accepting

theorem Quiet.refl (s : Server) : Quiet s s := ⟨rfl, rfl, rfl, rfl, rfl⟩

theorem Quiet.trans {s t u : Server} (h : Quiet s t) (h' : Quiet t u) : Quiet s u where
  stopped := h'.stopped.trans h.stopped
  kinds := h'.kinds.trans h.kinds
  epollfd := h'.epollfd.trans h.epollfd
  udpEpollfd := h'.udpEpollfd.trans h.udpEpollfd
  accepting := h'.accepting.trans h.accepting

theorem Inv.quiet {s t : Server} {turn : Turn} (h : Inv s turn) (hQuiet : Quiet s t) : Inv t turn where
  running := hQuiet.stopped.trans h.running
  tcp := by
    intro fd hReg
    rw [hQuiet.kinds]
    exact h.tcp fd (hQuiet.epollfd ▸ hReg)
  udp := by
    intro fd hReg
    rw [hQuiet.kinds]
    exact h.udp fd (hQuiet.udpEpollfd ▸ hReg)
  accepting := by
    intro fd client hAccepting
    rw [hQuiet.kinds]
    exact h.accepting fd client (hQuiet.accepting ▸ hAccepting)
  pending := by
    rw [hQuiet.kinds, hQuiet.epollfd]
    exact h.pending

theorem Served.same {s t : Server} {loop : Loop} (h : Served s loop) (hEpoll : t.epollfd = s.epollfd) :
    Served t loop where
  nodup := h.nodup
  epollfd := by
    rw [hEpoll]
    exact h.epollfd

theorem Inv.rest {s : Server} {turn : Turn} (h : Inv s turn) : Inv s .waiting :=
  { h with pending := fun _ hNone => by cases hNone }

theorem Inv.congr_turn {s : Server} {turn next : Turn} (h : Inv s turn) (hNext : next.sockfd = turn.sockfd) :
    Inv s next :=
  { h with pending := hNext ▸ h.pending }

theorem Inv.close {s : Server} {turn : Turn} (h : Inv s turn) {fd : Fd} (hStream : kinds s fd ≠ some (.udp none []))
    (hOther : turn.sockfd ≠ some fd) : Inv (s.close fd) turn := by
  have hKinds : kinds (s.close fd) = Function.update (kinds s) fd none :=
    @kinds_update s (s.close fd) fd none rfl
  have hApart : ∀ other, kinds s other = some (.udp none []) → other ≠ fd := by
    rintro other hUdp rfl
    exact hStream hUdp
  constructor
  · exact h.running
  · intro other hReg
    obtain rfl | hNe := eq_or_ne other fd
    · simp [Server.close] at hReg
    · have hStill : s.epollfd other = true := by simpa [Server.close, hNe] using hReg
      rw [hKinds, Function.update_of_ne hNe]
      exact h.tcp other hStill
  · intro other hReg
    obtain rfl | hNe := eq_or_ne other fd
    · simp [Server.close] at hReg
    · have hStill : s.udpEpollfd other = true := by simpa [Server.close, hNe] using hReg
      rw [hKinds, Function.update_of_ne hNe]
      exact h.udp other hStill
  · intro other client hAccepting
    have hUdp := h.accepting other client hAccepting
    rw [hKinds, Function.update_of_ne (hApart other hUdp)]
    exact hUdp
  · intro sockfd hPending
    obtain ⟨⟨conn, hSock⟩, hReg⟩ := h.pending sockfd hPending
    have hNe : sockfd ≠ fd := by
      rintro rfl
      exact hOther hPending
    refine ⟨⟨conn, ?_⟩, ?_⟩
    · rw [hKinds, Function.update_of_ne hNe]
      exact hSock
    · exact (Function.update_of_ne hNe false s.epollfd).trans hReg

theorem Served.close {s : Server} {loop : Loop} (h : Served s loop) {fd : Fd} (hOther : fd ∉ loop.left) :
    Served (s.close fd) loop where
  nodup := h.nodup
  epollfd := by
    intro other hLeft
    rw [Server.close]
    dsimp only
    rw [Function.update_of_ne]
    · exact h.epollfd other hLeft
    · rintro rfl
      exact hOther hLeft

theorem quiet_heartBeatOne {s : Server} {fd : Fd}
    (hLeft : ∀ client, s.clients.lookup fd = some client → client.isonline ≠ 1) : Quiet s (heartBeatOne s fd) := by
  obtain hSame | ⟨client, hLookup, ⟨hOne, _⟩ | ⟨_, hCounted⟩⟩ := heartBeatOne_cases s fd
  · rw [hSame]
    exact .refl s
  · exact absurd hOne (hLeft client hLookup)
  · rw [hCounted]
    exact ⟨rfl, rfl, rfl, rfl, rfl⟩

theorem heartBeatOne_other {s : Server} {fd other : Fd} (hNe : other ≠ fd) :
    (heartBeatOne s fd).clients.lookup other = s.clients.lookup other ∧
      (heartBeatOne s fd).socks other = s.socks other := by
  obtain hSame | ⟨client, _, ⟨_, hLast⟩ | ⟨_, hCounted⟩⟩ := heartBeatOne_cases s fd
  · rw [hSame]
    exact ⟨rfl, rfl⟩
  · rw [hLast]
    exact ⟨AList.lookup_erase_ne hNe, Function.update_of_ne hNe ..⟩
  · rw [hCounted]
    exact ⟨AList.lookup_insert_ne hNe, rfl⟩

theorem quiet_visits {s : Server} {fds : List Fd} (hNodup : fds.Nodup)
    (hLeft : ∀ fd ∈ fds, ∀ client, s.clients.lookup fd = some client → client.isonline ≠ 1) :
    Quiet s (fds.foldl heartBeatOne s) := by
  induction fds generalizing s with
  | nil => exact .refl s
  | cons fd fds ih =>
    obtain ⟨hFresh, hRest⟩ := List.nodup_cons.mp hNodup
    rw [List.foldl_cons]
    apply (quiet_heartBeatOne (hLeft fd List.mem_cons_self)).trans
    apply ih hRest
    intro other hOther client hLookup
    have hNe : other ≠ fd := by
      rintro rfl
      exact hFresh hOther
    rw [(heartBeatOne_other hNe).1] at hLookup
    exact hLeft other (List.mem_cons_of_mem fd hOther) client hLookup

theorem left_of_not_erases {s : State} (h : heartBeatErases s ≠ true) {fd : Fd} {client : ClientDs}
    (hLookup : s.server.clients.lookup fd = some client) : client.isonline ≠ 1 := by
  intro hOne
  apply h
  rw [heartBeatErases, List.any_eq_true]
  exact ⟨⟨fd, client⟩, AList.mem_lookup_iff.mp hLookup, decide_eq_true hOne⟩

theorem quiet_heartBeat {s : State} (h : heartBeatErases s ≠ true) : Quiet s.server (heartBeat s.server) := by
  apply quiet_visits
  · exact (List.perm_insertionSort (· ≤ ·) s.server.clients.keys).nodup_iff.mpr s.server.clients.nodupKeys
  · intro fd _ client hLookup
    exact left_of_not_erases h hLookup

theorem Inv.dispatchRecv {s : Server} {turn : Turn} (h : Inv s turn) {fd : Fd} (hReg : s.epollfd fd = true)
    (r : Recv) : Inv (dispatchRecv s fd r) turn := by
  rw [Lifetime.dispatchRecv]
  split
  · have hStored : Inv { s with msg := recvInto s.msg r } turn := h.quiet ⟨rfl, rfl, rfl, rfl, rfl⟩
    apply hStored.close
    · obtain ⟨conn, hTcp⟩ := h.tcp fd hReg
      intro hUdp
      cases hTcp.symm.trans hUdp
    · intro hPending
      obtain ⟨_, hUnreg⟩ := h.pending fd hPending
      cases hReg.symm.trans hUnreg
  · exact h.quiet ⟨rfl, rfl, rfl, rfl, rfl⟩

theorem Served.dispatchRecv {s : Server} {fd : Fd} {fds : List Fd} (h : Served s (.serve fd fds)) (r : Recv) :
    Served (dispatchRecv s fd r) (.received fd fds) := by
  obtain ⟨hFresh, hNodup⟩ := List.nodup_cons.mp h.nodup
  have hBehind : Served s (.received fd fds) :=
    ⟨hNodup, fun other hLeft => h.epollfd other (List.mem_cons_of_mem fd hLeft)⟩
  rw [Lifetime.dispatchRecv]
  split
  · exact @Served.close { s with msg := recvInto s.msg r } _ (hBehind.same rfl) fd hFresh
  · exact hBehind.same rfl

theorem Inv.dispatchClassify {s : Server} {turn : Turn} (h : Inv s turn) {fd : Fd}
    (hKnown : Dispatch.classify (ofStorage s.msg) = .ack → fd ∈ s.clients) : Inv (dispatchClassify s fd) turn := by
  rw [Lifetime.dispatchClassify]
  split
  · rename_i hAck
    split
    · rename_i hNone
      have hMem := AList.lookup_isSome.mpr (hKnown hAck)
      rw [hNone] at hMem
      cases hMem
    · exact h.quiet ⟨rfl, rfl, rfl, rfl, rfl⟩
  · exact h.quiet ⟨rfl, rfl, rfl, rfl, rfl⟩
  · exact h

theorem dispatchClassify_epollfd (s : Server) (fd : Fd) : (dispatchClassify s fd).epollfd = s.epollfd := by
  rw [dispatchClassify]
  split
  · split
    · rfl
    · rfl
  · rfl
  · rfl

theorem quiet_arrive {s t : Server} {fd : Fd} {addr : SockaddrIn} {bytes : Bytes}
    (h : arrive s fd addr bytes = some t) : Quiet s t := by
  obtain ⟨peer, queue, hSock, _, rfl⟩ := arrive_cases h
  exact ⟨rfl, kinds_keep hSock rfl rfl, rfl, rfl, rfl⟩

theorem quiet_report (s : Server) : Quiet s (udpReport s) := by
  obtain ⟨acted, hEq⟩ := udpReport_cases s
  rw [hEq]
  exact ⟨rfl, rfl, rfl, rfl, rfl⟩

theorem Inv.udpRecv {s t : Server} {turn : Turn} {fd : Fd} (h : Inv s turn) (hRecv : udpRecv s fd = some t) :
    Inv t turn := by
  obtain ⟨peer, addr, bytes, rest, hSock, rfl⟩ := udpRecv_cases hRecv
  have hTaken : Inv { s with
      socks := Function.update s.socks fd (some (.udp peer rest))
      udpMsg := recvInto s.udpMsg (.data (bytes.take sizeofMsg))
      udpMsgFrom := if bytes = [] then s.udpMsgFrom else .peer addr } turn :=
    h.quiet ⟨rfl, kinds_keep hSock rfl rfl, rfl, rfl, rfl⟩
  exact hTaken.quiet (quiet_report _)

theorem Inv.udpStream {s t : Server} {turn : Turn} {fd : Fd} {r : Recv} (h : Inv s turn)
    (hRecv : udpRecvStream s fd r = some t) : Inv t turn := by
  obtain ⟨conn, _, rfl⟩ := udpRecvStream_cases hRecv
  have hTaken : Quiet s { s with
      udpMsg := recvInto s.udpMsg r
      udpMsgFrom := if r.failed then s.udpMsgFrom else .conn conn } := ⟨rfl, rfl, rfl, rfl, rfl⟩
  exact (h.quiet hTaken).quiet (quiet_report _)

theorem Inv.udpError {s : Server} {turn : Turn} (h : Inv s turn) (fd : Fd) : Inv (udpRecvError s fd) turn := by
  have hDropped : Inv { s with udpEpollfd := Function.update s.udpEpollfd fd false } turn := by
    refine { h with udp := ?_ }
    intro other hReg
    obtain rfl | hNe := eq_or_ne other fd
    · simp at hReg
    · exact h.udp other ((Function.update_of_ne hNe ..).symm.trans hReg)
  exact hDropped.quiet (quiet_report _)

theorem Inv.opened {s t : Server} {turn : Turn} (h : Inv s turn) {fd : Fd} {sock : Sock} (hFree : s.socks fd = none)
    (hSocks : t.socks = Function.update s.socks fd (some sock)) (hStopped : t.stopped = s.stopped)
    (hEpoll : t.epollfd = s.epollfd) (hUdpEpoll : t.udpEpollfd = s.udpEpollfd)
    (hAccepting : ∀ other client, t.accepting = some (other, client) →
      kinds t other = some (.udp none [])) : Inv t turn := by
  have hStays : ∀ other, kinds s other ≠ none → kinds t other = kinds s other := by
    intro other hOpen
    rw [kinds_update hSocks, Function.update_of_ne]
    rintro rfl
    apply hOpen
    rw [kinds, hFree]
    rfl
  constructor
  · exact hStopped.trans h.running
  · intro other hReg
    obtain ⟨conn, hTcp⟩ := h.tcp other (hEpoll ▸ hReg)
    refine ⟨conn, ?_⟩
    rw [hStays other (by simp [hTcp]), hTcp]
  · intro other hReg
    have hUdp := h.udp other (hUdpEpoll ▸ hReg)
    rw [hStays other (by simp [hUdp]), hUdp]
  · exact hAccepting
  · intro sockfd hPending
    obtain ⟨⟨conn, hTcp⟩, hUnreg⟩ := h.pending sockfd hPending
    refine ⟨⟨conn, ?_⟩, ?_⟩
    · rw [hStays sockfd (by simp [hTcp]), hTcp]
    · rw [hEpoll]
      exact hUnreg

theorem Inv.udpAccept {cfg : Config} {s t : Server} {turn : Turn} {sockfd : Option Fd} (h : Inv s turn)
    (hSockfd : sockfd ≠ none) (hWhole : ∀ bytes, Request cfg s bytes → tokenLen ≤ bytes.length)
    (hBind : acceptUdpBind cfg s sockfd = some t) : Inv t turn := by
  obtain ⟨client, bytes, rest, hSock, ⟨hRefused, _⟩ | ⟨fd, _, _, hFree, rfl⟩⟩ := acceptUdpBind_cases hBind
  · obtain hShort | hNone := hRefused
    · exact absurd (hWhole bytes ⟨client, rest, hSock⟩) (Nat.not_le.mpr hShort)
    · exact absurd hNone hSockfd
  · have hTaken : Inv (requestRead cfg s rest) turn :=
      h.quiet ⟨rfl, kinds_keep hSock rfl rfl, rfl, rfl, rfl⟩
    refine hTaken.opened hFree rfl rfl rfl rfl ?_
    intro other client' hAccepting
    cases hAccepting
    exact @kinds_self { s with socks := _ } _ fd (.udp none []) rfl

theorem Inv.udpConnect {s t : Server} {turn : Turn} {connected added : Bool} (h : Inv s turn)
    (hConnect : acceptUdpConnect s connected added = some t) : Inv t turn := by
  obtain ⟨fd, client, socks, hAccepting, hEq, hSocks⟩ := acceptUdpConnect_cases hConnect
  have hUdp := h.accepting fd client hAccepting
  have hKinds : kinds t = kinds s := by
    obtain ⟨hSame, _⟩ | ⟨queue, hSock, hUpdate⟩ := hSocks
    · exact kinds_same ((congrArg Server.socks hEq).trans hSame)
    · exact kinds_keep hSock ((congrArg Server.socks hEq).trans hUpdate) rfl
  have hRest : ∀ other, t.udpEpollfd other = true → kinds t other = some (.udp none []) := by
    intro other hReg
    rw [hKinds]
    subst hEq
    dsimp only at hReg
    split at hReg
    · obtain rfl | hNe := eq_or_ne other fd
      · exact hUdp
      · rw [Function.update_of_ne hNe] at hReg
        exact h.udp other hReg
    · exact h.udp other hReg
  subst hEq
  refine ⟨h.running, ?_, hRest, ?_, ?_⟩
  · rw [hKinds]
    exact h.tcp
  · intro other client' hNone
    cases hNone
  · rw [hKinds]
    exact h.pending

theorem Inv.token {s : Server} {turn : Turn} (h : Inv s turn) (conn : Nat) (token_tmp : Bytes) :
    Inv { s with presented := s.presented.set conn token_tmp } turn :=
  h.quiet ⟨rfl, rfl, rfl, rfl, rfl⟩

theorem Inv.drop {s : Server} {turn : Turn} (h : Inv s turn) {sockfd : Fd} (hTurn : turn.sockfd = some sockfd) :
    Inv (s.close sockfd) .waiting := by
  obtain ⟨⟨conn, hTcp⟩, _⟩ := h.pending sockfd hTurn
  apply h.rest.close
  · intro hUdp
    cases hTcp.symm.trans hUdp
  · intro hNone
    cases hNone

theorem Inv.accept {s : Server} (h : Inv s .waiting) {sockfd : Fd} (hFree : s.socks sockfd = none)
    (client : SockaddrIn) :
    Inv (CheckOnline.accept s sockfd client).server (CheckOnline.accept s sockfd client).turn := by
  have hKinds := @kinds_self s (CheckOnline.accept s sockfd client).server sockfd _ rfl
  have hOpened : Inv (CheckOnline.accept s sockfd client).server .waiting := by
    refine h.opened hFree rfl rfl rfl rfl ?_
    intro other addr hAccepting
    have hUdp := h.accepting other addr hAccepting
    rw [@kinds_update s _ sockfd _ rfl, Function.update_of_ne]
    · exact hUdp
    · rintro rfl
      rw [kinds, hFree] at hUdp
      cases hUdp
  refine { hOpened with pending := ?_ }
  intro fd hPending
  cases hPending
  refine ⟨⟨_, hKinds⟩, ?_⟩
  rw [Bool.eq_false_iff]
  intro hReg
  obtain ⟨conn, hTcp⟩ := h.tcp sockfd hReg
  cases hFree.symm.trans (socks_of_kinds_tcp hTcp)

theorem Inv.addToReactor {s : Server} {sockfd : Fd} (h : Inv s (.inserted sockfd)) (added : Bool) :
    Inv { s with
      epollfd := if added = true ∧ s.socks sockfd ≠ none then Function.update s.epollfd sockfd true
        else s.epollfd } .waiting where
  running := h.running
  tcp := by
    intro fd hReg
    dsimp only at hReg
    split at hReg
    · obtain rfl | hNe := eq_or_ne fd sockfd
      · exact (h.pending fd rfl).1
      · rw [Function.update_of_ne hNe] at hReg
        exact h.tcp fd hReg
    · exact h.tcp fd hReg
  udp := h.udp
  accepting := h.accepting
  pending _ hNone := by cases hNone

theorem Inv.turnStep {cfg : Config} {s : Server} {turn : Turn} {a : CheckOnline.Act} {t : CheckOnline.State}
    (h : Inv s turn) (hStep : turnStep cfg s turn a = some t) : Inv t.server t.turn := by
  unfold CheckOnline.turnStep at hStep
  split at hStep
  · obtain ⟨hFree, hEq⟩ := Option.ite_none_right_eq_some.mp hStep
    cases hEq
    exact h.accept hFree _
  · rename_i sockfd client conn ready r
    obtain ⟨_, hRest⟩ := Option.ite_none_left_eq_some.mp hStep
    have hStored := h.token conn (tokenTmp r)
    split at hRest
    · cases hRest
      exact hStored.drop rfl
    · cases hRest
      exact hStored.congr_turn rfl
  · cases hStep
    exact h.congr_turn rfl
  · split at hStep
    · cases hStep
      exact h.drop rfl
    · cases hStep
      exact h.congr_turn rfl
  · cases hStep
    have hTurn : Inv s (.inserted _) := h.congr_turn rfl
    exact hTurn.quiet ⟨rfl, rfl, rfl, rfl, rfl⟩
  · cases hStep
    exact h.addToReactor _
  · cases hStep

theorem sockfd_not_left {s : Server} {turn : Turn} {loop : Loop} (h : Inv s turn) (hServed : Served s loop)
    {sockfd : Fd} (hTurn : turn.sockfd = some sockfd) : sockfd ∉ loop.left := by
  intro hLeft
  obtain ⟨_, hUnreg⟩ := h.pending sockfd hTurn
  cases (hServed.epollfd sockfd hLeft).symm.trans hUnreg

theorem Served.turnStep {cfg : Config} {s : Server} {turn : Turn} {loop : Loop} {a : CheckOnline.Act}
    {t : CheckOnline.State} (hServed : Served s loop) (h : Inv s turn) (hStep : turnStep cfg s turn a = some t) :
    Served t.server loop := by
  unfold CheckOnline.turnStep at hStep
  split at hStep
  · obtain ⟨_, hEq⟩ := Option.ite_none_right_eq_some.mp hStep
    cases hEq
    exact hServed.same rfl
  · rename_i sockfd client conn ready r
    obtain ⟨_, hRest⟩ := Option.ite_none_left_eq_some.mp hStep
    split at hRest
    · cases hRest
      apply Served.close
      · exact hServed.same rfl
      · exact sockfd_not_left h hServed rfl
    · cases hRest
      exact hServed.same rfl
  · cases hStep
    exact hServed
  · split at hStep
    · cases hStep
      exact hServed.close (sockfd_not_left h hServed rfl)
    · cases hStep
      exact hServed
  · cases hStep
    exact hServed.same rfl
  · rename_i sockfd added
    cases hStep
    refine ⟨hServed.nodup, ?_⟩
    intro fd hLeft
    dsimp only
    split
    · rw [Function.update_apply]
      split
      · rfl
      · exact hServed.epollfd fd hLeft
    · exact hServed.epollfd fd hLeft
  · cases hStep

theorem loginStep_cases {cfg : Config} {s t : State} {a : CheckOnline.Act} (h : loginStep cfg s a = some t) :
    (Ends cfg s (.login a) ∧ t = s.stop) ∨ (¬ Ends cfg s (.login a) ∧
      ∃ u, turnStep cfg s.server s.turn a = some u ∧ t = { s with server := u.server, turn := u.turn }) := by
  unfold loginStep at h
  split at h
  · rename_i sockfd client conn token_tmp ack sent hTurn
    have hSockfd : s.turn.sockfd = some sockfd := by
      rw [hTurn]
      rfl
    split at h
    · rename_i hBreaks
      cases h
      exact .inl ⟨⟨sockfd, hSockfd, hBreaks⟩, rfl⟩
    · rename_i hSends
      obtain ⟨u, hStep, hEq⟩ := Option.map_eq_some_iff.mp h
      refine .inr ⟨?_, u, hStep, hEq.symm⟩
      rintro ⟨other, hOther, hBreaks⟩
      cases hSockfd.symm.trans hOther
      exact hSends hBreaks
  · rename_i a _ _ hOther
    obtain ⟨u, hStep, hEq⟩ := Option.map_eq_some_iff.mp h
    refine .inr ⟨?_, u, hStep, hEq.symm⟩
    cases a with
    | reply sent =>
      cases hTurn : s.turn with
      | checked sockfd client conn token_tmp ack =>
        exact absurd rfl (hOther sockfd client conn token_tmp ack sent hTurn)
      | _ =>
        rw [hTurn] at hStep
        cases hStep
    | _ => exact id

theorem tick_spared {cfg : Config} {s : State} {thread : Thread} (h : Spared cfg s (.tick thread)) :
    heartBeatErases s ≠ true ∧ tick s thread = { s with server := heartBeat s.server } := by
  obtain ⟨hLeft, hRest⟩ := not_or.mp h
  obtain ⟨hSends, hInterrupted⟩ := not_or.mp hRest
  rw [tick, if_neg hLeft, beat, if_neg hSends]
  exact ⟨hLeft, if_neg hInterrupted⟩

def Moves (s : State) (loop : Loop) : Act → Prop
  | .events fds => Returned s.server.epollfd fds ∧ loop = .next fds
  | .recv _ => ∃ fd fds, s.dispatcher = .serve fd fds ∧ loop = .received fd fds
  | .classify => ∃ fd fds, s.dispatcher = .received fd fds ∧ loop = .next fds
  | _ => loop = s.dispatcher

/-- What a step of another loop, of a worker or of the kernel does to the server. -/
def Does (cfg : Config) (s : State) (t : Server) : Act → Prop
  | .login _ => False
  | .acceptFails => t = s.stop.server
  | .tick thread => t = (tick s thread).server
  | .recv r => ∃ fd fds, s.dispatcher = .serve fd fds ∧ t = dispatchRecv s.server fd r
  | .classify => ∃ fd fds, s.dispatcher = .received fd fds ∧ t = dispatchClassify s.server fd
  | .datagram fd addr bytes => arrive s.server fd addr bytes = some t
  | .udpAccept sockfd => s.server.accepting = none ∧ acceptUdpBind cfg s.server sockfd = some t
  | .udpConnect connected added => acceptUdpConnect s.server connected added = some t
  | .udpRecv => ∃ fd fds, s.udp = .serve fd fds ∧ fd ≠ cfg.udpServerListen ∧ ServerFunc.udpRecv s.server fd = some t
  | .udpStream r => ∃ fd fds, s.udp = .serve fd fds ∧ udpRecvStream s.server fd r = some t
  | .udpError => ∃ fd fds, s.udp = .serve fd fds ∧ t = udpRecvError s.server fd
  | .work msg => t = if dealWithMonitorMsg msg = .fault then s.stop.server else s.server
  | .reset _ | .events _ | .udpEvents _ => t = s.server

theorem beat_frame (s : State) (thread : Thread) : ∃ server, beat s thread = { s with server := server } := by
  rw [beat]
  split
  · exact ⟨_, rfl⟩
  · dsimp only
    split
    · exact ⟨_, rfl⟩
    · exact ⟨_, rfl⟩

theorem tick_frame (s : State) (thread : Thread) : ∃ server, tick s thread = { s with server := server } := by
  rw [tick]
  split
  · exact ⟨_, rfl⟩
  · exact beat_frame s thread

theorem act_does {cfg : Config} {s t : State} {a : Act} (hLogin : ∀ b, a ≠ .login b) (h : act cfg s a = some t) :
    t.turn = s.turn ∧ Moves s t.dispatcher a ∧ Does cfg s t.server a := by
  cases a with
  | login b => exact absurd rfl (hLogin b)
  | acceptFails =>
    obtain ⟨_, hEq⟩ := Option.ite_none_right_eq_some.mp h
    cases hEq
    exact ⟨rfl, rfl, rfl⟩
  | reset conn =>
    cases h
    exact ⟨rfl, rfl, rfl⟩
  | tick thread =>
    cases h
    obtain ⟨server, hTick⟩ := tick_frame s thread
    refine ⟨?_, ?_, rfl⟩
    · rw [hTick]
    · rw [hTick]
      rfl
  | events fds =>
    obtain ⟨⟨_, hReturned⟩, hEq⟩ := Option.ite_none_right_eq_some.mp h
    cases hEq
    exact ⟨rfl, ⟨hReturned, rfl⟩, rfl⟩
  | recv r =>
    rw [act] at h
    split at h
    · rename_i fd fds hServe
      obtain ⟨_, hEq⟩ := Option.ite_none_right_eq_some.mp h
      cases hEq
      exact ⟨rfl, ⟨fd, fds, hServe, rfl⟩, fd, fds, hServe, rfl⟩
    · cases h
  | classify =>
    rw [act] at h
    split at h
    · rename_i fd fds hReceived
      cases h
      exact ⟨rfl, ⟨fd, fds, hReceived, rfl⟩, fd, fds, hReceived, rfl⟩
    · cases h
  | datagram fd addr bytes =>
    obtain ⟨u, hArrive, rfl⟩ := Option.map_eq_some_iff.mp h
    exact ⟨rfl, rfl, hArrive⟩
  | udpEvents fds =>
    obtain ⟨_, hEq⟩ := Option.ite_none_right_eq_some.mp h
    cases hEq
    exact ⟨rfl, rfl, rfl⟩
  | udpAccept sockfd =>
    rw [act] at h
    split at h
    · obtain ⟨⟨_, hIdle⟩, hMap⟩ := Option.ite_none_right_eq_some.mp h
      obtain ⟨u, hBind, rfl⟩ := Option.map_eq_some_iff.mp hMap
      exact ⟨rfl, rfl, hIdle, hBind⟩
    · cases h
  | udpConnect connected added =>
    rw [act] at h
    split at h
    · obtain ⟨u, hConnect, rfl⟩ := Option.map_eq_some_iff.mp h
      exact ⟨rfl, rfl, hConnect⟩
    · cases h
  | udpRecv =>
    rw [act] at h
    split at h
    · rename_i fd fds hServe
      obtain ⟨hOther, hMap⟩ := Option.ite_none_right_eq_some.mp h
      obtain ⟨u, hRecv, rfl⟩ := Option.map_eq_some_iff.mp hMap
      exact ⟨rfl, rfl, fd, fds, hServe, hOther, hRecv⟩
    · cases h
  | udpStream r =>
    rw [act] at h
    split at h
    · rename_i fd fds hServe
      obtain ⟨_, hMap⟩ := Option.ite_none_right_eq_some.mp h
      obtain ⟨u, hRecv, rfl⟩ := Option.map_eq_some_iff.mp hMap
      exact ⟨rfl, rfl, fd, fds, hServe, hRecv⟩
    · cases h
  | udpError =>
    rw [act] at h
    split at h
    · rename_i fd fds hServe
      obtain ⟨_, hEq⟩ := Option.ite_none_right_eq_some.mp h
      cases hEq
      exact ⟨rfl, rfl, fd, fds, hServe, rfl⟩
    · cases h
  | work msg =>
    obtain ⟨_, hEq⟩ := Option.ite_none_right_eq_some.mp h
    cases hEq
    rw [Does]
    split
    · exact ⟨rfl, rfl, rfl⟩
    · exact ⟨rfl, rfl, rfl⟩

theorem Inv.does {cfg : Config} {s : State} {t : Server} {a : Act} (h : Inv s.server s.turn)
    (hServed : Served s.server s.dispatcher) (hSpared : Spared cfg s a) (hDoes : Does cfg s t a) : Inv t s.turn := by
  cases a with
  | login b => cases hDoes
  | acceptFails => exact absurd trivial hSpared
  | reset conn => exact hDoes ▸ h
  | events fds => exact hDoes ▸ h
  | udpEvents fds => exact hDoes ▸ h
  | tick thread =>
    obtain ⟨hLeft, hTick⟩ := tick_spared hSpared
    cases hDoes
    rw [hTick]
    exact h.quiet (quiet_heartBeat hLeft)
  | recv r =>
    obtain ⟨fd, fds, hServe, rfl⟩ := hDoes
    rw [hServe] at hServed
    exact h.dispatchRecv (hServed.epollfd fd List.mem_cons_self) r
  | classify =>
    obtain ⟨fd, fds, hReceived, rfl⟩ := hDoes
    apply h.dispatchClassify
    intro hAck
    by_contra hUnknown
    exact hSpared ⟨fd, fds, hReceived, hAck, hUnknown⟩
  | datagram fd addr bytes => exact h.quiet (quiet_arrive hDoes)
  | udpAccept sockfd =>
    obtain ⟨hSockfd, hWhole⟩ := not_or.mp hSpared
    refine h.udpAccept hSockfd ?_ hDoes.2
    intro bytes hRequest
    by_contra hShort
    exact hWhole ⟨bytes, hRequest, Nat.lt_of_not_le hShort⟩
  | udpConnect connected added => exact h.udpConnect hDoes
  | udpRecv =>
    obtain ⟨fd, _, _, _, hRecv⟩ := hDoes
    exact h.udpRecv hRecv
  | udpStream r =>
    obtain ⟨fd, _, _, hRecv⟩ := hDoes
    exact h.udpStream hRecv
  | udpError =>
    obtain ⟨fd, _, _, rfl⟩ := hDoes
    exact h.udpError fd
  | work msg =>
    have hHandled : dealWithMonitorMsg msg ≠ .fault := hSpared
    rw [Does, if_neg hHandled] at hDoes
    exact hDoes ▸ h

theorem report_epollfd (s : Server) : (udpReport s).epollfd = s.epollfd := (quiet_report s).epollfd

theorem does_epollfd {cfg : Config} {s : State} {t : Server} {a : Act} (hRecv : ∀ r, a ≠ .recv r)
    (hSpared : Spared cfg s a) (hDoes : Does cfg s t a) : t.epollfd = s.server.epollfd := by
  cases a with
  | login b => cases hDoes
  | acceptFails => exact absurd trivial hSpared
  | recv r => exact absurd rfl (hRecv r)
  | reset conn => exact congrArg Server.epollfd hDoes
  | events fds => exact congrArg Server.epollfd hDoes
  | udpEvents fds => exact congrArg Server.epollfd hDoes
  | tick thread =>
    obtain ⟨hLeft, hTick⟩ := tick_spared hSpared
    cases hDoes
    rw [hTick]
    exact (quiet_heartBeat hLeft).epollfd
  | classify =>
    obtain ⟨fd, fds, _, rfl⟩ := hDoes
    exact dispatchClassify_epollfd s.server fd
  | datagram fd addr bytes => exact (quiet_arrive hDoes).epollfd
  | udpAccept sockfd =>
    obtain ⟨_, _, _, _, ⟨_, rfl⟩ | ⟨_, _, _, _, rfl⟩⟩ := acceptUdpBind_cases hDoes.2
    · rfl
    · rfl
  | udpConnect connected added =>
    obtain ⟨_, _, rfl⟩ := Option.map_eq_some_iff.mp hDoes
    rfl
  | udpRecv =>
    obtain ⟨_, _, _, _, hRecv⟩ := hDoes
    obtain ⟨_, _, _, _, _, rfl⟩ := udpRecv_cases hRecv
    exact report_epollfd _
  | udpStream r =>
    obtain ⟨_, _, _, hRecv⟩ := hDoes
    obtain ⟨_, _, rfl⟩ := udpRecvStream_cases hRecv
    exact report_epollfd _
  | udpError =>
    obtain ⟨fd, _, _, rfl⟩ := hDoes
    exact report_epollfd _
  | work msg =>
    have hHandled : dealWithMonitorMsg msg ≠ .fault := hSpared
    rw [Does, if_neg hHandled] at hDoes
    rw [hDoes]

theorem served_next {s : Server} {fds : List Fd} (hNodup : fds.Nodup) (hReg : ∀ fd ∈ fds, s.epollfd fd = true) :
    Served s (.next fds) := by
  cases fds with
  | nil => exact ⟨List.nodup_nil, hReg⟩
  | cons fd fds => exact ⟨hNodup, hReg⟩

theorem Served.moves {s : State} {loop : Loop} {a : Act} (h : Served s.server s.dispatcher) (hRecv : ∀ r, a ≠ .recv r)
    (hMoves : Moves s loop a) : Served s.server loop := by
  cases a with
  | recv r => exact absurd rfl (hRecv r)
  | events fds =>
    obtain ⟨⟨_, _, hNodup, hReg⟩, rfl⟩ := hMoves
    exact served_next hNodup hReg
  | classify =>
    obtain ⟨fd, fds, hReceived, rfl⟩ := hMoves
    rw [hReceived] at h
    exact served_next h.nodup h.epollfd
  | _ =>
    cases hMoves
    exact h

structure Sound (s : State) : Prop extends Inv s.server s.turn, Served s.server s.dispatcher

theorem sound_act {cfg : Config} {s t : State} {a : Act} (h : Sound s) (hSpared : Spared cfg s a)
    (hAct : act cfg s a = some t) : Sound t := by
  by_cases hLogin : ∃ b, a = .login b
  · obtain ⟨b, rfl⟩ := hLogin
    obtain ⟨hEnds, _⟩ | ⟨_, u, hStep, rfl⟩ := loginStep_cases hAct
    · exact absurd hEnds hSpared
    · exact { h.toInv.turnStep hStep, h.toServed.turnStep h.toInv hStep with }
  · obtain ⟨hTurn, hMoves, hDoes⟩ := act_does (not_exists.mp hLogin) hAct
    have hInv : Inv t.server t.turn := hTurn ▸ h.toInv.does h.toServed hSpared hDoes
    have hServed : Served t.server t.dispatcher := by
      by_cases hRecv : ∃ r, a = .recv r
      · obtain ⟨r, rfl⟩ := hRecv
        obtain ⟨fd, fds, hServe, hServer⟩ := hDoes
        obtain ⟨fd', fds', hServe', hLoop⟩ := hMoves
        cases hServe.symm.trans hServe'
        rw [hServer, hLoop]
        exact (hServe ▸ h.toServed).dispatchRecv r
      · have hOther := not_exists.mp hRecv
        exact (h.toServed.moves hOther hMoves).same (does_epollfd hOther hSpared hDoes)
    exact { hInv, hServed with }

theorem sound_start {cfg : Config} {s : State} (h : (system cfg).start s) : Sound s := by
  obtain ⟨hInitial, hRuns, hTurn, hWait, _⟩ := h
  constructor
  · constructor
    · exact hRuns
    · intro fd hReg
      cases (hInitial.epollfd fd).symm.trans hReg
    · intro fd hReg
      rw [hInitial.udpEpollfd fd hReg, kinds, hInitial.listener]
      rfl
    · intro fd client hAccepting
      cases hInitial.accepting.symm.trans hAccepting
    · intro sockfd hNone
      rw [hTurn] at hNone
      cases hNone
  · rw [hWait]
    exact ⟨List.nodup_nil, fun _ hNone => by cases hNone⟩

theorem sound_of_spared {cfg : Config} {s : State} (h : ReachableUnder (system cfg) (Spared cfg) s) : Sound s := by
  apply h.invariant
  · intro s hStart
    exact sound_start hStart
  · intro s a t hSound hSpared hStep
    obtain ⟨_, hAct⟩ := Option.ite_none_left_eq_some.mp hStep
    exact sound_act hSound hSpared hAct

theorem Inv.unregistered {s : Server} {turn : Turn} (h : Inv s turn) {sockfd : Fd} (hTurn : turn.sockfd = some sockfd) :
    s.epollfd sockfd = false ∧ s.udpEpollfd sockfd = false := by
  obtain ⟨⟨conn, hTcp⟩, hReg⟩ := h.pending sockfd hTurn
  refine ⟨hReg, ?_⟩
  rw [Bool.eq_false_iff]
  intro hUdpReg
  cases hTcp.symm.trans (h.udp sockfd hUdpReg)

theorem Inv.close_apart {s : Server} {turn : Turn} (h : Inv s turn) {sockfd : Fd} (hTurn : turn.sockfd = some sockfd) :
    (s.close sockfd).clients = s.clients ∧ (s.close sockfd).epollfd = s.epollfd ∧
      (s.close sockfd).udpEpollfd = s.udpEpollfd ∧
      ∀ fd, turn.sockfd ≠ some fd → (s.close sockfd).socks fd = s.socks fd := by
  obtain ⟨hReg, hUdpReg⟩ := h.unregistered hTurn
  refine ⟨rfl, ?_, ?_, ?_⟩
  · rw [Server.close, ← hReg]
    exact Function.update_eq_self sockfd s.epollfd
  · rw [Server.close, ← hUdpReg]
    exact Function.update_eq_self sockfd s.udpEpollfd
  · intro fd hOther
    rw [Server.close]
    apply Function.update_of_ne
    rintro rfl
    exact hOther hTurn

theorem Inv.rejected {cfg : Config} {s : Server} {turn : Turn} {a : CheckOnline.Act} {t : CheckOnline.State}
    (h : Inv s turn) (hStep : CheckOnline.turnStep cfg s turn a = some t) (hEnds : t.turn = .waiting)
    (hRejects : ∀ sockfd, turn ≠ .inserted sockfd) :
    t.server.clients = s.clients ∧ t.server.epollfd = s.epollfd ∧ t.server.udpEpollfd = s.udpEpollfd ∧
      ∀ fd, turn.sockfd ≠ some fd → t.server.socks fd = s.socks fd := by
  unfold CheckOnline.turnStep at hStep
  split at hStep
  · obtain ⟨_, hEq⟩ := Option.ite_none_right_eq_some.mp hStep
    cases hEq
    cases hEnds
  · rename_i sockfd client conn ready r
    obtain ⟨_, hRest⟩ := Option.ite_none_left_eq_some.mp hStep
    split at hRest
    · cases hRest
      exact (h.token conn (tokenTmp r)).close_apart rfl
    · cases hRest
      cases hEnds
  · cases hStep
    cases hEnds
  · split at hStep
    · cases hStep
      exact h.close_apart rfl
    · cases hStep
      cases hEnds
  · cases hStep
    cases hEnds
  · rename_i sockfd added
    exact absurd rfl (hRejects sockfd)
  · cases hStep

theorem turnStep_stopped {cfg : Config} {s : Server} {turn : Turn} {a : CheckOnline.Act} {t : CheckOnline.State}
    (h : turnStep cfg s turn a = some t) : t.server.stopped = s.stopped := by
  unfold turnStep at h
  split at h
  · obtain ⟨_, hEq⟩ := Option.ite_none_right_eq_some.mp h
    cases hEq
    rfl
  · obtain ⟨_, hRest⟩ := Option.ite_none_left_eq_some.mp h
    split at hRest
    · cases hRest
      rfl
    · cases hRest
      rfl
  · cases h
    rfl
  · split at h
    · cases h
      rfl
    · cases h
      rfl
  · cases h
    rfl
  · cases h
    rfl
  · cases h

theorem heartBeat_stopped (s : Server) : (heartBeat s).stopped = s.stopped := by
  obtain ⟨socks, clients, epollfd, udpEpollfd, beats, hEq⟩ := heartBeat_frame s
  rw [hEq]

theorem report_stopped (s : Server) : (udpReport s).stopped = s.stopped := by
  obtain ⟨acted, hEq⟩ := udpReport_cases s
  rw [hEq]

theorem udpRecv_stopped {s t : Server} {fd : Fd} (h : udpRecv s fd = some t) : t.stopped = s.stopped := by
  obtain ⟨peer, addr, bytes, rest, _, rfl⟩ := udpRecv_cases h
  exact report_stopped _

theorem udpStream_stopped {s t : Server} {fd : Fd} {r : Recv} (h : udpRecvStream s fd r = some t) :
    t.stopped = s.stopped := by
  obtain ⟨conn, _, rfl⟩ := udpRecvStream_cases h
  exact report_stopped _

theorem dispatchRecv_stopped (s : Server) (fd : Fd) (r : Recv) : (dispatchRecv s fd r).stopped = s.stopped := by
  rw [dispatchRecv]
  split
  · rfl
  · rfl

theorem classify_stops {s : Server} (hRuns : s.stopped = false) (fd : Fd) :
    (dispatchClassify s fd).stopped = true ↔ Dispatch.classify (ofStorage s.msg) = .ack ∧ fd ∉ s.clients := by
  rw [dispatchClassify]
  cases Dispatch.classify (ofStorage s.msg) with
  | ack =>
    rw [← AList.lookup_eq_none]
    cases s.clients.lookup fd with
    | none => simp
    | some client => simp [hRuns]
  | push => simp [hRuns]
  | ignored => simp [hRuns]

theorem accept_stops {cfg : Config} {s t : Server} {sockfd : Option Fd} (hRuns : s.stopped = false)
    (h : acceptUdpBind cfg s sockfd = some t) :
    t.stopped = true ↔ sockfd = none ∨ ∃ bytes, Request cfg s bytes ∧ bytes.length < tokenLen := by
  obtain ⟨client, bytes, rest, hSock, ⟨hRefused, rfl⟩ | ⟨fd, hWhole, hSome, _, rfl⟩⟩ := acceptUdpBind_cases h
  · refine iff_of_true rfl ?_
    obtain hShort | hNone := hRefused
    · exact .inr ⟨bytes, ⟨client, rest, hSock⟩, hShort⟩
    · exact .inl hNone
  · apply iff_of_false
    · exact Bool.eq_false_iff.mp hRuns
    · rintro (hNone | ⟨bytes', ⟨client', rest', hSock'⟩, hShort⟩)
      · cases hSome.symm.trans hNone
      · cases hSock.symm.trans hSock'
        exact absurd hWhole (Nat.not_le.mpr hShort)

theorem tick_stops {s : State} (hRuns : s.server.stopped = false) (thread : Thread) :
    (tick s thread).server.stopped = true ↔ heartBeatErases s = true ∨ heartBeatBreaks s = true ∨
      (thread = .dispatch ∧ s.dispatcher = .wait) ∨ (thread = .udp ∧ s.udp = .wait) := by
  rw [tick]
  split
  · rename_i hErases
    exact iff_of_true rfl (.inl hErases)
  · rename_i hLeft
    rw [beat]
    split
    · rename_i hBreaks
      exact iff_of_true rfl (.inr (.inl hBreaks))
    · rename_i hSends
      dsimp only
      split
      · rename_i hInterrupted
        exact iff_of_true rfl (.inr (.inr hInterrupted))
      · rename_i hWaits
        apply iff_of_false
        · simp [heartBeat_stopped, hRuns]
        · exact not_or.mpr ⟨hLeft, not_or.mpr ⟨hSends, hWaits⟩⟩

theorem does_stops {cfg : Config} {s : State} {t : Server} {a : Act} (hRuns : s.server.stopped = false)
    (hDoes : Does cfg s t a) : t.stopped = true ↔ Ends cfg s a := by
  have hNever : t.stopped = s.server.stopped → (t.stopped = true ↔ False) := by
    intro hSame
    simp [hSame, hRuns]
  cases a with
  | login b => cases hDoes
  | acceptFails =>
    cases hDoes
    exact iff_of_true rfl trivial
  | reset conn => exact hNever (congrArg Server.stopped hDoes)
  | events fds => exact hNever (congrArg Server.stopped hDoes)
  | udpEvents fds => exact hNever (congrArg Server.stopped hDoes)
  | tick thread =>
    cases hDoes
    exact tick_stops hRuns thread
  | recv r =>
    obtain ⟨fd, fds, _, rfl⟩ := hDoes
    exact hNever (dispatchRecv_stopped s.server fd r)
  | classify =>
    obtain ⟨fd, fds, hReceived, rfl⟩ := hDoes
    apply (classify_stops hRuns fd).trans
    constructor
    · rintro ⟨hAck, hUnknown⟩
      exact ⟨fd, fds, hReceived, hAck, hUnknown⟩
    · rintro ⟨fd', fds', hReceived', hAck, hUnknown⟩
      cases hReceived.symm.trans hReceived'
      exact ⟨hAck, hUnknown⟩
  | datagram fd addr bytes => exact hNever (quiet_arrive hDoes).stopped
  | udpAccept sockfd => exact accept_stops hRuns hDoes.2
  | udpConnect connected added =>
    obtain ⟨_, _, rfl⟩ := Option.map_eq_some_iff.mp hDoes
    exact hNever rfl
  | udpRecv =>
    obtain ⟨fd, _, _, _, hRecv⟩ := hDoes
    exact hNever (udpRecv_stopped hRecv)
  | udpStream r =>
    obtain ⟨fd, _, _, hRecv⟩ := hDoes
    exact hNever (udpStream_stopped hRecv)
  | udpError =>
    obtain ⟨fd, _, _, rfl⟩ := hDoes
    exact hNever (report_stopped _)
  | work msg =>
    rw [Does] at hDoes
    split at hDoes
    · rename_i hFault
      cases hDoes
      exact iff_of_true rfl hFault
    · rename_i hHandled
      cases hDoes
      exact iff_of_false (Bool.eq_false_iff.mp hRuns) hHandled

theorem step_stops_iff {cfg : Config} {s t : State} {a : Act} (h : step cfg s a = some t) :
    t.server.stopped = true ↔ Ends cfg s a := by
  obtain ⟨hRunning, hAct⟩ := Option.ite_none_left_eq_some.mp h
  have hRuns : s.server.stopped = false := Bool.eq_false_iff.mpr hRunning
  by_cases hLogin : ∃ b, a = .login b
  · obtain ⟨b, rfl⟩ := hLogin
    obtain ⟨hEnds, rfl⟩ | ⟨hGoes, u, hStep, rfl⟩ := loginStep_cases hAct
    · exact iff_of_true rfl hEnds
    · apply iff_of_false
      · simp [turnStep_stopped hStep, hRuns]
      · exact hGoes
  · obtain ⟨_, _, hDoes⟩ := act_does (not_exists.mp hLogin) hAct
    exact does_stops hRuns hDoes

def begun : State := ⟨justStarted config, .waiting, .wait, .wait, fun _ => false, []⟩

theorem start_begun : (system config).start begun :=
  ⟨initial_justStarted config, rfl, rfl, rfl, rfl, rfl⟩

def oneByte : List Act := [.datagram 3 urgent [0x78], .udpEvents [3], .udpAccept (some 5)]

def loggedIn : List Act :=
  [.login (.accept 5 home), .login (.token true (.data (lit "token"))), .login .check, .login (.reply true),
    .login .insert, .login (.addToReactor true)]

/-- A client is logged in. While a second connection waits for its token a tick comes and the first byte of a report is read;
then the token fails to arrive. -/
def turnedAway : List Act :=
  loggedIn ++ [.login (.accept 6 ⟨2, 40000⟩), .tick .main, .events [5],
    .recv (.data [4]), .classify, .login (.token false .eof)]

theorem spared_reply {s : State} {sockfd : Fd} (hTurn : s.turn.sockfd = some sockfd)
    (hBreaks : sendBreaks s sockfd = false)
    (cfg : Config) (sent : Bool) : Spared cfg s (.login (.reply sent)) := by
  rintro ⟨sockfd', hMem, hBroken⟩
  cases hTurn.symm.trans hMem
  cases hBreaks.symm.trans hBroken

theorem spared_tick {s : State} (hErases : heartBeatErases s = false) (hBreaks : heartBeatBreaks s = false)
    (cfg : Config) :
    Spared cfg s (.tick .main) := by
  rintro (hErased | hBroken | ⟨hThread, _⟩ | ⟨hThread, _⟩)
  · cases hErases.symm.trans hErased
  · cases hBreaks.symm.trans hBroken
  · cases hThread
  · cases hThread

theorem spared_classify {s : State} (hClass : Dispatch.classify (ofStorage s.server.msg) ≠ .ack) (cfg : Config) :
    Spared cfg s .classify := by
  rintro ⟨_, _, _, hAck, _⟩
  exact hClass hAck

end MonitorSystem.Lifetime
