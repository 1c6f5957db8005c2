import MonitorSystem.Dispatch
import MonitorSystem.Lib.Transition
import Mathlib.Data.List.AList
import Mathlib.Data.List.Sort

/-! # The server's descriptors, client table and two reactors

One event is one turn of do_login, one epoll event of do_dispatch, one SIGALRM
or one step of udp_deal_with; accept_udp takes two, since datagrams arrive
between its bind and its connect. The kernel hands out any descriptor number
that is not open. The last fields of the state are history.
-/

namespace MonitorSystem.ServerFunc

open Msg Dispatch Lib.CString Lib.Transition

abbrev Fd := Nat

structure SockaddrIn where
  sinAddr : Nat
  sinPort : Nat
deriving DecidableEq

/-- What an open descriptor refers to. A datagram socket has the peer it is
connected to and the datagrams queued on it. -/
inductive Sock
  | process
  | tcp (conn : Nat)
  | udp (peer : Option SockaddrIn) (queue : List (SockaddrIn × Bytes))
deriving DecidableEq

/-- The last field names the connection do_login made the record for. -/
structure ClientDs where
  isonline : Int
  addr : SockaddrIn
  conn : Nat
deriving DecidableEq

/-- Who wrote the bytes of a message variable last; at first it is uninitialised memory. -/
inductive Source
  | conn (n : Nat)
  | peer (addr : SockaddrIn)
  | memory
deriving DecidableEq

structure Acted where
  source : Source
  msg : MonitorMsgDs

structure Beat where
  target : Option Sock
  conn : Nat
  closed : Bool
deriving DecidableEq

structure Server where
  socks : Fd → Option Sock
  clients : AList fun _ : Fd => ClientDs
  epollfd : Fd → Bool
  udpEpollfd : Fd → Bool
  accepting : Option (Fd × SockaddrIn)
  msg : Bytes
  udpMsg : Bytes
  stopped : Bool
  msgFrom : Source
  udpMsgFrom : Source
  presented : List Bytes
  loggedIn : List Nat
  udpLogins : List (SockaddrIn × Bytes)
  acted : List Acted
  beats : List Beat

structure Config where
  token : Token
  udpServerListen : Fd

/-- close(fd); the kernel also drops the descriptor from both reactors. -/
def Server.close (s : Server) (fd : Fd) : Server :=
  { s with
    socks := Function.update s.socks fd none
    epollfd := Function.update s.epollfd fd false
    udpEpollfd := Function.update s.udpEpollfd fd false }

def checkOnline (clients : AList fun _ : Fd => ClientDs) (addr : SockaddrIn) : Bool :=
  clients.entries.any fun client => client.2.addr.sinAddr = addr.sinAddr

def tokenTmp : Recv → Bytes
  | .data bytes => cstr bytes
  | .eof | .error => []

/-- One turn of do_login for an accepted connection. -/
def doLogin (cfg : Config) (s : Server) (sockfd : Fd) (client : SockaddrIn) (ready : Bool) (r : Recv)
    (sent added : Bool) : Server :=
  let conn := s.presented.length
  let t := { s with
    socks := Function.update s.socks sockfd (some (.tcp conn))
    presented := s.presented ++ [tokenTmp r] }
  if ready = false then t.close sockfd
  else if r.failed then t.close sockfd
  else
    let ack := if checkOnline s.clients client then 0 else 1
    if sent = false then t.close sockfd
    else if ack = 0 then t.close sockfd
    else if tokenTmp r ≠ cfg.token.text then t.close sockfd
    else { t with
      clients := s.clients.insert sockfd ⟨8, client, conn⟩
      loggedIn := s.loggedIn ++ [conn]
      epollfd := Function.update s.epollfd sockfd added }

def connOf : Option Sock → Source
  | some (.tcp conn) => .conn conn
  | _ => .memory

/-- One epoll event in do_dispatch. The look-up of the client dereferences
null, which ends the process, when the table has no entry. -/
def doDispatch (s : Server) (sockfd : Fd) (r : Recv) : Server :=
  let t := if r.failed then { s with msg := recvInto s.msg r }.close sockfd
    else { s with msg := recvInto s.msg r, msgFrom := connOf (s.socks sockfd) }
  let msg := ofStorage t.msg
  match classify msg with
  | .ack =>
    match t.clients.lookup sockfd with
    | none => { t with stopped := true }
    | some client => { t with
        clients := t.clients.insert sockfd { client with isonline := 5 }
        acted := t.acted ++ [⟨t.msgFrom, msg⟩] }
  | .push => { t with acted := t.acted ++ [⟨t.msgFrom, msg⟩] }
  | .ignored => t

def heartBeatOne (s : Server) (fd : Fd) : Server :=
  match s.clients.lookup fd with
  | none => s
  | some client =>
    if client.isonline > 0 then
      if client.isonline - 1 ≤ 0 then
        { s.close fd with
          clients := s.clients.erase fd
          beats := s.beats ++ [⟨s.socks fd, client.conn, true⟩] }
      else
        { s with
          clients := s.clients.insert fd { client with isonline := client.isonline - 1 }
          beats := s.beats ++ [⟨s.socks fd, client.conn, false⟩] }
    else s

/-- The entries are visited in the order of the map. -/
def heartBeat (s : Server) : Server :=
  (s.clients.keys.insertionSort (· ≤ ·)).foldl heartBeatOne s

def messageRead (s : Server) (sockfd : Fd) (r : Recv) : Server :=
  if r.failed then { s with msg := recvInto s.msg r }.close sockfd
  else { s with msg := recvInto s.msg r, msgFrom := connOf (s.socks sockfd) }

theorem doDispatch_cases (s : Server) (sockfd : Fd) (r : Recv) {t : Server} (ht : messageRead s sockfd r = t) :
    (classify (ofStorage t.msg) = .ack ∧ doDispatch s sockfd r = { t with stopped := true }) ∨
      (classify (ofStorage t.msg) = .ack ∧ ∃ client, t.clients.lookup sockfd = some client ∧
        doDispatch s sockfd r = { t with
          clients := t.clients.insert sockfd { client with isonline := 5 }
          acted := t.acted ++ [⟨t.msgFrom, ofStorage t.msg⟩] }) ∨
      (classify (ofStorage t.msg) = .push ∧
        doDispatch s sockfd r = { t with acted := t.acted ++ [⟨t.msgFrom, ofStorage t.msg⟩] }) ∨
      (classify (ofStorage t.msg) = .ignored ∧ doDispatch s sockfd r = t) := by
  rw [messageRead] at ht
  simp only [doDispatch, ht]
  cases classify (ofStorage t.msg) with
  | ack =>
    cases t.clients.lookup sockfd with
    | none => exact .inl ⟨rfl, rfl⟩
    | some client => exact .inr (.inl ⟨rfl, client, rfl, rfl⟩)
  | push => exact .inr (.inr (.inl ⟨rfl, rfl⟩))
  | ignored => exact .inr (.inr (.inr ⟨rfl, rfl⟩))

theorem heartBeatOne_cases (s : Server) (fd : Fd) :
    heartBeatOne s fd = s ∨ ∃ client, s.clients.lookup fd = some client ∧
      (client.isonline = 1 ∧ heartBeatOne s fd = { s.close fd with
          clients := s.clients.erase fd
          beats := s.beats ++ [⟨s.socks fd, client.conn, true⟩] } ∨
        1 < client.isonline ∧ heartBeatOne s fd = { s with
          clients := s.clients.insert fd { client with isonline := client.isonline - 1 }
          beats := s.beats ++ [⟨s.socks fd, client.conn, false⟩] }) := by
  rw [heartBeatOne]
  cases hLookup : s.clients.lookup fd with
  | none => exact .inl rfl
  | some client =>
    dsimp only
    split
    · right
      refine ⟨client, rfl, ?_⟩
      split
      · exact .inl ⟨by omega, rfl⟩
      · exact .inr ⟨by omega, rfl⟩
    · exact .inl rfl

theorem heartBeat_invariant {I : Server → Prop} (hOne : ∀ s fd, I s → I (heartBeatOne s fd)) {s : Server}
    (h : I s) : I (heartBeat s) := by
  rw [heartBeat]
  induction s.clients.keys.insertionSort (· ≤ ·) generalizing s with
  | nil => exact h
  | cons fd fds ih => exact ih (hOne s fd h)

theorem heartBeat_frame (s : Server) : ∃ socks clients epollfd udpEpollfd beats, heartBeat s = { s with
    socks := socks, clients := clients, epollfd := epollfd, udpEpollfd := udpEpollfd, beats := beats } := by
  apply @heartBeat_invariant fun t => ∃ socks clients epollfd udpEpollfd beats, t = { s with
    socks := socks, clients := clients, epollfd := epollfd, udpEpollfd := udpEpollfd, beats := beats }
  · rintro t fd ⟨socks, clients, epollfd, udpEpollfd, beats, rfl⟩
    obtain hSame | ⟨client, _, ⟨_, hClosed⟩ | ⟨_, hCounted⟩⟩ := heartBeatOne_cases { s with
      socks := socks, clients := clients, epollfd := epollfd, udpEpollfd := udpEpollfd, beats := beats } fd
    · exact ⟨_, _, _, _, _, hSame⟩
    · exact ⟨_, _, _, _, _, hClosed⟩
    · exact ⟨_, _, _, _, _, hCounted⟩
  · exact ⟨_, _, _, _, _, rfl⟩

def checkUser (_token : Bytes) (_len : Nat) : Bool := true

/-- accept_udp up to the bind of the new socket; none stands for a failed
socket_create_udp. A failure makes udp_deal_with exit. -/
def acceptUdpBind (cfg : Config) (s : Server) (sockfd : Option Fd) : Option Server :=
  match s.socks cfg.udpServerListen with
  | some (.udp none ((client, bytes) :: rest)) =>
    let token := bytes.take tokenLen
    let t := { s with
      socks := Function.update s.socks cfg.udpServerListen (some (.udp none rest)) }
    if token.length ≠ tokenLen ∨ checkUser token tokenLen = false then some { t with stopped := true }
    else match sockfd with
      | none => some { t with stopped := true }
      | some fd =>
        if t.socks fd = none then
          some { t with
            socks := Function.update t.socks fd (some (.udp none []))
            accepting := some (fd, client)
            udpLogins := t.udpLogins ++ [(client, cstr token)] }
        else none
  | _ => none

/-- The rest of accept_udp, whose connect may fail unnoticed, and add_to_reactor. -/
def acceptUdpConnect (s : Server) (connected added : Bool) : Option Server :=
  s.accepting.map fun (sockfd, client) =>
    let socks := match s.socks sockfd with
      | some (.udp none queue) =>
        if connected then Function.update s.socks sockfd (some (.udp (some client) queue)) else s.socks
      | _ => s.socks
    { s with
      accepting := none
      socks := socks
      udpEpollfd := if added = true ∧ s.socks sockfd ≠ none then
        Function.update s.udpEpollfd sockfd true else s.udpEpollfd }

def udpReport (s : Server) : Server :=
  if (ofStorage s.udpMsg).type = sysSys then
    { s with acted := s.acted ++ [⟨s.udpMsgFrom, ofStorage s.udpMsg⟩] }
  else s

/-- A recv of udp_deal_with that does not fail; an empty datagram fills nothing. -/
def udpRecv (s : Server) (fd : Fd) : Option Server :=
  match s.socks fd with
  | some (.udp peer ((addr, bytes) :: rest)) =>
    some (udpReport { s with
      socks := Function.update s.socks fd (some (.udp peer rest))
      udpMsg := recvInto s.udpMsg (.data (bytes.take sizeofMsg))
      udpMsgFrom := if bytes = [] then s.udpMsgFrom else .peer addr })
  | _ => none

def udpRecvStream (s : Server) (fd : Fd) (r : Recv) : Option Server :=
  match s.socks fd with
  | some (.tcp conn) =>
    some (udpReport { s with
      udpMsg := recvInto s.udpMsg r
      udpMsgFrom := if r.failed then s.udpMsgFrom else .conn conn })
  | _ => none

def udpRecvError (s : Server) (fd : Fd) : Server :=
  udpReport { s with udpEpollfd := Function.update s.udpEpollfd fd false }

def arrive (s : Server) (fd : Fd) (addr : SockaddrIn) (bytes : Bytes) : Option Server :=
  match s.socks fd with
  | some (.udp peer queue) =>
    if peer = none ∨ peer = some addr then
      some { s with socks := Function.update s.socks fd (some (.udp peer (queue ++ [(addr, bytes)]))) }
    else none
  | _ => none

inductive Event
  | login (sockfd : Fd) (client : SockaddrIn) (ready : Bool) (r : Recv) (sent added : Bool)
  | readable (sockfd : Fd) (r : Recv)
  | tick
  | datagram (fd : Fd) (addr : SockaddrIn) (bytes : Bytes)
  | udpLogin (sockfd : Option Fd)
  | udpConnect (connected added : Bool)
  | udpReadable (fd : Fd)
  | udpStream (fd : Fd) (r : Recv)
  | udpError (fd : Fd)

def udpServes (cfg : Config) (s : Server) (fd : Fd) : Bool :=
  s.accepting = none ∧ s.udpEpollfd fd = true ∧ fd ≠ cfg.udpServerListen

def handle (cfg : Config) (s : Server) : Event → Option Server
  | .login sockfd client ready r sent added =>
    if s.socks sockfd = none ∧ r.within 100 then
      some (doLogin cfg s sockfd client ready r sent added)
    else none
  | .readable sockfd r =>
    if s.epollfd sockfd ∧ r.within sizeofMsg then some (doDispatch s sockfd r) else none
  | .tick => some (heartBeat s)
  | .datagram fd addr bytes => arrive s fd addr bytes
  | .udpLogin sockfd => if s.accepting = none then acceptUdpBind cfg s sockfd else none
  | .udpConnect connected added => acceptUdpConnect s connected added
  | .udpReadable fd => if udpServes cfg s fd then udpRecv s fd else none
  | .udpStream fd r =>
    if udpServes cfg s fd ∧ r.within sizeofMsg then udpRecvStream s fd r else none
  | .udpError fd => if udpServes cfg s fd then some (udpRecvError s fd) else none

def step (cfg : Config) (s : Server) (e : Event) : Option Server :=
  if s.stopped then none else handle cfg s e

structure Initial (cfg : Config) (s : Server) : Prop where
  listener : s.socks cfg.udpServerListen = some (.udp none [])
  others : ∀ fd, fd ≠ cfg.udpServerListen → s.socks fd = none ∨ s.socks fd = some .process
  clients : s.clients = ∅
  epollfd : ∀ fd, s.epollfd fd = false
  udpEpollfd : ∀ fd, s.udpEpollfd fd = true → fd = cfg.udpServerListen
  accepting : s.accepting = none
  msgFrom : s.msgFrom = .memory
  udpMsgFrom : s.udpMsgFrom = .memory
  presented : s.presented = []
  loggedIn : s.loggedIn = []
  udpLogins : s.udpLogins = []
  acted : s.acted = []
  beats : s.beats = []

def justStarted (cfg : Config) : Server where
  socks := fun fd => if fd = cfg.udpServerListen then some (.udp none []) else none
  clients := ∅
  epollfd := fun _ => false
  udpEpollfd := fun fd => fd = cfg.udpServerListen
  accepting := none
  msg := []
  udpMsg := []
  stopped := false
  msgFrom := .memory
  udpMsgFrom := .memory
  presented := []
  loggedIn := []
  udpLogins := []
  acted := []
  beats := []

theorem initial_justStarted (cfg : Config) : Initial cfg (justStarted cfg) where
  listener := if_pos rfl
  others _ hNe := .inl (if_neg hNe)
  clients := rfl
  epollfd _ := rfl
  udpEpollfd _ hReg := of_decide_eq_true hReg
  accepting := rfl
  msgFrom := rfl
  udpMsgFrom := rfl
  presented := rfl
  loggedIn := rfl
  udpLogins := rfl
  acted := rfl
  beats := rfl

def config : Config where
  token := ⟨lit "token", by decide, by decide⟩
  udpServerListen := 3

def urgent : SockaddrIn := ⟨2, 50000⟩

def tokenRead (s : Server) (sockfd : Fd) (r : Recv) : Server :=
  { s with
    socks := Function.update s.socks sockfd (some (.tcp s.presented.length))
    presented := s.presented ++ [tokenTmp r] }

theorem doLogin_eq (cfg : Config) (s : Server) (sockfd : Fd) (client : SockaddrIn) (ready : Bool) (r : Recv)
    (sent added : Bool) :
    doLogin cfg s sockfd client ready r sent added =
      if ready = false ∨ r.failed = true then (tokenRead s sockfd r).close sockfd
      else if sent = false ∨ checkOnline s.clients client = true ∨ tokenTmp r ≠ cfg.token.text then
        (tokenRead s sockfd r).close sockfd
      else { tokenRead s sockfd r with
        clients := s.clients.insert sockfd ⟨8, client, s.presented.length⟩
        loggedIn := s.loggedIn ++ [s.presented.length]
        epollfd := Function.update s.epollfd sockfd added } := by
  have hAck : (if checkOnline s.clients client then 0 else 1) = 0 ↔ checkOnline s.clients client = true := by simp
  rw [doLogin]
  simp only [hAck, ite_or]
  rfl

theorem doLogin_cases (cfg : Config) (s : Server) (sockfd : Fd) (client : SockaddrIn) (ready : Bool)
    (r : Recv) (sent added : Bool) :
    doLogin cfg s sockfd client ready r sent added = { s with
      socks := Function.update s.socks sockfd none
      epollfd := Function.update s.epollfd sockfd false
      udpEpollfd := Function.update s.udpEpollfd sockfd false
      presented := s.presented ++ [tokenTmp r] } ∨
    (tokenTmp r = cfg.token.text ∧ doLogin cfg s sockfd client ready r sent added = { s with
      socks := Function.update s.socks sockfd (some (.tcp s.presented.length))
      clients := s.clients.insert sockfd ⟨8, client, s.presented.length⟩
      epollfd := Function.update s.epollfd sockfd added
      presented := s.presented ++ [tokenTmp r]
      loggedIn := s.loggedIn ++ [s.presented.length] }) := by
  have hClosed : (tokenRead s sockfd r).close sockfd = { s with
      socks := Function.update s.socks sockfd none
      epollfd := Function.update s.epollfd sockfd false
      udpEpollfd := Function.update s.udpEpollfd sockfd false
      presented := s.presented ++ [tokenTmp r] } := by
    simp [tokenRead, Server.close]
  rw [doLogin_eq]
  split
  · exact .inl hClosed
  · split
    · exact .inl hClosed
    · rename_i hPassed
      obtain ⟨_, hPassed⟩ := not_or.mp hPassed
      obtain ⟨_, hToken⟩ := not_or.mp hPassed
      exact .inr ⟨not_not.mp hToken, rfl⟩

theorem arrive_cases {s t : Server} {fd : Fd} {addr : SockaddrIn} {bytes : Bytes}
    (h : arrive s fd addr bytes = some t) :
    ∃ peer queue, s.socks fd = some (.udp peer queue) ∧ (peer = none ∨ peer = some addr) ∧
      t = { s with socks := Function.update s.socks fd (some (.udp peer (queue ++ [(addr, bytes)]))) } := by
  rw [arrive] at h
  split at h
  · rename_i peer queue hSock
    obtain ⟨hPeer, hEq⟩ := Option.ite_none_right_eq_some.mp h
    cases hEq
    exact ⟨peer, queue, hSock, hPeer, rfl⟩
  · cases h

def requestRead (cfg : Config) (s : Server) (rest : List (SockaddrIn × Bytes)) : Server :=
  { s with socks := Function.update s.socks cfg.udpServerListen (some (.udp none rest)) }

theorem acceptUdpBind_cases {cfg : Config} {s t : Server} {sockfd : Option Fd}
    (h : acceptUdpBind cfg s sockfd = some t) :
    ∃ client bytes rest, s.socks cfg.udpServerListen = some (.udp none ((client, bytes) :: rest)) ∧
      ((bytes.length < tokenLen ∨ sockfd = none) ∧ t = { requestRead cfg s rest with stopped := true } ∨
        ∃ fd, tokenLen ≤ bytes.length ∧ sockfd = some fd ∧ (requestRead cfg s rest).socks fd = none ∧
          t = { requestRead cfg s rest with
            socks := Function.update (requestRead cfg s rest).socks fd (some (.udp none []))
            accepting := some (fd, client)
            udpLogins := s.udpLogins ++ [(client, cstr (bytes.take tokenLen))] }) := by
  rw [acceptUdpBind] at h
  split at h
  · rename_i client bytes rest hSock
    refine ⟨client, bytes, rest, hSock, ?_⟩
    have hShort : (bytes.take tokenLen).length ≠ tokenLen ∨ checkUser (bytes.take tokenLen) tokenLen = false ↔
        bytes.length < tokenLen := by
      simp [checkUser]
    rw [← hShort, ← Nat.not_lt, ← hShort]
    dsimp only at h
    split at h
    · rename_i hRefused
      cases h
      exact .inl ⟨.inl hRefused, rfl⟩
    · rename_i hPassed
      cases sockfd with
      | none =>
        cases h
        exact .inl ⟨.inr rfl, rfl⟩
      | some fd =>
        obtain ⟨hFree, hEq⟩ := Option.ite_none_right_eq_some.mp h
        cases hEq
        exact .inr ⟨fd, hPassed, rfl, hFree, rfl⟩
  · cases h

theorem acceptUdpConnect_cases {s t : Server} {connected added : Bool} (h : acceptUdpConnect s connected added = some t) :
    ∃ fd client socks, s.accepting = some (fd, client) ∧
      t = { s with
        accepting := none
        socks := socks
        udpEpollfd := if added = true ∧ s.socks fd ≠ none then Function.update s.udpEpollfd fd true else s.udpEpollfd } ∧
      (socks = s.socks ∧ (connected = true → ∀ queue, s.socks fd ≠ some (.udp none queue)) ∨
        ∃ queue, s.socks fd = some (.udp none queue) ∧
          socks = Function.update s.socks fd (some (.udp (some client) queue))) := by
  obtain ⟨⟨fd, client⟩, hAccepting, rfl⟩ := Option.map_eq_some_iff.mp h
  refine ⟨fd, client, _, hAccepting, rfl, ?_⟩
  split
  · rename_i queue hSock
    split
    · exact .inr ⟨queue, hSock, rfl⟩
    · rename_i hRefused
      exact .inl ⟨rfl, fun hConnected => absurd hConnected hRefused⟩
  · rename_i hOther
    exact .inl ⟨rfl, fun _ queue hSock => hOther queue hSock⟩

theorem udpRecv_cases {s t : Server} {fd : Fd} (h : udpRecv s fd = some t) :
    ∃ peer addr bytes rest, s.socks fd = some (.udp peer ((addr, bytes) :: rest)) ∧
      t = udpReport { s with
        socks := Function.update s.socks fd (some (.udp peer rest))
        udpMsg := recvInto s.udpMsg (.data (bytes.take sizeofMsg))
        udpMsgFrom := if bytes = [] then s.udpMsgFrom else .peer addr } := by
  rw [udpRecv] at h
  split at h
  · rename_i peer addr bytes rest hSock
    cases h
    exact ⟨peer, addr, bytes, rest, hSock, rfl⟩
  · cases h

theorem udpRecvStream_cases {s t : Server} {fd : Fd} {r : Recv} (h : udpRecvStream s fd r = some t) :
    ∃ conn, s.socks fd = some (.tcp conn) ∧
      t = udpReport { s with
        udpMsg := recvInto s.udpMsg r
        udpMsgFrom := if r.failed then s.udpMsgFrom else .conn conn } := by
  rw [udpRecvStream] at h
  split at h
  · rename_i conn hSock
    cases h
    exact ⟨conn, hSock, rfl⟩
  · cases h

theorem udpReport_cases (s : Server) : ∃ acted, udpReport s = { s with acted := acted } := by
  rw [udpReport]
  split
  · exact ⟨_, rfl⟩
  · exact ⟨s.acted, rfl⟩

def system (cfg : Config) : System Server Event where
  start := Initial cfg
  step := step cfg

theorem lookup_insert_cases {β : Type} {m : AList fun _ : Fd => β} {fd fd' : Fd} {entry entry' : β}
    (h : (m.insert fd entry).lookup fd' = some entry') :
    (fd' = fd ∧ entry' = entry) ∨ (fd' ≠ fd ∧ m.lookup fd' = some entry') := by
  obtain rfl | hNe := eq_or_ne fd' fd
  · rw [AList.lookup_insert] at h
    exact .inl ⟨rfl, (Option.some.inj h).symm⟩
  · rw [AList.lookup_insert_ne hNe] at h
    exact .inr ⟨hNe, h⟩

theorem lookup_erase_some {β : Type} {m : AList fun _ : Fd => β} {fd fd' : Fd} {entry : β}
    (h : (m.erase fd).lookup fd' = some entry) : fd' ≠ fd ∧ m.lookup fd' = some entry := by
  obtain rfl | hNe := eq_or_ne fd' fd
  · rw [AList.lookup_erase] at h
    cases h
  · rw [AList.lookup_erase_ne hNe] at h
    exact ⟨hNe, h⟩

end MonitorSystem.ServerFunc
