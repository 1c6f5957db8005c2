import MonitorSystem.Lifetime

/-! # Who the server listens to

do_login compares the token it received with its own. accept_udp calls
check_user, which accepts every token, and connects the new socket only after
binding it. Between epoll_wait and the recv the loops know a socket by its
number alone.
-/

namespace MonitorSystem.Admission

open Msg Dispatch ServerFunc Lib.CString Lib.Transition
open CheckOnline (Turn)
open Lifetime (State Act Loop begun beat dispatchRecv dispatchClassify)

/-- What a recv of that many bytes leaves, and who wrote what it took. The number
may have come to name a datagram socket, or nothing. -/
def recvOn (s : Server) (fd : Fd) (size : Nat) (r : Recv) : Option (Server × Source) :=
  match s.socks fd with
  | some (.tcp conn) => if r.within size then some (s, .conn conn) else none
  | some (.udp peer ((addr, bytes) :: rest)) =>
    if r = .error then some (s, .memory)
    else if r = if bytes = [] then .eof else .data (bytes.take size) then
      some ({ s with socks := Function.update s.socks fd (some (.udp peer rest)) }, .peer addr)
    else none
  | _ => if r = .error then some (s, .memory) else none

def token (s : State) (sockfd : Fd) (client : SockaddrIn) (conn : Nat) (ready : Bool) (r : Recv) : Option State :=
  if ready = false then some { s with server := s.server.close sockfd, turn := .waiting }
  else (recvOn s.server sockfd 100 r).map fun (t, source) =>
    let u := if source = .conn conn then { t with presented := t.presented.set conn (tokenTmp r) } else t
    if r.failed then { s with server := u.close sockfd, turn := .waiting }
    else { s with server := u, turn := .received sockfd client conn (tokenTmp r) }

def act (cfg : Config) (s : State) : Act → Option State
  | .tick thread => some (beat s thread)
  | .login (.token ready r) =>
    match s.turn with
    | .accepted sockfd client conn => token s sockfd client conn ready r
    | _ => none
  | .recv r =>
    match s.dispatcher with
    | .serve fd fds => (recvOn s.server fd sizeofMsg r).map fun (t, source) =>
      { s with
        server := { dispatchRecv t fd r with msgFrom := if r.failed then t.msgFrom else source }
        dispatcher := .received fd fds }
    | _ => none
  | a => Lifetime.act cfg s a

def step (cfg : Config) (s : State) (a : Act) : Option State := if s.server.stopped then none else act cfg s a

def system (cfg : Config) : System State Act where
  start := (Lifetime.system cfg).start
  step := step cfg

/-- The connection whose token is still to be read. -/
def awaited : Turn → Option Nat
  | .accepted _ _ conn => some conn
  | _ => none

/-- The connection that do_login has accepted and not yet let in. -/
def unchecked : Turn → Option (Fd × Nat)
  | .accepted sockfd _ conn | .received sockfd _ conn _ | .checked sockfd _ conn _ _ => some (sockfd, conn)
  | _ => none

/-- The peer presented the server's token on that channel. -/
def Admitted (cfg : Config) (s : Server) (turn : Turn) : Source → Prop
  | .conn n => s.presented[n]? = some cfg.token.text ∧ awaited turn ≠ some n
  | .peer addr => (addr, cfg.token.text) ∈ s.udpLogins
  | .memory => False

def Authentic (cfg : Config) (s : State) : Prop := ∀ a ∈ s.server.acted, Admitted cfg s.server s.turn a.source

def Quiet (s : Server) : Prop := s.udpMsgFrom = .memory → (ofStorage s.udpMsg).type ≠ sysSys

/-- The number does not name the connection of the login in progress. -/
def LetIn (s : State) (fd : Fd) : Prop := ∀ conn, s.server.socks fd = some (.tcp conn) → unchecked s.turn ≠ some (fd, conn)

/-- UDP logins carry the token, the new socket is connected and gets no
datagram of another peer before, no loop takes a message from a connection
whose login is in progress, and a recv that fills nothing does not find
uninitialised memory that reads as a message. -/
def Guarded (cfg : Config) (s : State) : Act → Prop
  | .recv r => r.failed = false → classify (ofStorage (recvInto s.server.msg r)) ≠ .ignored →
      ∀ fd fds, s.dispatcher = .serve fd fds → LetIn s fd
  | .classify => classify (ofStorage s.server.msg) ≠ .ignored → s.server.msgFrom ≠ .memory
  | .datagram fd addr _ => ∀ client, s.server.accepting = some (fd, client) → addr = client
  | .udpAccept _ => ∀ client bytes rest,
      s.server.socks cfg.udpServerListen = some (.udp none ((client, bytes) :: rest)) →
        tokenLen ≤ bytes.length → cstr (bytes.take tokenLen) = cfg.token.text
  | .udpConnect connected _ => connected = true ∨ ∀ fd client queue,
      s.server.accepting = some (fd, client) → s.server.socks fd ≠ some (.udp none queue)
  | .udpRecv => ∀ fd fds, s.udp = .serve fd fds → ∀ peer addr rest,
      s.server.socks fd = some (.udp peer ((addr, []) :: rest)) → Quiet s.server
  | .udpStream r => (ofStorage (recvInto s.server.udpMsg r)).type = sysSys →
      (r.failed = true → s.server.udpMsgFrom ≠ .memory) ∧
      (r.failed = false → ∀ fd fds, s.udp = .serve fd fds → LetIn s fd)
  | .udpError => Quiet s.server
  | _ => True

def Pending (s : Server) (fd : Fd) (conn : Nat) : Turn → Prop
  | .accepted sockfd _ n => sockfd = fd ∧ n = conn ∧ conn < s.presented.length
  | .received sockfd _ n token_tmp | .checked sockfd _ n token_tmp _ =>
    sockfd = fd ∧ n = conn ∧ s.presented[conn]? = some token_tmp
  | _ => False

def Sound (cfg : Config) (s : Server) (turn : Turn) (fd : Fd) : Option Sock → Prop
  | none | some .process => True
  | some (.tcp conn) => Admitted cfg s turn (.conn conn) ∨ Pending s fd conn turn
  | some (.udp (some addr) queue) => Admitted cfg s turn (.peer addr) ∧ ∀ d ∈ queue, d.1 = addr
  | some (.udp none queue) => fd = cfg.udpServerListen ∨
      ∃ addr, s.accepting = some (fd, addr) ∧ Admitted cfg s turn (.peer addr) ∧ ∀ d ∈ queue, d.1 = addr

structure Inv (cfg : Config) (s : Server) (turn : Turn) : Prop where
  socks : ∀ fd, Sound cfg s turn fd (s.socks fd)
  listener : ∃ queue, s.socks cfg.udpServerListen = some (.udp none queue)
  outside : cfg.udpServerListen ∉ s.clients
  apart : turn.sockfd ≠ some cfg.udpServerListen
  epoll : s.epollfd cfg.udpServerListen = false
  accepting : ∀ fd addr, s.accepting = some (fd, addr) → fd ≠ cfg.udpServerListen
  msg : classify (ofStorage s.msg) ≠ .ignored → s.msgFrom = .memory ∨ Admitted cfg s turn s.msgFrom
  udpMsg : (ofStorage s.udpMsg).type = sysSys → s.udpMsgFrom = .memory ∨ Admitted cfg s turn s.udpMsgFrom
  acted : ∀ a ∈ s.acted, Admitted cfg s turn a.source

theorem Admitted.mono {cfg : Config} {s t : Server} {turn : Turn} {source : Source} (h : Admitted cfg s turn source)
    (hPresented : t.presented = s.presented) (hLogins : s.udpLogins ⊆ t.udpLogins) : Admitted cfg t turn source := by
  cases source with
  | conn n => exact ⟨hPresented ▸ h.1, h.2⟩
  | peer addr => exact hLogins h
  | memory => exact h

theorem Admitted.rest {cfg : Config} {s : Server} {turn next : Turn} {source : Source}
    (h : Admitted cfg s turn source) (hNext : awaited next = none) : Admitted cfg s next source := by
  cases source with
  | conn n =>
    refine ⟨h.1, ?_⟩
    rw [hNext]
    exact (Option.some_ne_none n).symm
  | peer addr => exact h
  | memory => exact h

theorem Pending.mono {s t : Server} {fd : Fd} {conn : Nat} {turn : Turn} (h : Pending s fd conn turn)
    (hPresented : t.presented = s.presented) : Pending t fd conn turn := by
  cases turn with
  | accepted sockfd client n =>
    rw [Pending, hPresented]
    exact h
  | received sockfd client n token_tmp =>
    rw [Pending, hPresented]
    exact h
  | checked sockfd client n token_tmp ack =>
    rw [Pending, hPresented]
    exact h
  | _ => exact h

theorem Pending.unchecked {s : Server} {fd : Fd} {conn : Nat} {turn : Turn} (h : Pending s fd conn turn) :
    Admission.unchecked turn = some (fd, conn) := by
  cases turn with
  | accepted sockfd client n =>
    obtain ⟨rfl, rfl, _⟩ := h
    rfl
  | received sockfd client n token_tmp =>
    obtain ⟨rfl, rfl, _⟩ := h
    rfl
  | checked sockfd client n token_tmp ack =>
    obtain ⟨rfl, rfl, _⟩ := h
    rfl
  | _ => cases h

theorem Pending.sockfd {s : Server} {fd : Fd} {conn : Nat} {turn : Turn} (h : Pending s fd conn turn) :
    turn.sockfd = some fd := by
  cases turn with
  | accepted sockfd client n =>
    obtain ⟨rfl, _⟩ := h
    rfl
  | received sockfd client n token_tmp =>
    obtain ⟨rfl, _⟩ := h
    rfl
  | checked sockfd client n token_tmp ack =>
    obtain ⟨rfl, _⟩ := h
    rfl
  | _ => cases h

theorem Sound.mono {cfg : Config} {s t : Server} {turn next : Turn} {fd : Fd} {sock : Option Sock}
    (h : Sound cfg s turn fd sock)
    (hAdm : ∀ source, Admitted cfg s turn source → Admitted cfg t next source)
    (hPending : ∀ conn, sock = some (.tcp conn) → Pending s fd conn turn →
      Admitted cfg t next (.conn conn) ∨ Pending t fd conn next)
    (hAccepting : s.accepting = none ∨ t.accepting = s.accepting) : Sound cfg t next fd sock := by
  cases sock with
  | none => trivial
  | some sock =>
    cases sock with
    | process => trivial
    | tcp conn =>
      obtain hConn | hLogin := h
      · exact .inl (hAdm _ hConn)
      · exact hPending conn rfl hLogin
    | udp peer queue =>
      cases peer with
      | some addr => exact ⟨hAdm _ h.1, h.2⟩
      | none =>
        obtain hListen | ⟨addr, hAcc, hPeer, hQueue⟩ := h
        · exact .inl hListen
        · obtain hNone | hSame := hAccepting
          · cases hNone.symm.trans hAcc
          · exact .inr ⟨addr, hSame.trans hAcc, hAdm _ hPeer, hQueue⟩

theorem sound_update {cfg : Config} {s : Server} {turn : Turn} {socks : Fd → Option Sock}
    (h : ∀ fd, Sound cfg s turn fd (socks fd)) (fd : Fd) (sock : Option Sock) (hNew : Sound cfg s turn fd sock) :
    ∀ fd', Sound cfg s turn fd' (Function.update socks fd sock fd') := by
  intro fd'
  obtain rfl | hNe := eq_or_ne fd' fd
  · rw [Function.update_self]
    exact hNew
  · rw [Function.update_of_ne hNe]
    exact h fd'

theorem Inv.ne_listener {cfg : Config} {s : Server} {turn : Turn} (h : Inv cfg s turn) {fd : Fd}
    (hSock : ∀ queue, s.socks fd ≠ some (.udp none queue)) : fd ≠ cfg.udpServerListen := by
  rintro rfl
  obtain ⟨queue, hListen⟩ := h.listener
  exact hSock queue hListen

theorem Inv.setSock {cfg : Config} {s : Server} {turn : Turn} (h : Inv cfg s turn) {fd : Fd} {sock : Option Sock}
    (hNew : Sound cfg s turn fd sock) (hListen : fd = cfg.udpServerListen → ∃ queue, sock = some (.udp none queue)) :
    Inv cfg { s with socks := Function.update s.socks fd sock } turn := by
  refine { h with socks := sound_update h.socks fd sock hNew, listener := ?_ }
  obtain rfl | hNe := eq_or_ne cfg.udpServerListen fd
  · obtain ⟨queue, hQueue⟩ := hListen rfl
    exact ⟨queue, (Function.update_self ..).trans hQueue⟩
  · obtain ⟨queue, hQueue⟩ := h.listener
    exact ⟨queue, (Function.update_of_ne hNe _ _).trans hQueue⟩

theorem Inv.close {cfg : Config} {s : Server} {turn : Turn} (h : Inv cfg s turn) {fd : Fd}
    (hNe : fd ≠ cfg.udpServerListen) : Inv cfg (s.close fd) turn := by
  have hClosed := @Inv.setSock cfg s turn h fd none trivial fun hListen => absurd hListen hNe
  exact { hClosed with epoll := (Function.update_of_ne hNe.symm ..).trans h.epoll }

theorem Inv.grow {cfg : Config} {s : Server} {turn next : Turn} (h : Inv cfg s turn) {presented : List Bytes}
    {udpLogins : List (SockaddrIn × Bytes)} {accepting : Option (Fd × SockaddrIn)} {t : Server}
    (ht : { s with presented := presented, udpLogins := udpLogins, accepting := accepting } = t)
    (hAdm : ∀ source, Admitted cfg s turn source → Admitted cfg t next source)
    (hPending : ∀ fd conn, s.socks fd = some (.tcp conn) → Pending s fd conn turn →
      Admitted cfg t next (.conn conn) ∨ Pending t fd conn next)
    (hAccepting : s.accepting = none ∨ accepting = s.accepting)
    (hNe : ∀ fd addr, accepting = some (fd, addr) → fd ≠ cfg.udpServerListen)
    (hApart : next.sockfd ≠ some cfg.udpServerListen) : Inv cfg t next := by
  subst ht
  exact {
    socks fd := (h.socks fd).mono hAdm (hPending fd) hAccepting
    listener := h.listener
    outside := h.outside
    apart := hApart
    epoll := h.epoll
    accepting := hNe
    msg hActs := (h.msg hActs).imp id (hAdm _)
    udpMsg hActs := (h.udpMsg hActs).imp id (hAdm _)
    acted a ha := hAdm _ (h.acted a ha) }

theorem Inv.act {cfg : Config} {s : Server} {turn : Turn} (h : Inv cfg s turn) {source : Source}
    (hAdm : Admitted cfg s turn source) (msg : MonitorMsgDs) :
    Inv cfg { s with acted := s.acted ++ [⟨source, msg⟩] } turn := by
  refine { h with acted := ?_ }
  intro a ha
  obtain hOld | hNew := List.mem_append.mp ha
  · exact h.acted a hOld
  · rw [List.mem_singleton.mp hNew]
    exact hAdm

theorem Inv.refresh {cfg : Config} {s : Server} {turn : Turn} (h : Inv cfg s turn) {fd : Fd} {client : ClientDs}
    (hLookup : s.clients.lookup fd = some client) (record : ClientDs) :
    Inv cfg { s with clients := s.clients.insert fd record } turn := by
  refine { h with outside := ?_ }
  intro hMem
  obtain hEq | hOld := (AList.mem_insert _).mp hMem
  · exact h.outside (hEq ▸ AList.lookup_isSome.mp (by rw [hLookup]; rfl))
  · exact h.outside hOld

theorem Inv.stop {cfg : Config} {s : Server} {turn : Turn} (h : Inv cfg s turn) :
    Inv cfg { s with stopped := true } turn := { h with }

theorem Inv.report {cfg : Config} {s : Server} {turn : Turn} (h : Inv cfg s turn) (hQuiet : Quiet s) :
    Inv cfg (udpReport s) turn := by
  rw [udpReport]
  split
  · rename_i hWarning
    apply h.act
    exact (h.udpMsg hWarning).resolve_left fun hMemory => hQuiet hMemory hWarning
  · exact h

theorem Inv.head {cfg : Config} {s : Server} {turn : Turn} (h : Inv cfg s turn) {fd : Fd}
    (hNe : fd ≠ cfg.udpServerListen) {peer : Option SockaddrIn} {addr : SockaddrIn} {bytes : Bytes}
    {rest : List (SockaddrIn × Bytes)} (hSock : s.socks fd = some (.udp peer ((addr, bytes) :: rest))) :
    Admitted cfg s turn (.peer addr) ∧ Inv cfg { s with
      socks := Function.update s.socks fd (some (.udp peer rest)) } turn := by
  have hSound := h.socks fd
  rw [hSock] at hSound
  have hListen : fd = cfg.udpServerListen → ∃ queue, some (Sock.udp peer rest) = some (.udp none queue) :=
    fun hEq => absurd hEq hNe
  cases peer with
  | some p =>
    obtain ⟨hAdm, hQueue⟩ := hSound
    have hAddr : addr = p := hQueue _ List.mem_cons_self
    have hRest : ∀ d ∈ rest, d.1 = p := fun d hd => hQueue d (List.mem_cons_of_mem _ hd)
    exact ⟨hAddr ▸ hAdm, h.setSock ⟨hAdm, hRest⟩ hListen⟩
  | none =>
    obtain hEq | ⟨p, hAcc, hAdm, hQueue⟩ := hSound
    · exact absurd hEq hNe
    · have hAddr : addr = p := hQueue _ List.mem_cons_self
      have hRest : ∀ d ∈ rest, d.1 = p := fun d hd => hQueue d (List.mem_cons_of_mem _ hd)
      exact ⟨hAddr ▸ hAdm, h.setSock (.inr ⟨p, hAcc, hAdm, hRest⟩) hListen⟩

theorem Inv.recvOn {cfg : Config} {s t : Server} {turn : Turn} (h : Inv cfg s turn) {fd : Fd}
    (hNe : fd ≠ cfg.udpServerListen) {size : Nat} {r : Recv} {source : Source}
    (hRecv : recvOn s fd size r = some (t, source)) :
    Inv cfg t turn ∧ t.msg = s.msg ∧ t.msgFrom = s.msgFrom ∧ (r.failed = false → Admitted cfg t turn source ∨
      ∃ conn, source = .conn conn ∧ t = s ∧ s.socks fd = some (.tcp conn) ∧ Pending s fd conn turn) := by
  unfold Admission.recvOn at hRecv
  split at hRecv
  · rename_i conn hSock
    obtain ⟨_, hEq⟩ := Option.ite_none_right_eq_some.mp hRecv
    cases hEq
    have hSound := h.socks fd
    rw [hSock] at hSound
    refine ⟨h, rfl, rfl, fun _ => hSound.imp id fun hLogin => ⟨conn, rfl, rfl, hSock, hLogin⟩⟩
  · rename_i peer addr bytes rest hSock
    split at hRecv
    · rename_i hError
      cases hRecv
      refine ⟨h, rfl, rfl, ?_⟩
      intro hTaken
      rw [hError] at hTaken
      cases hTaken
    · obtain ⟨_, hEq⟩ := Option.ite_none_right_eq_some.mp hRecv
      cases hEq
      obtain ⟨hAdm, hSet⟩ := h.head hNe hSock
      exact ⟨hSet, rfl, rfl, fun _ => .inl hAdm⟩
  · obtain ⟨hError, hEq⟩ := Option.ite_none_right_eq_some.mp hRecv
    cases hEq
    refine ⟨h, rfl, rfl, ?_⟩
    intro hTaken
    rw [hError] at hTaken
    cases hTaken

theorem recvOn_tcp {s t : Server} {fd : Fd} {size : Nat} {r : Recv} {source : Source} {conn : Nat}
    (hRecv : recvOn s fd size r = some (t, source)) (hTaken : r.failed = false) (hSock : t.socks fd = some (.tcp conn)) :
    source = .conn conn := by
  unfold recvOn at hRecv
  split at hRecv
  · rename_i n hOld
    obtain ⟨_, hEq⟩ := Option.ite_none_right_eq_some.mp hRecv
    cases hEq
    cases hOld.symm.trans hSock
    rfl
  · split at hRecv
    · rename_i hError
      rw [hError] at hTaken
      cases hTaken
    · obtain ⟨_, hEq⟩ := Option.ite_none_right_eq_some.mp hRecv
      cases hEq
      cases (Function.update_self ..).symm.trans hSock
  · obtain ⟨hError, _⟩ := Option.ite_none_right_eq_some.mp hRecv
    rw [hError] at hTaken
    cases hTaken

theorem Inv.drop {cfg : Config} {s : Server} {turn : Turn} (h : Inv cfg s turn) {sockfd : Fd}
    (hTurn : turn.sockfd = some sockfd) : Inv cfg (s.close sockfd) .waiting := by
  have hNe : sockfd ≠ cfg.udpServerListen := by
    rintro rfl
    exact h.apart hTurn
  have hClosed := h.close hNe
  refine hClosed.grow rfl (fun _ hAdm => hAdm.rest rfl) ?_ (.inr rfl) hClosed.accepting ?_
  · intro fd conn hSock hLogin
    cases hTurn.symm.trans hLogin.sockfd
    cases (Function.update_self ..).symm.trans hSock
  · intro hNone
    cases hNone

theorem Inv.accept {cfg : Config} {s : Server} (h : Inv cfg s .waiting) {sockfd : Fd} (hFree : s.socks sockfd = none)
    (client : SockaddrIn) :
    Inv cfg (CheckOnline.accept s sockfd client).server (CheckOnline.accept s sockfd client).turn := by
  have hNe : sockfd ≠ cfg.udpServerListen := by
    apply h.ne_listener
    intro queue hSock
    cases hFree.symm.trans hSock
  have hGrown : Inv cfg { s with presented := s.presented ++ [[]] } (.accepted sockfd client s.presented.length) := by
    refine h.grow rfl ?_ ?_ (.inr rfl) h.accepting ?_
    · intro source hAdm
      cases source with
      | conn n =>
        obtain ⟨hToken, _⟩ := hAdm
        have hLt : n < s.presented.length := (List.getElem?_eq_some_iff.mp hToken).1
        refine ⟨(List.getElem?_append_left hLt).trans hToken, ?_⟩
        intro hNew
        cases hNew
        exact absurd hLt (Nat.lt_irrefl _)
      | peer addr => exact hAdm
      | memory => exact hAdm
    · intro fd conn _ hNone
      cases hNone
    · intro hListen
      cases hListen
      exact hNe rfl
  refine hGrown.setSock (.inr ⟨rfl, rfl, ?_⟩) fun hListen => absurd hListen hNe
  simp

theorem Admitted.present {cfg : Config} {s : Server} {turn next : Turn} {conn : Nat} (hTurn : awaited turn = some conn)
    (hNext : awaited next = none ∨ awaited next = some conn) {source : Source} (h : Admitted cfg s turn source)
    (token_tmp : Bytes) : Admitted cfg { s with presented := s.presented.set conn token_tmp } next source := by
  cases source with
  | conn n =>
    obtain ⟨hToken, hOther⟩ := h
    have hNe : conn ≠ n := by
      rintro rfl
      exact hOther hTurn
    refine ⟨(List.getElem?_set_ne hNe).trans hToken, ?_⟩
    obtain hNone | hSame := hNext
    · rw [hNone]
      exact (Option.some_ne_none n).symm
    · rw [hSame]
      exact fun hEq => hNe (Option.some.inj hEq)
  | peer addr => exact h
  | memory => exact h

theorem Inv.present {cfg : Config} {s : Server} {sockfd : Fd} {client : SockaddrIn} {conn : Nat}
    (h : Inv cfg s (.accepted sockfd client conn)) (token_tmp : Bytes) :
    Inv cfg { s with presented := s.presented.set conn token_tmp } (.accepted sockfd client conn) := by
  refine h.grow rfl (fun _ hAdm => hAdm.present rfl (.inr rfl) token_tmp) ?_ (.inr rfl) h.accepting h.apart
  rintro fd n _ ⟨rfl, rfl, hLt⟩
  exact .inr ⟨rfl, rfl, by simpa using hLt⟩

theorem Inv.received {cfg : Config} {s : Server} {sockfd : Fd} {client : SockaddrIn} {conn : Nat}
    (h : Inv cfg s (.accepted sockfd client conn)) (token_tmp : Bytes) :
    Inv cfg { s with presented := s.presented.set conn token_tmp } (.received sockfd client conn token_tmp) := by
  refine h.grow rfl (fun _ hAdm => hAdm.present rfl (.inl rfl) token_tmp) ?_ (.inr rfl) h.accepting h.apart
  rintro fd n _ ⟨rfl, rfl, hLt⟩
  exact .inr ⟨rfl, rfl, List.getElem?_set_self hLt⟩

theorem Inv.lost {cfg : Config} {s : Server} {sockfd : Fd} {client : SockaddrIn} {conn : Nat}
    (h : Inv cfg s (.accepted sockfd client conn)) (hLost : s.socks sockfd ≠ some (.tcp conn)) (token_tmp : Bytes) :
    Inv cfg s (.received sockfd client conn token_tmp) := by
  refine h.grow rfl (fun _ hAdm => hAdm.rest rfl) ?_ (.inr rfl) h.accepting h.apart
  rintro fd n hSock ⟨rfl, rfl, _⟩
  exact absurd hSock hLost

theorem inv_token {cfg : Config} {s t : State} {sockfd : Fd} {client : SockaddrIn} {conn : Nat} {ready : Bool}
    {r : Recv} (h : Inv cfg s.server (.accepted sockfd client conn))
    (hStep : token s sockfd client conn ready r = some t) :
    Inv cfg t.server t.turn ∧ t.dispatcher = s.dispatcher := by
  have hNe : sockfd ≠ cfg.udpServerListen := by
    rintro rfl
    exact h.apart rfl
  rw [token] at hStep
  split at hStep
  · cases hStep
    exact ⟨h.drop rfl, rfl⟩
  · obtain ⟨⟨u, source⟩, hRecv, hEq⟩ := Option.map_eq_some_iff.mp hStep
    obtain ⟨hTaken, _⟩ := h.recvOn hNe hRecv
    dsimp only at hEq
    cases hFailed : r.failed with
    | true =>
      rw [hFailed, if_pos rfl] at hEq
      subst hEq
      refine ⟨?_, rfl⟩
      dsimp only
      split
      · exact (hTaken.present _).drop rfl
      · exact hTaken.drop rfl
    | false =>
      rw [hFailed, if_neg Bool.false_ne_true] at hEq
      subst hEq
      refine ⟨?_, rfl⟩
      dsimp only
      split
      · exact hTaken.received _
      · rename_i hOther
        exact hTaken.lost (fun hSock => hOther (recvOn_tcp hRecv hFailed hSock)) _

theorem Inv.turnStep {cfg : Config} {s : Server} {turn : Turn} {a : CheckOnline.Act} {t : CheckOnline.State}
    (h : Inv cfg s turn) (hToken : ∀ ready r, a ≠ .token ready r) (hStep : CheckOnline.turnStep cfg s turn a = some t) :
    Inv cfg t.server t.turn := by
  unfold CheckOnline.turnStep at hStep
  split at hStep
  · obtain ⟨hFree, hEq⟩ := Option.ite_none_right_eq_some.mp hStep
    cases hEq
    exact h.accept hFree _
  · exact absurd rfl (hToken _ _)
  · cases hStep
    exact h.grow rfl (fun _ hAdm => hAdm.rest rfl) (fun _ _ _ hLogin => .inr hLogin) (.inr rfl) h.accepting h.apart
  · split at hStep
    · cases hStep
      exact h.drop rfl
    · rename_i hPasses
      cases hStep
      refine h.grow rfl (fun _ hAdm => hAdm.rest rfl) ?_ (.inr rfl) h.accepting h.apart
      rintro fd conn _ ⟨_, rfl, hPresented⟩
      obtain ⟨_, hSame⟩ := not_or.mp (not_or.mp hPasses).2
      refine .inl ⟨?_, (Option.some_ne_none _).symm⟩
      rw [hPresented, not_not.mp hSame]
  · rename_i sockfd client conn
    cases hStep
    have hMoved : Inv cfg s (.inserted sockfd) := by
      refine h.grow rfl (fun _ hAdm => hAdm.rest rfl) ?_ (.inr rfl) h.accepting h.apart
      intro fd conn' _ hNone
      cases hNone
    refine { hMoved with outside := ?_ }
    intro hMem
    obtain hSame | hOld := (AList.mem_insert _).mp hMem
    · exact h.apart (congrArg some hSame.symm)
    · exact h.outside hOld
  · rename_i sockfd added
    cases hStep
    have hMoved : Inv cfg s .waiting := by
      refine h.grow rfl (fun _ hAdm => hAdm.rest rfl) ?_ (.inr rfl) h.accepting (fun hNone => by cases hNone)
      intro fd conn' _ hNone
      cases hNone
    refine { hMoved with epoll := ?_ }
    dsimp only
    split
    · rw [Function.update_of_ne]
      · exact h.epoll
      · rintro rfl
        exact h.apart rfl
    · exact h.epoll
  · cases hStep

theorem Inv.heartBeatOne {cfg : Config} {s : Server} {turn : Turn} (h : Inv cfg s turn) (fd : Fd) :
    Inv cfg (heartBeatOne s fd) turn := by
  obtain hSame | ⟨client, hLookup, ⟨_, hLast⟩ | ⟨_, hCounted⟩⟩ := heartBeatOne_cases s fd
  · rw [hSame]
    exact h
  · have hNe : fd ≠ cfg.udpServerListen := by
      rintro rfl
      exact h.outside (AList.lookup_isSome.mp (by rw [hLookup]; rfl))
    rw [hLast]
    refine { h.close hNe with outside := ?_ }
    intro hMem
    exact h.outside (AList.mem_erase.mp hMem).2
  · rw [hCounted]
    exact { h.refresh hLookup { client with isonline := client.isonline - 1 } with }

theorem Inv.beat {cfg : Config} {s : State} (h : Inv cfg s.server s.turn) (thread : Lifetime.Thread) :
    Inv cfg (beat s thread).server s.turn := by
  rw [Lifetime.beat]
  split
  · exact h.stop
  · have hBeat : Inv cfg (heartBeat s.server) s.turn :=
      @heartBeat_invariant (fun t => Inv cfg t s.turn) (fun _ fd h => h.heartBeatOne fd) s.server h
    dsimp only
    split
    · exact hBeat.stop
    · exact hBeat

theorem Inv.datagram {cfg : Config} {s t : Server} {turn : Turn} (h : Inv cfg s turn) {fd : Fd} {addr : SockaddrIn}
    {bytes : Bytes} (hGuard : ∀ client, s.accepting = some (fd, client) → addr = client)
    (hStep : arrive s fd addr bytes = some t) : Inv cfg t turn := by
  obtain ⟨peer, queue, hSock, hPeer, rfl⟩ := arrive_cases hStep
  have hQueue : ∀ p, addr = p → (∀ d ∈ queue, d.1 = p) →
      ∀ d ∈ queue ++ [(addr, bytes)], d.1 = p := by
    intro p hp hAll d hd
    obtain hd | hd := List.mem_append.mp hd
    · exact hAll d hd
    · rw [List.mem_singleton.mp hd]
      exact hp
  have hOld := h.socks fd
  rw [hSock] at hOld
  apply h.setSock
  · cases peer with
    | some p =>
      obtain ⟨hAdm, hAll⟩ := hOld
      refine ⟨hAdm, hQueue p ?_ hAll⟩
      simpa [eq_comm] using hPeer
    | none =>
      obtain hListen | ⟨p, hAcc, hAdm, hAll⟩ := hOld
      · exact .inl hListen
      · exact .inr ⟨p, hAcc, hAdm, hQueue p (hGuard p hAcc) hAll⟩
  · rintro rfl
    obtain ⟨queue', hListen⟩ := h.listener
    cases hListen.symm.trans hSock
    exact ⟨_, rfl⟩

theorem Inv.udpAccept {cfg : Config} {s t : Server} {turn : Turn} (h : Inv cfg s turn) {sockfd : Option Fd}
    (hAcc : s.accepting = none)
    (hGuard : ∀ client bytes rest,
      s.socks cfg.udpServerListen = some (.udp none ((client, bytes) :: rest)) →
        tokenLen ≤ bytes.length → cstr (bytes.take tokenLen) = cfg.token.text)
    (hStep : acceptUdpBind cfg s sockfd = some t) : Inv cfg t turn := by
  obtain ⟨client, bytes, rest, hSock, hCases⟩ := acceptUdpBind_cases hStep
  have hTaken : Inv cfg (requestRead cfg s rest) turn := h.setSock (.inl rfl) fun _ => ⟨rest, rfl⟩
  obtain ⟨_, rfl⟩ | ⟨fd, hWhole, _, hFree, rfl⟩ := hCases
  · exact hTaken.stop
  · have hToken := hGuard client bytes rest hSock hWhole
    have hNe : fd ≠ cfg.udpServerListen := by
      apply hTaken.ne_listener
      intro queue hQueue
      cases hFree.symm.trans hQueue
    have hGrown : Inv cfg { requestRead cfg s rest with
        accepting := some (fd, client)
        udpLogins := s.udpLogins ++ [(client, cstr (bytes.take tokenLen))] } turn := by
      refine hTaken.grow rfl (fun _ hAdm => hAdm.mono rfl (List.subset_append_left _ _))
        (fun _ _ _ hLogin => .inr (hLogin.mono rfl)) (.inl hAcc) ?_ hTaken.apart
      rintro fd' addr ⟨⟩
      exact hNe
    refine hGrown.setSock ?_ fun _ => ⟨[], rfl⟩
    refine .inr ⟨client, rfl, ?_, ?_⟩
    · rw [Admitted, hToken]
      exact List.mem_append_right _ (List.mem_singleton_self _)
    · intro d hd
      cases hd

theorem Inv.accepted {cfg : Config} {s : Server} {turn : Turn} (h : Inv cfg s turn) {fd : Fd} {client : SockaddrIn}
    (hAcc : s.accepting = some (fd, client)) (hDone : ∀ queue, s.socks fd ≠ some (.udp none queue)) :
    Inv cfg { s with accepting := none } turn := by
  refine { h with socks := ?_, accepting := ?_ }
  · intro fd'
    have hOld := h.socks fd'
    dsimp only
    cases hSock : s.socks fd' with
    | none => trivial
    | some sock =>
      rw [hSock] at hOld
      cases sock with
      | process => trivial
      | tcp conn => exact hOld.imp id fun hLogin => hLogin.mono rfl
      | udp peer queue =>
        cases peer with
        | some addr => exact hOld
        | none =>
          obtain hListen | ⟨addr, hAcc', _⟩ := hOld
          · exact .inl hListen
          · cases hAcc.symm.trans hAcc'
            exact absurd hSock (hDone queue)
  · intro fd' addr hNone
    cases hNone

theorem Inv.udpConnect {cfg : Config} {s t : Server} {turn : Turn} (h : Inv cfg s turn) {connected added : Bool}
    (hGuard : connected = true ∨ ∀ fd client queue,
      s.accepting = some (fd, client) → s.socks fd ≠ some (.udp none queue))
    (hStep : acceptUdpConnect s connected added = some t) : Inv cfg t turn := by
  obtain ⟨fd, client, socks, hAcc, rfl, ⟨rfl, hKept⟩ | ⟨queue, hSock, rfl⟩⟩ := acceptUdpConnect_cases hStep
  · have hOther : ∀ queue, s.socks fd ≠ some (.udp none queue) := by
      obtain hConnected | hOther := hGuard
      · exact hKept hConnected
      · exact fun queue => hOther fd client queue hAcc
    exact { h.accepted hAcc hOther with }
  · have hSound := h.socks fd
    rw [hSock] at hSound
    obtain hListen | ⟨addr, hAcc', hAdm, hQueue⟩ := hSound
    · exact absurd hListen (h.accepting fd client hAcc)
    · cases hAcc.symm.trans hAcc'
      have hSet : Inv cfg { s with
          socks := Function.update s.socks fd (some (.udp (some client) queue)) } turn :=
        h.setSock ⟨hAdm, hQueue⟩ fun hListen => absurd hListen (h.accepting fd client hAcc)
      exact { hSet.accepted hAcc (by simp) with }

theorem Inv.udpRecv {cfg : Config} {s t : Server} {turn : Turn} (h : Inv cfg s turn) {fd : Fd}
    (hNe : fd ≠ cfg.udpServerListen)
    (hGuard : ∀ peer addr rest, s.socks fd = some (.udp peer ((addr, []) :: rest)) → Quiet s)
    (hStep : udpRecv s fd = some t) : Inv cfg t turn := by
  obtain ⟨peer, addr, bytes, rest, hSock, rfl⟩ := udpRecv_cases hStep
  obtain ⟨hAdm, hSet⟩ := h.head hNe hSock
  apply Inv.report
  · refine { hSet with udpMsg := ?_ }
    cases bytes with
    | nil => exact h.udpMsg
    | cons b bytes => exact fun _ => .inr hAdm
  · cases bytes with
    | nil => exact hGuard peer addr rest hSock
    | cons b bytes =>
      intro hMemory
      cases hMemory

theorem Inv.udpStream {cfg : Config} {s : State} {t : Server} (h : Inv cfg s.server s.turn) {fd : Fd} {r : Recv}
    (hGuard : (ofStorage (recvInto s.server.udpMsg r)).type = sysSys →
      (r.failed = true → s.server.udpMsgFrom ≠ .memory) ∧ (r.failed = false → LetIn s fd))
    (hStep : udpRecvStream s.server fd r = some t) : Inv cfg t s.turn := by
  obtain ⟨conn, hSock, rfl⟩ := udpRecvStream_cases hStep
  have hSound := h.socks fd
  rw [hSock] at hSound
  cases hFailed : r.failed with
  | true =>
    rw [recvInto_failed hFailed] at hGuard ⊢
    apply Inv.report
    · exact { h with }
    · exact fun hMemory hWarning => (hGuard hWarning).1 hFailed hMemory
  | false =>
    have hTaken : Inv cfg { s.server with udpMsg := recvInto s.server.udpMsg r, udpMsgFrom := .conn conn } s.turn := by
      refine { h with udpMsg := ?_ }
      intro hWarning
      refine .inr (hSound.resolve_right fun hLogin => ?_)
      exact (hGuard hWarning).2 hFailed conn hSock hLogin.unchecked
    exact hTaken.report fun hMemory => by cases hMemory

theorem inv_recv {cfg : Config} {s : State} {t : Server} {fd : Fd} {fds : List Fd} {r : Recv} {source : Source}
    (h : Inv cfg s.server s.turn) (hServe : s.dispatcher = .serve fd fds) (hNe : fd ≠ cfg.udpServerListen)
    (hGuard : Guarded cfg s (.recv r)) (hRecv : recvOn s.server fd sizeofMsg r = some (t, source)) :
    Inv cfg { dispatchRecv t fd r with msgFrom := if r.failed then t.msgFrom else source } s.turn := by
  obtain ⟨hTaken, hMsg, hMsgFrom, hSource⟩ := h.recvOn hNe hRecv
  rw [dispatchRecv]
  cases hFailed : r.failed with
  | true =>
    rw [if_pos rfl, if_pos rfl, recvInto_failed hFailed]
    exact { hTaken.close hNe with }
  | false =>
    rw [if_neg Bool.false_ne_true, if_neg Bool.false_ne_true]
    refine { hTaken with msg := ?_ }
    rw [hMsg]
    intro hActs
    refine .inr ((hSource hFailed).resolve_right ?_)
    rintro ⟨conn, _, _, hSock, hLogin⟩
    exact hGuard hFailed hActs fd fds hServe conn hSock hLogin.unchecked

theorem inv_classify {cfg : Config} {s : Server} {turn : Turn} (h : Inv cfg s turn)
    (hGuard : classify (ofStorage s.msg) ≠ .ignored → s.msgFrom ≠ .memory) (fd : Fd) :
    Inv cfg (dispatchClassify s fd) turn := by
  have hAdm : classify (ofStorage s.msg) ≠ .ignored → Admitted cfg s turn s.msgFrom := by
    intro hActs
    exact (h.msg hActs).resolve_left (hGuard hActs)
  rw [dispatchClassify]
  split
  · rename_i hAck
    split
    · exact h.stop
    · rename_i client hLookup
      apply (h.refresh hLookup _).act
      exact hAdm (by rw [hAck]; decide)
  · rename_i hPush
    exact h.act (hAdm (by rw [hPush]; decide)) _
  · exact h

theorem inv_does {cfg : Config} {s : State} {t : Server} {a : Act} (h : Inv cfg s.server s.turn)
    (hRecv : ∀ r, a ≠ .recv r) (hTick : ∀ thread, a ≠ .tick thread) (hGuard : Guarded cfg s a)
    (hDoes : Lifetime.Does cfg s t a) : Inv cfg t s.turn := by
  cases a with
  | login b => cases hDoes
  | tick thread => exact absurd rfl (hTick thread)
  | recv r => exact absurd rfl (hRecv r)
  | acceptFails =>
    cases hDoes
    exact h.stop
  | reset conn => exact hDoes ▸ h
  | events fds => exact hDoes ▸ h
  | udpEvents fds => exact hDoes ▸ h
  | classify =>
    obtain ⟨fd, _, _, rfl⟩ := hDoes
    exact inv_classify h hGuard fd
  | datagram fd addr bytes => exact h.datagram hGuard hDoes
  | udpAccept sockfd => exact h.udpAccept hDoes.1 hGuard hDoes.2
  | udpConnect connected added => exact h.udpConnect hGuard hDoes
  | udpRecv =>
    obtain ⟨fd, fds, hServe, hNe, hRecv⟩ := hDoes
    exact h.udpRecv hNe (hGuard fd fds hServe) hRecv
  | udpStream r =>
    obtain ⟨fd, fds, hServe, hRecv⟩ := hDoes
    refine h.udpStream ?_ hRecv
    intro hWarning
    obtain ⟨hFailed, hTaken⟩ := hGuard hWarning
    exact ⟨hFailed, fun hSome => hTaken hSome fd fds hServe⟩
  | udpError =>
    obtain ⟨fd, _, _, rfl⟩ := hDoes
    exact Inv.report { h with } hGuard
  | work msg =>
    rw [Lifetime.Does] at hDoes
    rw [hDoes]
    split
    · exact h.stop
    · exact h

/-- The listener is in no batch of do_dispatch. -/
structure Inside (cfg : Config) (s : State) : Prop extends Inv cfg s.server s.turn where
  batch : cfg.udpServerListen ∉ s.dispatcher.left

theorem not_mem_next {fd : Fd} {fds : List Fd} (h : fd ∉ fds) : fd ∉ (Loop.next fds).left := by
  cases fds with
  | nil => exact h
  | cons other fds => exact h

theorem Inside.moves {cfg : Config} {s : State} {loop : Loop} {a : Act} (h : Inside cfg s)
    (hMoves : Lifetime.Moves s loop a) : cfg.udpServerListen ∉ loop.left := by
  cases a with
  | recv r =>
    obtain ⟨fd, fds, hServe, rfl⟩ := hMoves
    have hBatch := h.batch
    rw [hServe] at hBatch
    exact fun hMem => hBatch (List.mem_cons_of_mem fd hMem)
  | events fds =>
    obtain ⟨⟨_, _, _, hReg⟩, rfl⟩ := hMoves
    apply not_mem_next
    intro hMem
    cases h.epoll.symm.trans (hReg _ hMem)
  | classify =>
    obtain ⟨fd, fds, hReceived, rfl⟩ := hMoves
    have hBatch := h.batch
    rw [hReceived] at hBatch
    exact not_mem_next hBatch
  | _ =>
    cases hMoves
    exact h.batch

theorem inside_login {cfg : Config} {s t : State} {b : CheckOnline.Act} (h : Inside cfg s)
    (hStep : act cfg s (.login b) = some t) : Inside cfg t := by
  by_cases hToken : ∃ ready r, b = .token ready r
  · obtain ⟨ready, r, rfl⟩ := hToken
    rw [act] at hStep
    split at hStep
    · rename_i sockfd client conn hTurn
      have hInv : Inv cfg s.server (.accepted sockfd client conn) := hTurn ▸ h.toInv
      obtain ⟨hNext, hLoop⟩ := inv_token hInv hStep
      exact { hNext with batch := hLoop ▸ h.batch }
    · cases hStep
  · have hOther : ∀ ready r, b ≠ .token ready r := by
      rintro ready r rfl
      exact hToken ⟨ready, r, rfl⟩
    have hLogin : Lifetime.loginStep cfg s b = some t := by
      cases b with
      | token ready r => exact absurd rfl (hOther ready r)
      | _ => exact hStep
    obtain ⟨_, rfl⟩ | ⟨_, u, hTurnStep, rfl⟩ := Lifetime.loginStep_cases hLogin
    · exact { h.stop with batch := h.batch }
    · exact { h.toInv.turnStep hOther hTurnStep with batch := h.batch }

theorem inside_act {cfg : Config} {s t : State} {a : Act} (h : Inside cfg s) (hGuard : Guarded cfg s a)
    (hStep : act cfg s a = some t) : Inside cfg t := by
  by_cases hLogin : ∃ b, a = .login b
  · obtain ⟨b, rfl⟩ := hLogin
    exact inside_login h hStep
  by_cases hTick : ∃ thread, a = .tick thread
  · obtain ⟨thread, rfl⟩ := hTick
    cases hStep
    obtain ⟨server, hFrame⟩ := Lifetime.beat_frame s thread
    have hInv := h.toInv.beat thread
    rw [hFrame] at hInv ⊢
    exact { hInv with batch := h.batch }
  by_cases hRecv : ∃ r, a = .recv r
  · obtain ⟨r, rfl⟩ := hRecv
    rw [act] at hStep
    split at hStep
    · rename_i fd fds hServe
      obtain ⟨⟨u, source⟩, hTaken, rfl⟩ := Option.map_eq_some_iff.mp hStep
      have hBatch := h.batch
      rw [hServe] at hBatch
      have hNe : fd ≠ cfg.udpServerListen := by
        rintro rfl
        exact hBatch List.mem_cons_self
      have hInv := inv_recv h.toInv hServe hNe hGuard hTaken
      exact { hInv with batch := fun hMem => hBatch (List.mem_cons_of_mem fd hMem) }
    · cases hStep
  · have hAct : Lifetime.act cfg s a = some t := by
      cases a with
      | login b => exact absurd ⟨b, rfl⟩ hLogin
      | tick thread => exact absurd ⟨thread, rfl⟩ hTick
      | recv r => exact absurd ⟨r, rfl⟩ hRecv
      | _ => exact hStep
    obtain ⟨hTurn, hMoves, hDoes⟩ := Lifetime.act_does (not_exists.mp hLogin) hAct
    have hInv : Inv cfg t.server t.turn :=
      hTurn ▸ inv_does h.toInv (not_exists.mp hRecv) (not_exists.mp hTick) hGuard hDoes
    exact { hInv with batch := h.moves hMoves }

theorem inside_start {cfg : Config} {s : State} (h : (system cfg).start s) : Inside cfg s := by
  obtain ⟨hInitial, _, hTurn, hWait, _⟩ := h
  constructor
  · constructor
    · intro fd
      obtain rfl | hNe := eq_or_ne fd cfg.udpServerListen
      · rw [hInitial.listener]
        exact .inl rfl
      · obtain hNone | hProcess := hInitial.others fd hNe
        · rw [hNone]
          trivial
        · rw [hProcess]
          trivial
    · exact ⟨[], hInitial.listener⟩
    · rw [hInitial.clients]
      exact AList.notMem_empty _
    · rw [hTurn]
      exact (Option.some_ne_none _).symm
    · exact hInitial.epollfd _
    · intro fd addr hAcc
      cases hInitial.accepting.symm.trans hAcc
    · exact fun _ => .inl hInitial.msgFrom
    · exact fun _ => .inl hInitial.udpMsgFrom
    · intro a ha
      rw [hInitial.acted] at ha
      cases ha
  · rw [hWait]
    exact List.not_mem_nil

theorem start_begun : (system config).start begun := Lifetime.start_begun

def forged : List Act :=
  [.datagram 3 urgent (List.replicate 20 0), .udpEvents [3], .udpAccept (some 5), .udpConnect true true,
    .datagram 5 urgent ((cleared sysSys).image [0, 0, 0, 0]), .udpEvents [5], .udpRecv]

def typeOnly (type : BitVec 64) : Bytes := leBytes 8 type.toNat

/-- A client logs in, answers a heartbeat and reports; another peer sends the token and a warning. -/
def loggedInByToken : List Act :=
  [.login (.accept 5 CheckOnline.home), .login (.token true (.data (lit "token"))), .login .check,
    .login (.reply true), .login .insert, .login (.addToReactor true),
    .events [5], .recv (.data (typeOnly piAck)), .tick .worker, .classify,
    .events [5], .recv (.data (typeOnly sysMem)), .classify,
    .datagram 3 urgent (lit "token" ++ List.replicate 15 0), .udpEvents [3], .udpAccept (some 6), .udpConnect true true,
    .datagram 6 urgent (typeOnly sysSys), .udpEvents [6], .udpRecv]

end MonitorSystem.Admission
