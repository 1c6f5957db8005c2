import MonitorSystem.ServerFunc

/-! # Agreement of the client table with the open connections

heart_beat erases the record of the descriptor it closes; do_dispatch closes
the descriptor of a failed recv and leaves the record, whose key the kernel
may hand out again.
-/

namespace MonitorSystem.Registry

open Msg Dispatch ServerFunc Lib.CString Lib.Transition

structure Consistent (s : Server) : Prop where
  keys : ∀ fd, fd ∈ s.clients ↔
    ∃ conn, s.socks fd = some (.tcp conn) ∧ conn ∈ s.loggedIn ∧ s.epollfd fd = true
  own : ∀ fd client, s.clients.lookup fd = some client → s.socks fd = some (.tcp client.conn)
  beats : ∀ b ∈ s.beats, b.target = some (.tcp b.conn)

/-- No recv of do_dispatch fails or finds the end of the stream, and add_to_reactor succeeds. -/
def Clean (_ : Server) : Event → Prop
  | .login _ _ _ _ _ added => added = true
  | .readable _ r => r.failed = false
  | _ => True

structure Inv (s : Server) : Prop extends Consistent s where
  fresh : ∀ fd conn, s.socks fd = some (.tcp conn) → conn < s.presented.length
  registered : ∀ fd, s.epollfd fd = true → fd ∈ s.clients

structure SameTcp (s t : Server) : Prop where
  socks : ∀ fd conn, t.socks fd = some (.tcp conn) ↔ s.socks fd = some (.tcp conn)
  clients : t.clients = s.clients
  epollfd : t.epollfd = s.epollfd
  presented : t.presented = s.presented
  loggedIn : t.loggedIn = s.loggedIn
  beats : t.beats = s.beats

theorem Inv.congr {s t : Server} (h : Inv s) (hSame : SameTcp s t) : Inv t where
  keys fd := by
    rw [hSame.clients, hSame.loggedIn, hSame.epollfd, h.keys fd]
    constructor
    · rintro ⟨conn, hSock, hRest⟩
      exact ⟨conn, (hSame.socks fd conn).mpr hSock, hRest⟩
    · rintro ⟨conn, hSock, hRest⟩
      exact ⟨conn, (hSame.socks fd conn).mp hSock, hRest⟩
  own fd client hLookup := by
    rw [hSame.clients] at hLookup
    exact (hSame.socks fd _).mpr (h.own fd client hLookup)
  beats b hb := by
    rw [hSame.beats] at hb
    exact h.beats b hb
  fresh fd conn hSock := by
    rw [hSame.presented]
    exact h.fresh fd conn ((hSame.socks fd conn).mp hSock)
  registered fd hReg := by
    rw [hSame.epollfd] at hReg
    rw [hSame.clients]
    exact h.registered fd hReg

theorem sameTcp_update {s t : Server} (fd : Fd) (sock : Option Sock)
    (hOld : ∀ conn, s.socks fd ≠ some (.tcp conn)) (hNew : ∀ conn, sock ≠ some (.tcp conn))
    (hSocks : t.socks = Function.update s.socks fd sock) (hClients : t.clients = s.clients)
    (hEpoll : t.epollfd = s.epollfd) (hPresented : t.presented = s.presented)
    (hLogged : t.loggedIn = s.loggedIn) (hBeats : t.beats = s.beats) : SameTcp s t := by
  refine ⟨?_, hClients, hEpoll, hPresented, hLogged, hBeats⟩
  intro fd' conn
  rw [hSocks]
  obtain rfl | hNe := eq_or_ne fd' fd
  · rw [Function.update_self]
    exact iff_of_false (hNew conn) (hOld conn)
  · rw [Function.update_of_ne hNe]

theorem SameTcp.trans {s t u : Server} (h₁ : SameTcp s t) (h₂ : SameTcp t u) : SameTcp s u where
  socks fd conn := (h₂.socks fd conn).trans (h₁.socks fd conn)
  clients := h₂.clients.trans h₁.clients
  epollfd := h₂.epollfd.trans h₁.epollfd
  presented := h₂.presented.trans h₁.presented
  loggedIn := h₂.loggedIn.trans h₁.loggedIn
  beats := h₂.beats.trans h₁.beats

theorem SameTcp.report {s t : Server} (h : SameTcp s t) : SameTcp s (udpReport t) := by
  obtain ⟨acted, hEq⟩ := udpReport_cases t
  rw [hEq]
  exact h.trans ⟨fun _ _ => Iff.rfl, rfl, rfl, rfl, rfl, rfl⟩

theorem sameTcp_arrive {s t : Server} {fd : Fd} {addr : SockaddrIn} {bytes : Bytes}
    (h : arrive s fd addr bytes = some t) : SameTcp s t := by
  obtain ⟨peer, queue, hSock, _, rfl⟩ := arrive_cases h
  refine sameTcp_update fd _ ?_ ?_ rfl rfl rfl rfl rfl rfl
  · intro conn
    rw [hSock]
    simp
  · simp

theorem sameTcp_requestRead {cfg : Config} {s : Server} {client : SockaddrIn} {bytes : Bytes}
    {rest : List (SockaddrIn × Bytes)} (hSock : s.socks cfg.udpServerListen = some (.udp none ((client, bytes) :: rest))) :
    SameTcp s (requestRead cfg s rest) := by
  refine sameTcp_update cfg.udpServerListen _ ?_ ?_ rfl rfl rfl rfl rfl rfl
  · intro conn
    rw [hSock]
    simp
  · simp

theorem sameTcp_acceptUdpBind {cfg : Config} {s t : Server} {sockfd : Option Fd}
    (h : acceptUdpBind cfg s sockfd = some t) : SameTcp s t := by
  obtain ⟨client, bytes, rest, hSock, ⟨_, rfl⟩ | ⟨fd, _, _, hFree, rfl⟩⟩ := acceptUdpBind_cases h
  · exact (sameTcp_requestRead hSock).trans ⟨fun _ _ => Iff.rfl, rfl, rfl, rfl, rfl, rfl⟩
  · refine (sameTcp_requestRead hSock).trans (sameTcp_update fd _ ?_ ?_ rfl rfl rfl rfl rfl rfl)
    · intro conn hConn
      cases hFree.symm.trans hConn
    · simp

theorem sameTcp_acceptUdpConnect {s t : Server} {connected added : Bool}
    (h : acceptUdpConnect s connected added = some t) : SameTcp s t := by
  obtain ⟨fd, client, socks, _, rfl, ⟨rfl, _⟩ | ⟨queue, hSock, rfl⟩⟩ := acceptUdpConnect_cases h
  · exact ⟨fun _ _ => Iff.rfl, rfl, rfl, rfl, rfl, rfl⟩
  · refine sameTcp_update fd _ ?_ ?_ rfl rfl rfl rfl rfl rfl
    · intro conn
      rw [hSock]
      simp
    · simp

theorem sameTcp_udpRecv {s t : Server} {fd : Fd} (h : udpRecv s fd = some t) : SameTcp s t := by
  obtain ⟨peer, addr, bytes, rest, hSock, rfl⟩ := udpRecv_cases h
  apply SameTcp.report
  refine sameTcp_update fd _ ?_ ?_ rfl rfl rfl rfl rfl rfl
  · intro conn
    rw [hSock]
    simp
  · simp

theorem sameTcp_udpRecvStream {s t : Server} {fd : Fd} {r : Recv}
    (h : udpRecvStream s fd r = some t) : SameTcp s t := by
  obtain ⟨conn, _, rfl⟩ := udpRecvStream_cases h
  apply SameTcp.report
  exact ⟨fun _ _ => Iff.rfl, rfl, rfl, rfl, rfl, rfl⟩

theorem sameTcp_udpRecvError (s : Server) (fd : Fd) : SameTcp s (udpRecvError s fd) := by
  apply SameTcp.report
  exact ⟨fun _ _ => Iff.rfl, rfl, rfl, rfl, rfl, rfl⟩

theorem Inv.not_mem_of_free {s : Server} (h : Inv s) {fd : Fd} (hFree : s.socks fd = none) :
    fd ∉ s.clients := by
  intro hMem
  obtain ⟨conn, hSock, _⟩ := (h.keys fd).mp hMem
  rw [hFree] at hSock
  cases hSock

theorem Inv.turnedAway {s : Server} (h : Inv s) {fd : Fd} (hFree : s.socks fd = none) (token : Bytes) :
    Inv { s with
      socks := Function.update s.socks fd none
      epollfd := Function.update s.epollfd fd false
      udpEpollfd := Function.update s.udpEpollfd fd false
      presented := s.presented ++ [token] } := by
  have hSocks : Function.update s.socks fd none = s.socks := by
    rw [← hFree, Function.update_eq_self]
  have hEpoll : Function.update s.epollfd fd false = s.epollfd := by
    rw [Function.update_eq_self_iff, Eq.comm, Bool.eq_false_iff]
    intro hReg
    exact h.not_mem_of_free hFree (h.registered fd hReg)
  rw [hSocks, hEpoll]
  refine { h with fresh := ?_ }
  intro fd' conn hSock
  rw [List.length_append]
  exact Nat.lt_add_right _ (h.fresh fd' conn hSock)

theorem Inv.loggedIn {s : Server} (h : Inv s) {fd : Fd} (hFree : s.socks fd = none)
    (client : SockaddrIn) (token : Bytes) :
    Inv { s with
      socks := Function.update s.socks fd (some (.tcp s.presented.length))
      clients := s.clients.insert fd ⟨8, client, s.presented.length⟩
      epollfd := Function.update s.epollfd fd true
      presented := s.presented ++ [token]
      loggedIn := s.loggedIn ++ [s.presented.length] } where
  keys fd' := by
    rw [AList.mem_insert]
    obtain rfl | hNe := eq_or_ne fd' fd
    · simp
    · simp only [Function.update_of_ne hNe, List.mem_append, List.mem_singleton, hNe, false_or,
        h.keys fd']
      constructor
      · rintro ⟨conn, hSock, hIn, hReg⟩
        exact ⟨conn, hSock, .inl hIn, hReg⟩
      · rintro ⟨conn, hSock, hIn, hReg⟩
        exact ⟨conn, hSock, hIn.resolve_right (h.fresh fd' conn hSock).ne, hReg⟩
  own fd' record hLookup := by
    obtain ⟨rfl, rfl⟩ | ⟨hNe, hOld⟩ := lookup_insert_cases hLookup
    · exact Function.update_self ..
    · exact (Function.update_of_ne hNe _ _).trans (h.own fd' record hOld)
  beats := h.beats
  fresh fd' conn hSock := by
    rw [List.length_append, List.length_singleton]
    obtain rfl | hNe := eq_or_ne fd' fd
    · simp only [Function.update_self, Option.some.injEq, Sock.tcp.injEq] at hSock
      omega
    · simp only [Function.update_of_ne hNe] at hSock
      have hLt := h.fresh fd' conn hSock
      omega
  registered fd' hReg := by
    rw [AList.mem_insert]
    obtain rfl | hNe := eq_or_ne fd' fd
    · exact .inl rfl
    · simp only [Function.update_of_ne hNe] at hReg
      exact .inr (h.registered fd' hReg)

theorem Inv.refresh {s : Server} (h : Inv s) {fd : Fd} {client : ClientDs}
    (hLookup : s.clients.lookup fd = some client) (isonline : Int) {clients : AList fun _ : Fd => ClientDs}
    (hClients : clients = s.clients.insert fd { client with isonline := isonline }) :
    Inv { s with clients := clients } := by
  have hMem : ∀ fd', fd' ∈ clients ↔ fd' ∈ s.clients := by
    intro fd'
    rw [hClients, AList.mem_insert]
    constructor
    · rintro (rfl | hMem)
      · exact AList.lookup_isSome.mp (by rw [hLookup]; rfl)
      · exact hMem
    · exact .inr
  refine { h with keys := ?_, own := ?_, registered := ?_ }
  · intro fd'
    rw [hMem]
    exact h.keys fd'
  · intro fd' record hRecord
    rw [hClients] at hRecord
    obtain ⟨rfl, rfl⟩ | ⟨_, hOld⟩ := lookup_insert_cases hRecord
    · exact h.own fd' client hLookup
    · exact h.own fd' record hOld
  · intro fd' hReg
    exact (hMem fd').mpr (h.registered fd' hReg)

theorem Inv.step_login {cfg : Config} {s : Server} (h : Inv s) {fd : Fd} (hFree : s.socks fd = none)
    (client : SockaddrIn) (ready : Bool) (r : Recv) (sent : Bool) :
    Inv (doLogin cfg s fd client ready r sent true) := by
  obtain hEq | ⟨_, hEq⟩ := doLogin_cases cfg s fd client ready r sent true
  · rw [hEq]
    exact h.turnedAway hFree _
  · rw [hEq]
    exact h.loggedIn hFree client _

theorem Inv.step_readable {s : Server} (h : Inv s) (fd : Fd) {r : Recv} (hRecv : r.failed = false) :
    Inv (doDispatch s fd r) := by
  have hRead : messageRead s fd r = { s with msg := recvInto s.msg r, msgFrom := connOf (s.socks fd) } :=
    if_neg (by rw [hRecv]; decide)
  have hStored : Inv { s with msg := recvInto s.msg r, msgFrom := connOf (s.socks fd) } := { h with }
  obtain ⟨_, hEq⟩ | ⟨_, client, hLookup, hEq⟩ | ⟨_, hEq⟩ | ⟨_, hEq⟩ := doDispatch_cases s fd r hRead
  · rw [hEq]
    exact { h with }
  · rw [hEq]
    exact { hStored.refresh hLookup 5 rfl with }
  · rw [hEq]
    exact { h with }
  · rw [hEq]
    exact hStored

theorem Inv.evicted {s : Server} (h : Inv s) (fd : Fd) :
    Inv { s.close fd with clients := s.clients.erase fd } where
  keys fd' := by
    rw [AList.mem_erase, h.keys fd']
    obtain rfl | hNe := eq_or_ne fd' fd
    · simp [Server.close]
    · simp [Server.close, hNe]
  own fd' record hRecord := by
    obtain ⟨hNe, hOld⟩ := lookup_erase_some hRecord
    exact (Function.update_of_ne hNe _ _).trans (h.own fd' record hOld)
  beats := h.beats
  fresh fd' conn hSock := by
    obtain rfl | hNe := eq_or_ne fd' fd
    · simp [Server.close] at hSock
    · simp only [Server.close, Function.update_of_ne hNe] at hSock
      exact h.fresh fd' conn hSock
  registered fd' hReg := by
    rw [AList.mem_erase]
    obtain rfl | hNe := eq_or_ne fd' fd
    · simp [Server.close] at hReg
    · simp only [Server.close, Function.update_of_ne hNe] at hReg
      exact ⟨hNe, h.registered fd' hReg⟩

theorem Inv.heartBeatOne {s : Server} (h : Inv s) (fd : Fd) : Inv (heartBeatOne s fd) := by
  obtain hSame | ⟨client, hLookup, hCases⟩ := heartBeatOne_cases s fd
  · rw [hSame]
    exact h
  · have hSock := h.own fd client hLookup
    have hBeats : ∀ closed, ∀ b ∈ s.beats ++ [⟨s.socks fd, client.conn, closed⟩],
        b.target = some (.tcp b.conn) := by
      intro closed b hb
      obtain hb | hb := List.mem_append.mp hb
      · exact h.beats b hb
      · rw [List.mem_singleton.mp hb]
        exact hSock
    obtain ⟨_, hLast⟩ | ⟨_, hCounted⟩ := hCases
    · rw [hLast]
      exact { h.evicted fd with beats := hBeats true }
    · rw [hCounted]
      exact { h.refresh hLookup (client.isonline - 1) rfl with beats := hBeats false }

theorem inv_start {cfg : Config} {s : Server} (h : Initial cfg s) : Inv s where
  keys fd := by
    rw [h.clients, h.loggedIn]
    simp
  own fd client hLookup := by
    rw [h.clients] at hLookup
    cases hLookup
  beats b hb := by
    rw [h.beats] at hb
    cases hb
  fresh fd conn hSock := by
    obtain rfl | hNe := eq_or_ne fd cfg.udpServerListen
    · cases h.listener.symm.trans hSock
    · obtain hNone | hProcess := h.others fd hNe
      · cases hNone.symm.trans hSock
      · cases hProcess.symm.trans hSock
  registered fd hReg := by
    cases (h.epollfd fd).symm.trans hReg

theorem inv_step {cfg : Config} {s t : Server} {e : Event} (h : Inv s) (hClean : Clean s e)
    (hStep : step cfg s e = some t) : Inv t := by
  rw [ServerFunc.step] at hStep
  split at hStep
  · cases hStep
  cases e with
  | login fd client ready r sent added =>
    obtain ⟨hEnabled, hEq⟩ := Option.ite_none_right_eq_some.mp hStep
    cases hEq
    rw [show added = true from hClean]
    exact h.step_login hEnabled.1 client ready r sent
  | readable fd r =>
    obtain ⟨_, hEq⟩ := Option.ite_none_right_eq_some.mp hStep
    cases hEq
    exact h.step_readable fd hClean
  | tick =>
    cases hStep
    exact heartBeat_invariant (fun s fd h => h.heartBeatOne fd) h
  | datagram fd addr bytes => exact h.congr (sameTcp_arrive hStep)
  | udpLogin sockfd =>
    obtain ⟨_, hBind⟩ := Option.ite_none_right_eq_some.mp hStep
    exact h.congr (sameTcp_acceptUdpBind hBind)
  | udpConnect connected added => exact h.congr (sameTcp_acceptUdpConnect hStep)
  | udpReadable fd =>
    obtain ⟨_, hRecv⟩ := Option.ite_none_right_eq_some.mp hStep
    exact h.congr (sameTcp_udpRecv hRecv)
  | udpStream fd r =>
    obtain ⟨_, hRecv⟩ := Option.ite_none_right_eq_some.mp hStep
    exact h.congr (sameTcp_udpRecvStream hRecv)
  | udpError fd =>
    obtain ⟨_, hEq⟩ := Option.ite_none_right_eq_some.mp hStep
    cases hEq
    exact h.congr (sameTcp_udpRecvError s fd)

/-- As long as do_dispatch closes no connection, the table and the connections agree. -/
theorem consistent_of_clean {cfg : Config} {s : Server} (h : ReachableUnder (system cfg) Clean s) :
    Consistent s := by
  have hInv : Inv s := ReachableUnder.invariant (fun s => inv_start) (fun s e t => inv_step) h
  exact hInv.toConsistent

def client : SockaddrIn := ⟨1, 40000⟩

def reused : List Event :=
  [.login 5 client true (.data (lit "token")) true true, .readable 5 .eof,
    .datagram 3 urgent (List.replicate 20 0), .udpLogin (some 5), .udpConnect true true] ++
  List.replicate 8 .tick

theorem socket_of_another_closed : ¬ ∀ (cfg : Config) (s : Server),
    Reachable (system cfg) s → Consistent s := by
  intro hAll
  have hRun : ((system config).run (justStarted config) reused).map (fun s => s.beats.getLast?) =
      some (some ⟨some (.udp (some urgent) []), 0, true⟩) := by decide
  obtain ⟨s, hReach, hLast⟩ := Reachable.of_observed (initial_justStarted config) hRun
  have hBeat := (hAll config s hReach).beats _ (List.mem_of_getLast? hLast)
  cases hBeat

theorem consistent_one_client : ∃ s : Server,
    s.beats = [⟨some (.tcp 0), 0, false⟩] ∧ Consistent s := by
  have hRun : ((system config).run (justStarted config)
      [.login 5 client true (.data (lit "token")) true true, .tick]).map Server.beats =
      some [⟨some (.tcp 0), 0, false⟩] := by decide
  have hMeets : (system config).Meets Clean (justStarted config)
      [.login 5 client true (.data (lit "token")) true true, .tick] :=
    .cons rfl rfl (.cons trivial rfl trivial)
  obtain ⟨s, hReach, hBeats⟩ := ReachableUnder.of_observed (initial_justStarted config) hMeets hRun
  exact ⟨s, hBeats, consistent_of_clean hReach⟩

end MonitorSystem.Registry
