import MonitorSystem.ServerFunc

/-! # One entry of the client table for an address

do_login takes its turn in steps of its own; the other loops and the signal
handler run between them and may close the descriptor it works on.
-/

namespace MonitorSystem.CheckOnline

open Msg Dispatch ServerFunc Lib.CString Lib.Transition

/-- Where do_login is in the turn of an accepted connection. -/
inductive Turn
  | waiting
  | accepted (sockfd : Fd) (client : SockaddrIn) (conn : Nat)
  | received (sockfd : Fd) (client : SockaddrIn) (conn : Nat) (token_tmp : Bytes)
  | checked (sockfd : Fd) (client : SockaddrIn) (conn : Nat) (token_tmp : Bytes) (ack : Nat)
  | admitted (sockfd : Fd) (client : SockaddrIn) (conn : Nat)
  | inserted (sockfd : Fd)
deriving DecidableEq

structure State where
  server : Server
  turn : Turn

inductive Act
  | accept (sockfd : Fd) (client : SockaddrIn)
  | token (ready : Bool) (r : Recv)
  | check
  | reply (sent : Bool)
  | insert
  | addToReactor (added : Bool)
  | other (e : Event)

def accept (s : Server) (sockfd : Fd) (client : SockaddrIn) : State where
  server := { s with
    socks := Function.update s.socks sockfd (some (.tcp s.presented.length))
    presented := s.presented ++ [[]] }
  turn := .accepted sockfd client s.presented.length

def turnStep (cfg : Config) (s : Server) : Turn → Act → Option State
  | .waiting, .accept sockfd client => if s.socks sockfd = none then some (accept s sockfd client) else none
  | .accepted sockfd client conn, .token ready r =>
    let t := { s with presented := s.presented.set conn (tokenTmp r) }
    if r.within 100 = false then none
    else if ready = false ∨ r.failed = true then some ⟨t.close sockfd, .waiting⟩
    else some ⟨t, .received sockfd client conn (tokenTmp r)⟩
  | .received sockfd client conn token_tmp, .check =>
    some ⟨s, .checked sockfd client conn token_tmp (if checkOnline s.clients client then 0 else 1)⟩
  | .checked sockfd client conn token_tmp ack, .reply sent =>
    if sent = false ∨ ack = 0 ∨ token_tmp ≠ cfg.token.text then some ⟨s.close sockfd, .waiting⟩
    else some ⟨s, .admitted sockfd client conn⟩
  | .admitted sockfd client conn, .insert =>
    some ⟨{ s with
      clients := s.clients.insert sockfd ⟨8, client, conn⟩
      loggedIn := s.loggedIn ++ [conn] }, .inserted sockfd⟩
  | .inserted sockfd, .addToReactor added =>
    some ⟨{ s with
      epollfd := if added = true ∧ s.socks sockfd ≠ none then Function.update s.epollfd sockfd true
        else s.epollfd }, .waiting⟩
  | _, _ => none

def otherStep (cfg : Config) (s : Server) : Event → Option Server
  | .login _ _ _ _ _ _ => none
  | e => handle cfg s e

def step (cfg : Config) (s : State) (a : Act) : Option State :=
  if s.server.stopped then none
  else match a with
    | .other e => (otherStep cfg s.server e).map fun t => ⟨t, s.turn⟩
    | a => turnStep cfg s.server s.turn a

def system (cfg : Config) : System State Act where
  start s := Initial cfg s.server ∧ s.turn = .waiting
  step := step cfg

def Unique (clients : AList fun _ : Fd => ClientDs) : Prop :=
  ∀ fd fd' c c', clients.lookup fd = some c → clients.lookup fd' = some c' →
    c.addr.sinAddr = c'.addr.sinAddr → fd = fd'

def TurnedAway (s : State) : Prop :=
  match s.turn with
  | .accepted _ client _ | .received _ client _ _ => checkOnline s.server.clients client = true
  | .checked _ _ _ _ ack => ack = 0
  | _ => False

def Unchanged (s t : State) : Prop := t.server.clients = s.server.clients ∧ t.server.epollfd = s.server.epollfd

/-- No address has two entries, and an attempt from an address in the table
leaves table and reactor as they are, from its accept to the end of its turn. -/
structure OneEntry (cfg : Config) (s : State) : Prop where
  unique : Unique s.server.clients
  begins : ∀ sockfd client t, checkOnline s.server.clients client = true →
    step cfg s (.accept sockfd client) = some t → Unchanged s t ∧ TurnedAway t
  goesOn : ∀ a t, TurnedAway s → turnStep cfg s.server s.turn a = some t →
    Unchanged s t ∧ (t.turn = .waiting ∨ TurnedAway t)

def Turn.sockfd : Turn → Option Fd
  | .waiting => none
  | .accepted sockfd _ _ | .received sockfd _ _ _ | .checked sockfd _ _ _ _ | .admitted sockfd _ _
  | .inserted sockfd => some sockfd

/-- The address that check_online has not found. -/
def Turn.cleared : Turn → Option SockaddrIn
  | .checked _ client _ _ ack => if ack = 0 then none else some client
  | .admitted _ client _ => some client
  | _ => none

def Absent (clients : AList fun _ : Fd => ClientDs) (addr : SockaddrIn) : Prop :=
  ∀ fd c, clients.lookup fd = some c → c.addr.sinAddr ≠ addr.sinAddr

structure Inv (s : State) : Prop where
  unique : Unique s.server.clients
  opened : ∀ fd, s.server.epollfd fd = true → s.server.socks fd ≠ none
  pending : ∀ fd ∈ s.turn.sockfd, s.server.epollfd fd = false
  absent : ∀ client ∈ s.turn.cleared, Absent s.server.clients client

/-- What the events of the other threads can do to the table and the reactor. -/
structure Frame (s t : Server) : Prop where
  addrs : ∀ fd c, t.clients.lookup fd = some c → ∃ c', s.clients.lookup fd = some c' ∧ c'.addr = c.addr
  epollfd : ∀ fd, t.epollfd fd = true → s.epollfd fd = true
  socks : ∀ fd, t.epollfd fd = true → s.socks fd ≠ none → t.socks fd ≠ none

theorem Frame.refl (s : Server) : Frame s s where
  addrs _ c h := ⟨c, h, rfl⟩
  epollfd _ h := h
  socks _ _ h := h

theorem Frame.trans {s t u : Server} (h₁ : Frame s t) (h₂ : Frame t u) : Frame s u where
  addrs := by
    intro fd c hu
    obtain ⟨c', ht, hAddr'⟩ := h₂.addrs fd c hu
    obtain ⟨c'', hs, hAddr''⟩ := h₁.addrs fd c' ht
    exact ⟨c'', hs, hAddr''.trans hAddr'⟩
  epollfd fd hu := h₁.epollfd fd (h₂.epollfd fd hu)
  socks fd hu hs := h₂.socks fd hu (h₁.socks fd (h₂.epollfd fd hu) hs)

theorem Frame.of_open {s t : Server} (hClients : t.clients = s.clients) (hEpoll : t.epollfd = s.epollfd)
    (hSocks : ∀ fd, s.socks fd ≠ none → t.socks fd ≠ none) : Frame s t where
  addrs _ c h := ⟨c, hClients ▸ h, rfl⟩
  epollfd _ h := hEpoll ▸ h
  socks fd _ h := hSocks fd h

theorem open_update {socks : Fd → Option Sock} (fd : Fd) (sock : Sock) :
    ∀ other, socks other ≠ none → Function.update socks fd (some sock) other ≠ none := by
  intro other hOpen
  rw [Function.update_apply]
  split
  · exact Option.some_ne_none sock
  · exact hOpen

theorem frame_close (s : Server) (fd : Fd) : Frame s (s.close fd) where
  addrs _ c h := ⟨c, h, rfl⟩
  epollfd := by
    intro other h
    obtain rfl | hNe := eq_or_ne other fd
    · simp [Server.close] at h
    · simpa [Server.close, hNe] using h
  socks := by
    intro other h hOpen
    obtain rfl | hNe := eq_or_ne other fd
    · simp [Server.close] at h
    · simpa [Server.close, hNe] using hOpen

theorem frame_refresh {s : Server} {fd : Fd} {client : ClientDs} (hLookup : s.clients.lookup fd = some client)
    (isonline : Int) : Frame s { s with clients := s.clients.insert fd { client with isonline := isonline } } where
  addrs := by
    intro other c h
    obtain ⟨rfl, rfl⟩ | ⟨_, hOld⟩ := lookup_insert_cases h
    · exact ⟨client, hLookup, rfl⟩
    · exact ⟨c, hOld, rfl⟩
  epollfd _ h := h
  socks _ _ h := h

theorem frame_erase (s : Server) (fd : Fd) : Frame s { s with clients := s.clients.erase fd } where
  addrs := by
    intro other c h
    exact ⟨c, (lookup_erase_some h).2, rfl⟩
  epollfd _ h := h
  socks _ _ h := h

theorem frame_messageRead (s : Server) (sockfd : Fd) (r : Recv) : Frame s (messageRead s sockfd r) := by
  rw [messageRead]
  split
  · have hStored : Frame s { s with msg := recvInto s.msg r } := .of_open rfl rfl fun _ h => h
    exact hStored.trans (frame_close _ sockfd)
  · exact .of_open rfl rfl fun _ h => h

theorem frame_doDispatch (s : Server) (sockfd : Fd) (r : Recv) : Frame s (doDispatch s sockfd r) := by
  apply (frame_messageRead s sockfd r).trans
  obtain ⟨_, hEq⟩ | ⟨_, client, hLookup, hEq⟩ | ⟨_, hEq⟩ | ⟨_, hEq⟩ := doDispatch_cases s sockfd r rfl
  · rw [hEq]
    exact .of_open rfl rfl fun _ h => h
  · rw [hEq]
    apply (frame_refresh hLookup 5).trans
    exact .of_open rfl rfl fun _ h => h
  · rw [hEq]
    exact .of_open rfl rfl fun _ h => h
  · rw [hEq]
    exact Frame.refl _

theorem frame_heartBeatOne (s : Server) (fd : Fd) : Frame s (heartBeatOne s fd) := by
  obtain hSame | ⟨client, hLookup, ⟨_, hLast⟩ | ⟨_, hCounted⟩⟩ := heartBeatOne_cases s fd
  · rw [hSame]
    exact Frame.refl s
  · rw [hLast]
    apply ((frame_close s fd).trans (frame_erase _ fd)).trans
    exact .of_open rfl rfl fun _ h => h
  · rw [hCounted]
    apply (frame_refresh hLookup (client.isonline - 1)).trans
    exact .of_open rfl rfl fun _ h => h

theorem frame_report {s t : Server} (h : Frame s t) : Frame s (udpReport t) := by
  obtain ⟨acted, hEq⟩ := udpReport_cases t
  rw [hEq]
  exact h.trans (.of_open rfl rfl fun _ h => h)

theorem frame_other {cfg : Config} {s t : Server} {e : Event} (h : otherStep cfg s e = some t) : Frame s t := by
  cases e with
  | login fd client ready r sent added => cases h
  | readable fd r =>
    obtain ⟨_, hEq⟩ := Option.ite_none_right_eq_some.mp h
    cases hEq
    exact frame_doDispatch s fd r
  | tick =>
    cases h
    apply @heartBeat_invariant (Frame s)
    · intro u fd hFrame
      exact hFrame.trans (frame_heartBeatOne u fd)
    · exact Frame.refl s
  | datagram fd addr bytes =>
    obtain ⟨peer, queue, _, _, rfl⟩ := arrive_cases h
    exact .of_open rfl rfl (open_update fd _)
  | udpLogin sockfd =>
    obtain ⟨_, hBind⟩ := Option.ite_none_right_eq_some.mp h
    obtain ⟨client, bytes, rest, _, ⟨_, rfl⟩ | ⟨fd, _, _, _, rfl⟩⟩ := acceptUdpBind_cases hBind
    · exact .of_open rfl rfl (open_update _ _)
    · refine .of_open rfl rfl ?_
      intro other hOpen
      exact open_update _ _ other (open_update _ _ other hOpen)
  | udpConnect connected added =>
    obtain ⟨fd, client, socks, _, rfl, ⟨rfl, _⟩ | ⟨queue, _, rfl⟩⟩ := acceptUdpConnect_cases h
    · exact .of_open rfl rfl fun _ h => h
    · exact .of_open rfl rfl (open_update fd _)
  | udpReadable fd =>
    obtain ⟨_, hRecv⟩ := Option.ite_none_right_eq_some.mp h
    obtain ⟨peer, addr, bytes, rest, _, rfl⟩ := udpRecv_cases hRecv
    apply frame_report
    exact .of_open rfl rfl (open_update fd _)
  | udpStream fd r =>
    obtain ⟨_, hRecv⟩ := Option.ite_none_right_eq_some.mp h
    obtain ⟨conn, _, rfl⟩ := udpRecvStream_cases hRecv
    apply frame_report
    exact .of_open rfl rfl fun _ h => h
  | udpError fd =>
    obtain ⟨_, hEq⟩ := Option.ite_none_right_eq_some.mp h
    cases hEq
    apply frame_report
    exact .of_open rfl rfl fun _ h => h

theorem Inv.frame {s : State} {t : Server} (h : Inv s) (hFrame : Frame s.server t) : Inv ⟨t, s.turn⟩ where
  unique := by
    intro fd fd' c c' hc hc' hSame
    obtain ⟨d, hd, hAddr⟩ := hFrame.addrs fd c hc
    obtain ⟨d', hd', hAddr'⟩ := hFrame.addrs fd' c' hc'
    apply h.unique fd fd' d d' hd hd'
    rw [hAddr, hAddr', hSame]
  opened := by
    intro fd hReg
    exact hFrame.socks fd hReg (h.opened fd (hFrame.epollfd fd hReg))
  pending := by
    intro fd hfd
    rw [Bool.eq_false_iff]
    intro hReg
    cases (h.pending fd hfd).symm.trans (hFrame.epollfd fd hReg)
  absent := by
    intro client hClient fd c hc
    obtain ⟨d, hd, hAddr⟩ := hFrame.addrs fd c hc
    rw [← hAddr]
    exact h.absent client hClient fd d hd

theorem Inv.rest {s : Server} {turn : Turn} (h : Inv ⟨s, turn⟩) : Inv ⟨s, .waiting⟩ where
  unique := h.unique
  opened := h.opened
  pending fd hfd := by cases hfd
  absent client hClient := by cases hClient

theorem Inv.accept {s : Server} (h : Inv ⟨s, .waiting⟩) {sockfd : Fd} (hFree : s.socks sockfd = none)
    (client : SockaddrIn) : Inv (accept s sockfd client) where
  unique := h.unique
  opened := by
    intro fd hReg
    exact open_update sockfd _ fd (h.opened fd hReg)
  pending := by
    intro fd hfd
    cases hfd
    rw [Bool.eq_false_iff]
    intro hReg
    exact h.opened sockfd hReg hFree
  absent client hClient := by cases hClient

theorem absent_of_checkOnline {clients : AList fun _ : Fd => ClientDs} {addr : SockaddrIn}
    (h : checkOnline clients addr = false) : Absent clients addr := by
  intro fd c hc hSame
  rw [checkOnline, List.any_eq_false] at h
  exact h ⟨fd, c⟩ (AList.mem_lookup_iff.mp hc) (decide_eq_true hSame)

theorem Unique.insert {clients : AList fun _ : Fd => ClientDs} (h : Unique clients) {client : ClientDs}
    (hAbsent : Absent clients client.addr) (sockfd : Fd) : Unique (clients.insert sockfd client) := by
  intro fd fd' c c' hc hc' hSame
  obtain ⟨rfl, rfl⟩ | ⟨_, hOld⟩ := lookup_insert_cases hc
  · obtain ⟨rfl, _⟩ | ⟨_, hOld'⟩ := lookup_insert_cases hc'
    · rfl
    · exact absurd hSame.symm (hAbsent fd' c' hOld')
  · obtain ⟨rfl, rfl⟩ | ⟨_, hOld'⟩ := lookup_insert_cases hc'
    · exact absurd hSame (hAbsent fd c hOld)
    · exact h fd fd' c c' hOld hOld' hSame

theorem Inv.insert {s : Server} {sockfd : Fd} {client : SockaddrIn} {conn : Nat}
    (h : Inv ⟨s, .admitted sockfd client conn⟩) :
    Inv ⟨{ s with
      clients := s.clients.insert sockfd ⟨8, client, conn⟩
      loggedIn := s.loggedIn ++ [conn] }, .inserted sockfd⟩ where
  unique := h.unique.insert (h.absent client rfl) sockfd
  opened := h.opened
  pending := h.pending
  absent client hClient := by cases hClient

theorem Inv.addToReactor {s : Server} {sockfd : Fd} (h : Inv ⟨s, .inserted sockfd⟩) (added : Bool) :
    Inv ⟨{ s with
      epollfd := if added = true ∧ s.socks sockfd ≠ none then Function.update s.epollfd sockfd true
        else s.epollfd }, .waiting⟩ where
  unique := h.unique
  opened := by
    intro fd hReg
    dsimp only at hReg
    split at hReg
    · rename_i hAdded
      obtain rfl | hNe := eq_or_ne fd sockfd
      · exact hAdded.2
      · rw [Function.update_of_ne hNe] at hReg
        exact h.opened fd hReg
    · exact h.opened fd hReg
  pending fd hfd := by cases hfd
  absent client hClient := by cases hClient

theorem inv_turnStep {cfg : Config} {s t : State} {a : Act} (h : Inv s)
    (hStep : turnStep cfg s.server s.turn a = some t) : Inv t := by
  obtain ⟨s, turn⟩ := s
  unfold turnStep at hStep
  dsimp only at hStep
  split at hStep
  · obtain ⟨hFree, hEq⟩ := Option.ite_none_right_eq_some.mp hStep
    cases hEq
    exact h.accept hFree _
  · rename_i sockfd client conn ready r
    obtain ⟨_, hRest⟩ := Option.ite_none_left_eq_some.mp hStep
    have hKept : Inv ⟨{ s with presented := s.presented.set conn (tokenTmp r) }, .accepted sockfd client conn⟩ :=
      ⟨h.unique, h.opened, h.pending, h.absent⟩
    split at hRest
    · cases hRest
      exact (hKept.frame (frame_close _ sockfd)).rest
    · cases hRest
      exact ⟨h.unique, h.opened, h.pending, fun client hClient => by cases hClient⟩
  · rename_i sockfd client conn token_tmp
    cases hStep
    refine ⟨h.unique, h.opened, h.pending, ?_⟩
    intro addr hAddr
    cases hOnline : checkOnline s.clients client with
    | true => simp [hOnline, Turn.cleared] at hAddr
    | false =>
      simp [hOnline, Turn.cleared] at hAddr
      rw [← hAddr]
      exact absent_of_checkOnline hOnline
  · rename_i sockfd client conn token_tmp ack sent
    split at hStep
    · cases hStep
      exact (h.frame (frame_close _ sockfd)).rest
    · rename_i hPass
      cases hStep
      refine ⟨h.unique, h.opened, h.pending, ?_⟩
      intro addr hAddr
      apply h.absent addr
      rw [Turn.cleared, if_neg (fun hAck => hPass (.inr (.inl hAck)))]
      exact hAddr
  · cases hStep
    exact h.insert
  · cases hStep
    exact h.addToReactor _
  · cases hStep

theorem inv_step {cfg : Config} {s t : State} {a : Act} (h : Inv s) (hStep : step cfg s a = some t) : Inv t := by
  unfold step at hStep
  obtain ⟨_, hStep⟩ := Option.ite_none_left_eq_some.mp hStep
  cases a with
  | other e =>
    obtain ⟨u, hOther, rfl⟩ := Option.map_eq_some_iff.mp hStep
    exact h.frame (frame_other hOther)
  | accept | token | check | reply | insert | addToReactor => exact inv_turnStep h hStep

theorem inv_start {cfg : Config} {s : State} (h : Initial cfg s.server) (hTurn : s.turn = .waiting) : Inv s where
  unique := by
    intro fd fd' c c' hc
    rw [h.clients] at hc
    cases hc
  opened fd hReg := by cases (h.epollfd fd).symm.trans hReg
  pending fd hfd := by
    rw [hTurn] at hfd
    cases hfd
  absent client hClient := by
    rw [hTurn] at hClient
    cases hClient

theorem Inv.close_unchanged {s : State} (h : Inv s) {sockfd : Fd} (hTurn : s.turn.sockfd = some sockfd) :
    (s.server.close sockfd).clients = s.server.clients ∧ (s.server.close sockfd).epollfd = s.server.epollfd := by
  refine ⟨rfl, ?_⟩
  rw [Server.close, ← h.pending sockfd hTurn]
  exact Function.update_eq_self sockfd s.server.epollfd

theorem Inv.goesOn {cfg : Config} {s t : State} {a : Act} (h : Inv s) (hAway : TurnedAway s)
    (hStep : turnStep cfg s.server s.turn a = some t) : Unchanged s t ∧ (t.turn = .waiting ∨ TurnedAway t) := by
  obtain ⟨s, turn⟩ := s
  unfold turnStep at hStep
  dsimp only at hStep
  split at hStep
  · cases hAway
  · rename_i sockfd client conn ready r
    obtain ⟨_, hRest⟩ := Option.ite_none_left_eq_some.mp hStep
    split at hRest
    · cases hRest
      exact ⟨h.close_unchanged rfl, .inl rfl⟩
    · cases hRest
      exact ⟨⟨rfl, rfl⟩, .inr hAway⟩
  · cases hStep
    refine ⟨⟨rfl, rfl⟩, .inr ?_⟩
    exact if_pos hAway
  · rename_i sockfd client conn token_tmp ack sent
    rw [if_pos (.inr (.inl hAway))] at hStep
    cases hStep
    exact ⟨h.close_unchanged rfl, .inl rfl⟩
  · cases hAway
  · cases hAway
  · cases hStep

theorem oneEntry_of_reachable {cfg : Config} {s : State} (h : Reachable (system cfg) s) : OneEntry cfg s := by
  have hInv : Inv s := by
    apply h.invariant
    · rintro s ⟨hServer, hTurn⟩
      exact inv_start hServer hTurn
    · intro s a t hInv hStep
      exact inv_step hInv hStep
  constructor
  · exact hInv.unique
  · intro sockfd client t hOnline hStep
    unfold step at hStep
    obtain ⟨_, hAccept⟩ := Option.ite_none_left_eq_some.mp hStep
    dsimp only at hAccept
    cases hTurn : s.turn with
    | waiting =>
      rw [hTurn] at hAccept
      obtain ⟨_, hEq⟩ := Option.ite_none_right_eq_some.mp hAccept
      cases hEq
      exact ⟨⟨rfl, rfl⟩, hOnline⟩
    | _ =>
      rw [hTurn] at hAccept
      cases hAccept
  · intro a t hAway hStep
    exact hInv.goesOn hAway hStep

theorem run_turn {cfg : Config} {s : Server} {turn : Turn} {a : Act} (hRuns : s.stopped = false)
    (hTurn : ∀ e, a ≠ .other e) (rest : List Act) :
    (system cfg).run ⟨s, turn⟩ (a :: rest) = (turnStep cfg s turn a).bind fun t => (system cfg).run t rest := by
  have hStep : (system cfg).step ⟨s, turn⟩ a = turnStep cfg s turn a := by
    unfold system step
    cases a with
    | other e => exact absurd rfl (hTurn e)
    | _ => exact if_neg (Bool.eq_false_iff.mp hRuns)
  rw [run_cons, hStep]

theorem run_token {cfg : Config} {s : Server} {sockfd : Fd} {ready : Bool} {r : Recv} (hRuns : s.stopped = false)
    (hFree : s.socks sockfd = none) (hRecv : r.within 100 = true) (client : SockaddrIn) (rest : List Act) :
    (system cfg).run ⟨s, .waiting⟩ (.accept sockfd client :: .token ready r :: rest) =
      (system cfg).run (if ready = false ∨ r.failed = true then ⟨(tokenRead s sockfd r).close sockfd, .waiting⟩
        else ⟨tokenRead s sockfd r, .received sockfd client s.presented.length (tokenTmp r)⟩) rest := by
  have hStored : { (accept s sockfd client).server with
      presented := (accept s sockfd client).server.presented.set s.presented.length (tokenTmp r) } =
      tokenRead s sockfd r := by simp [accept, tokenRead]
  have hOpen : (accept s sockfd client).server.stopped = false := hRuns
  rw [run_turn hRuns (by simp), turnStep, if_pos hFree, Option.bind_some]
  apply (run_turn hOpen (by simp) rest).trans
  rw [turnStep, if_neg (by simp [hRecv]), hStored]
  split
  · rfl
  · rfl

theorem run_reply {cfg : Config} {s : Server} {sockfd : Fd} {client : SockaddrIn} {conn : Nat} {token_tmp : Bytes}
    (hRuns : s.stopped = false) (sent : Bool) (rest : List Act) :
    (system cfg).run ⟨s, .received sockfd client conn token_tmp⟩ (.check :: .reply sent :: rest) =
      (system cfg).run (if sent = false ∨ checkOnline s.clients client = true ∨ token_tmp ≠ cfg.token.text then
        ⟨s.close sockfd, .waiting⟩ else ⟨s, .admitted sockfd client conn⟩) rest := by
  rw [run_turn hRuns (by simp), turnStep]
  apply (run_turn hRuns (by simp) rest).trans
  have hAck : (if checkOnline s.clients client then 0 else 1) = 0 ↔ checkOnline s.clients client = true := by simp
  rw [turnStep]
  simp only [hAck]
  split
  · rfl
  · rfl

theorem run_insert {cfg : Config} {s : Server} {sockfd : Fd} {client : SockaddrIn} {conn : Nat}
    (hRuns : s.stopped = false) (added : Bool) :
    (system cfg).run ⟨s, .admitted sockfd client conn⟩ [.insert, .addToReactor added] =
      some ⟨{ s with
        clients := s.clients.insert sockfd ⟨8, client, conn⟩
        loggedIn := s.loggedIn ++ [conn]
        epollfd := if added = true ∧ s.socks sockfd ≠ none then Function.update s.epollfd sockfd true
          else s.epollfd }, .waiting⟩ := by
  have hInserted : Server.stopped { s with
      clients := s.clients.insert sockfd ⟨8, client, conn⟩
      loggedIn := s.loggedIn ++ [conn] } = false := hRuns
  rw [run_turn hRuns (by simp), turnStep, Option.bind_some]
  apply (run_turn hInserted (by simp) []).trans
  rw [turnStep]
  rfl

theorem doLogin_run {cfg : Config} {s : Server} {sockfd : Fd} {client : SockaddrIn} {ready : Bool} {r : Recv}
    {sent added : Bool} (hRuns : s.stopped = false) (hFree : s.socks sockfd = none)
    (hClosed : s.epollfd sockfd = false) (hRecv : r.within 100 = true) :
    ∃ turn : List Act, (∀ a ∈ turn, ∀ e, a ≠ .other e) ∧ (system cfg).run ⟨s, .waiting⟩ turn =
      some ⟨doLogin cfg s sockfd client ready r sent added, .waiting⟩ := by
  have hRead : (tokenRead s sockfd r).stopped = false := hRuns
  have hClients : (tokenRead s sockfd r).clients = s.clients := rfl
  rw [doLogin_eq]
  by_cases hToken : ready = false ∨ r.failed = true
  · refine ⟨[.accept sockfd client, .token ready r], by simp, ?_⟩
    rw [run_token hRuns hFree hRecv, if_pos hToken, if_pos hToken]
    rfl
  · rw [if_neg hToken]
    by_cases hAway : sent = false ∨ checkOnline s.clients client = true ∨ tokenTmp r ≠ cfg.token.text
    · refine ⟨[.accept sockfd client, .token ready r, .check, .reply sent], by simp, ?_⟩
      rw [run_token hRuns hFree hRecv, if_neg hToken, run_reply hRead, hClients, if_pos hAway, if_pos hAway]
      rfl
    · refine ⟨[.accept sockfd client, .token ready r, .check, .reply sent, .insert, .addToReactor added], by simp, ?_⟩
      have hAdded : (if added = true ∧ (tokenRead s sockfd r).socks sockfd ≠ none then
          Function.update s.epollfd sockfd true else s.epollfd) = Function.update s.epollfd sockfd added := by
        cases added with
        | true => simp [tokenRead]
        | false => simp [← hClosed]
      rw [run_token hRuns hFree hRecv, if_neg hToken, run_reply hRead, hClients, if_neg hAway,
        run_insert hRead, if_neg hAway, ← hAdded]
      rfl

def home : SockaddrIn := ⟨1, 40000⟩

def again : List Act :=
  [.accept 5 home, .token true (.data (lit "token")), .check, .reply true, .insert, .addToReactor true,
    .accept 6 ⟨1, 40001⟩, .token true (.data (lit "token")), .check]

theorem oneEntry_again : ∃ s : State, s.turn = .checked 6 ⟨1, 40001⟩ 1 (lit "token") 0 ∧ OneEntry config s := by
  have hRun : ((system config).run ⟨justStarted config, .waiting⟩ again).map State.turn =
      some (.checked 6 ⟨1, 40001⟩ 1 (lit "token") 0) := by rfl
  have hStart : (system config).start ⟨justStarted config, .waiting⟩ := ⟨initial_justStarted config, rfl⟩
  obtain ⟨s, hReachable, hTurn⟩ := Reachable.of_observed hStart hRun
  exact ⟨s, hTurn, oneEntry_of_reachable hReachable⟩

end MonitorSystem.CheckOnline
