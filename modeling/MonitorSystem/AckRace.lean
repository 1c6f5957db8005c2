import MonitorSystem.ClientTable
import MonitorSystem.Lifetime

/-! # Acknowledgements against the alarm

do_dispatch takes an event, receives, looks up clients[sockfd] and writes
through the pointer in separate steps; heart_beat, do_login and accept_udp run
between any two of them, so that a number of the batch may name another socket
by the time it is read. In the default build the trace line looks the client
up as well.
-/

namespace MonitorSystem.AckRace

open Msg Dispatch ServerFunc ClientTable Lib.CString Lib.Transition
open Lifetime (dispatchRecv dispatchClassify)

inductive Use
  | trace
  | store
deriving DecidableEq

/-- Where do_dispatch stands, with the rest of the fetched events. -/
inductive Phase
  | wait
  | loop (sockfd : Fd) (batch : List Fd)
  | failed (sockfd : Fd) (batch : List Fd)
  | lookup (use : Use) (sockfd : Fd) (batch : List Fd)
  | found (use : Use) (client : Option Nat) (sockfd : Fd) (batch : List Fd)

/-- One look-up: who sent the bytes that were taken for an ACK, and the record that was found. -/
structure Look where
  sender : Source
  record : Option Nat
deriving DecidableEq

/-- Where do_login is with the connection it has accepted. -/
inductive Login
  | waiting
  | accepted (sockfd : Fd) (client : SockaddrIn) (conn : Nat)
  | entered (sockfd : Fd)

structure State where
  store : Store
  accepted : Nat
  login : Login
  msg : Bytes
  msgFrom : Source
  phase : Phase
  looked : List Look

inductive Event
  | accept (sockfd : Fd) (client : SockaddrIn)
  | turnAway
  | enter
  | addToReactor (added : Bool)
  | acceptUdp (sockfd : Fd) (client : SockaddrIn)
  | tick
  | epollWait (batch : List Fd)
  | recv (r : Recv)
  | close
  | lookup
  | use

def maxEvents : Nat := 5

def next : List Fd → Phase
  | [] => .wait
  | sockfd :: batch => .loop sockfd batch

def firstUse (debug : Bool) : Use := if debug then .trace else .store

def classified (debug : Bool) (msg : Bytes) (sockfd : Fd) (batch : List Fd) : Phase :=
  match classify (ofStorage msg) with
  | .ack => .lookup (firstUse debug) sockfd batch
  | .push | .ignored => next batch

/-- Who writes to the socket. -/
def writer : Option Sock → Source
  | some (.tcp conn) => .conn conn
  | some (.udp (some addr) _) => .peer addr
  | _ => .memory

def receives : Option Sock → Bool
  | some (.tcp _) | some (.udp _ _) => true
  | none | some .process => false

def recv (debug : Bool) (s : State) (sockfd : Fd) (batch : List Fd) (r : Recv) : State :=
  if r.failed then { s with msg := recvInto s.msg r, phase := .failed sockfd batch }
  else { s with
    msg := recvInto s.msg r
    msgFrom := writer (s.store.socks sockfd)
    phase := classified debug (recvInto s.msg r) sockfd batch }

def close (debug : Bool) (s : State) (sockfd : Fd) (batch : List Fd) : State :=
  { s with
    store := s.store.close sockfd
    phase := classified debug s.msg sockfd batch }

def lookup (s : State) (use : Use) (sockfd : Fd) (batch : List Fd) : State :=
  let (store, client) := s.store.subscript sockfd
  { s with
    store := store
    phase := .found use client sockfd batch
    looked := s.looked ++ [⟨s.msgFrom, client.filter fun conn => (s.store.records conn).isSome⟩] }

def use (s : State) (use : Use) (client : Option Nat) (sockfd : Fd) (batch : List Fd) : State :=
  match client with
  | none => { s with store := s.store.broken }
  | some conn =>
    match s.store.records conn with
    | none => { s with store := s.store.broken }
    | some r =>
      match use with
      | .trace => { s with phase := .lookup .store sockfd batch }
      | .store => { s with store := s.store.setIsonline conn r 5, phase := next batch }

def handle (debug : Bool) (s : State) : Event → Option State
  | .accept sockfd client =>
    match s.login with
    | .waiting =>
      if s.store.socks sockfd = none then
        some { s with
          accepted := s.accepted + 1
          store := s.store.opened sockfd (.tcp s.accepted)
          login := .accepted sockfd client s.accepted }
      else none
    | _ => none
  | .turnAway =>
    match s.login with
    | .accepted sockfd _ _ => some { s with store := s.store.close sockfd, login := .waiting }
    | _ => none
  | .enter =>
    match s.login with
    | .accepted sockfd client conn => some { s with store := s.store.enter sockfd conn client, login := .entered sockfd }
    | _ => none
  | .addToReactor added =>
    match s.login with
    | .entered sockfd => some { s with store := s.store.addToReactor sockfd added, login := .waiting }
    | _ => none
  | .acceptUdp sockfd client =>
    if s.store.socks sockfd = none then some { s with store := s.store.opened sockfd (.udp (some client) []) }
    else none
  | .tick => some { s with store := tick s.store }
  | .epollWait batch =>
    match s.phase with
    | .wait =>
      if batch ≠ [] ∧ batch.Nodup ∧ batch.length ≤ maxEvents ∧ ∀ fd ∈ batch, s.store.epollfd fd = true then
        some { s with phase := next batch }
      else none
    | _ => none
  | .recv r =>
    match s.phase with
    | .loop sockfd batch =>
      if r.within sizeofMsg ∧ (receives (s.store.socks sockfd) = false → r = .error) then
        some (recv debug s sockfd batch r)
      else none
    | _ => none
  | .close =>
    match s.phase with
    | .failed sockfd batch => some (close debug s sockfd batch)
    | _ => none
  | .lookup =>
    match s.phase with
    | .lookup use sockfd batch => some (lookup s use sockfd batch)
    | _ => none
  | .use =>
    match s.phase with
    | .found u client sockfd batch => some (use s u client sockfd batch)
    | _ => none

def step (debug : Bool) (s : State) (e : Event) : Option State :=
  if s.store.fault then none else handle debug s e

structure Initial (s : State) : Prop where
  clients : s.store.clients = ∅
  records : ∀ conn, s.store.records conn = none
  socks : ∀ fd conn, s.store.socks fd ≠ some (.tcp conn)
  epollfd : ∀ fd, s.store.epollfd fd = false
  sent : s.store.sent = []
  evicted : s.store.evicted = []
  fault : s.store.fault = false
  accepted : s.accepted = 0
  login : s.login = .waiting
  msgFrom : s.msgFrom = .memory
  phase : s.phase = .wait
  looked : s.looked = []

def system (debug : Bool) : System State Event where
  start := Initial
  step := step debug

/-- The number names a connection that do_login has entered, or nothing that can be read. -/
def LetIn (s : State) (sockfd : Fd) : Prop :=
  ∀ sock, s.store.socks sockfd = some sock → receives (some sock) = true →
    ∃ conn, sock = .tcp conn ∧ ∀ client, s.login ≠ .accepted sockfd client conn

/-- The descriptor of a look-up that is still to be made. -/
def pending (s : State) : Option Fd :=
  match s.phase with
  | .failed sockfd _ => if classify (ofStorage s.msg) = .ack then some sockfd else none
  | .lookup _ sockfd _ | .found .trace _ sockfd _ => some sockfd
  | .wait | .loop _ _ | .found .store _ _ _ => none

def handling (s : State) : Bool :=
  match s.phase with
  | .failed _ _ => classify (ofStorage s.msg) = .ack
  | .lookup _ _ _ | .found _ _ _ _ => true
  | .wait | .loop _ _ => false

/-- The entry of the descriptor is the record of the client the message came from. -/
def Finds (s : State) (fd : Fd) : Prop :=
  ∃ conn, s.store.clients.lookup fd = some (some conn) ∧ (s.store.records conn).isSome = true ∧
    s.msgFrom = .conn conn

structure Ordered (s : State) : Prop extends Sound s.store where
  pending : ∀ fd, pending s = some fd → Finds s fd
  held : ∀ use client fd batch, s.phase = .found use client fd batch →
    ∃ conn, client = some conn ∧ (s.store.records conn).isSome = true ∧ s.msgFrom = .conn conn
  looked : ∀ l ∈ s.looked, ∃ conn, l.record = some conn ∧ l.sender = .conn conn

/-- No alarm removes the client whose ACK is being handled; no recv takes an ACK from a connection that is not entered
yet or from a datagram socket, or fails with another's ACK left in the message variable; and no login is entered under
the descriptor of such a look-up. -/
def Undisturbed (s : State) : Event → Prop
  | .enter => ∀ sockfd client conn, s.login = .accepted sockfd client conn → pending s ≠ some sockfd
  | .tick => handling s = true → ∀ fd conn r, s.store.clients.lookup fd = some (some conn) →
      s.store.records conn = some r → s.msgFrom = .conn conn → r.isonline ≠ 1
  | .recv r => ∀ sockfd batch, s.phase = .loop sockfd batch → classify (ofStorage (recvInto s.msg r)) = .ack →
      (r.failed = true → Finds s sockfd) ∧ (r.failed = false → LetIn s sockfd)
  | _ => True

/-- The connection of the login in progress is in no entry yet, and its number names nothing else that is one. -/
structure Inv (s : State) : Prop extends Ordered s where
  store : ClientTable.Inv s.store
  fresh : ∀ fd conn, s.store.clients.lookup fd = some (some conn) → conn < s.accepted
  evicted : ∀ conn ∈ s.store.evicted, conn < s.accepted
  sender : ∀ conn, s.msgFrom = .conn conn → conn < s.accepted
  named : ∀ fd conn, s.store.socks fd = some (.tcp conn) →
    s.store.clients.lookup fd = some (some conn) ∨ ∃ client, s.login = .accepted fd client conn
  login : ∀ sockfd client conn, s.login = .accepted sockfd client conn → conn < s.accepted ∧
    conn ∉ s.store.evicted ∧ (∀ fd, s.store.clients.lookup fd ≠ some (some conn)) ∧
    ∀ n, s.store.socks sockfd = some (.tcp n) → n = conn

theorem handling_of_pending {s : State} {fd : Fd} (h : pending s = some fd) : handling s = true := by
  rw [pending] at h
  rw [handling]
  cases hPhase : s.phase with
  | wait => simp [hPhase] at h
  | loop => simp [hPhase] at h
  | failed =>
    rw [hPhase] at h
    dsimp only at h
    split at h
    · rename_i hAck
      exact decide_eq_true hAck
    · cases h
  | lookup => rfl
  | found => rfl

theorem pending_next {s : State} {batch : List Fd} (h : s.phase = next batch) :
    pending s = none ∧ handling s = false := by
  cases batch with
  | nil => simp [pending, handling, h, next]
  | cons fd batch => simp [pending, handling, h, next]

theorem classified_cases (debug : Bool) (msg : Bytes) (sockfd : Fd) (batch : List Fd) :
    (classify (ofStorage msg) = .ack ∧
      classified debug msg sockfd batch = .lookup (firstUse debug) sockfd batch) ∨
    (classify (ofStorage msg) ≠ .ack ∧ classified debug msg sockfd batch = next batch) := by
  rw [classified]
  split
  · rename_i hAck
    exact .inl ⟨hAck, rfl⟩
  · rename_i hPush
    exact .inr ⟨by rw [hPush]; decide, rfl⟩
  · rename_i hIgnored
    exact .inr ⟨by rw [hIgnored]; decide, rfl⟩

theorem Ordered.idle {s : State} (hStore : Sound s.store) {batch : List Fd} (hPhase : s.phase = next batch)
    (hLooked : ∀ l ∈ s.looked, ∃ conn, l.record = some conn ∧ l.sender = .conn conn) : Ordered s where
  toSound := hStore
  pending fd hPending := by
    rw [(pending_next hPhase).1] at hPending
    cases hPending
  held use client fd batch' hFound := by
    rw [hPhase] at hFound
    cases batch with
    | nil => cases hFound
    | cons => cases hFound
  looked := hLooked

theorem Ordered.lookup {s : State} (hStore : Sound s.store) {u : Use} {sockfd : Fd} {batch : List Fd}
    (hPhase : s.phase = .lookup u sockfd batch) (hFinds : Finds s sockfd)
    (hLooked : ∀ l ∈ s.looked, ∃ conn, l.record = some conn ∧ l.sender = .conn conn) : Ordered s where
  toSound := hStore
  pending fd hPending := by
    rw [AckRace.pending, hPhase] at hPending
    cases hPending
    exact hFinds
  held use client fd batch' hFound := by
    rw [hPhase] at hFound
    cases hFound
  looked := hLooked

theorem Inv.unused {s : State} (h : Inv s) (fd : Fd) : s.store.clients.lookup fd ≠ some (some s.accepted) := by
  intro hLookup
  have hLt := h.fresh fd s.accepted hLookup
  omega

theorem Inv.accept {s : State} (h : Inv s) (hWaiting : s.login = .waiting) (sockfd : Fd) (client : SockaddrIn) :
    Inv { s with
      accepted := s.accepted + 1
      store := s.store.opened sockfd (.tcp s.accepted)
      login := .accepted sockfd client s.accepted } := by
  have hStore : ClientTable.Inv (s.store.opened sockfd (.tcp s.accepted)) := { h.store with }
  refine {
    toSound := hStore.toSound
    pending := h.pending
    held := h.held
    looked := h.looked
    store := hStore
    fresh := fun fd conn hLookup => Nat.lt_succ_of_lt (h.fresh fd conn hLookup)
    evicted := fun conn hMem => Nat.lt_succ_of_lt (h.evicted conn hMem)
    sender := fun conn hFrom => Nat.lt_succ_of_lt (h.sender conn hFrom)
    named := ?_
    login := ?_ }
  · intro fd conn hSock
    obtain ⟨rfl, hNew⟩ | ⟨_, hOld⟩ := update_cases hSock
    · cases hNew
      exact .inr ⟨client, rfl⟩
    · obtain hEntered | ⟨_, hLogin⟩ := h.named fd conn hOld
      · exact .inl hEntered
      · cases hWaiting.symm.trans hLogin
  · intro fd addr conn hLogin
    cases hLogin
    refine ⟨Nat.lt_succ_self _, fun hMem => absurd (h.evicted _ hMem) (Nat.lt_irrefl _), h.unused, ?_⟩
    intro n hSock
    cases (Function.update_self ..).symm.trans hSock
    rfl

theorem Inv.closed {s : State} (h : Inv s) (sockfd : Fd) {login : Login} (hLogin : login = s.login ∨ login = .waiting ∧
      ∀ fd client conn, s.login = .accepted fd client conn → fd = sockfd) :
    Inv { s with store := s.store.close sockfd, login := login } := by
  have hStore : ClientTable.Inv (s.store.close sockfd) := { h.store with }
  refine {
    toSound := hStore.toSound
    pending := h.pending
    held := h.held
    looked := h.looked
    store := hStore
    fresh := h.fresh
    evicted := h.evicted
    sender := h.sender
    named := ?_
    login := ?_ }
  · intro fd conn hSock
    obtain ⟨_, hNone⟩ | ⟨hNe, hOld⟩ := update_cases hSock
    · cases hNone
    · refine (h.named fd conn hOld).imp id ?_
      rintro ⟨client, hTurn⟩
      obtain rfl | ⟨_, hOwn⟩ := hLogin
      · exact ⟨client, hTurn⟩
      · exact absurd (hOwn fd client conn hTurn) hNe
  · intro fd client conn hTurn
    obtain rfl | ⟨rfl, _⟩ := hLogin
    · obtain ⟨hLt, hEvicted, hUnused, hNamed⟩ := h.login fd client conn hTurn
      refine ⟨hLt, hEvicted, hUnused, ?_⟩
      intro n hSock
      obtain ⟨_, hNone⟩ | ⟨_, hOld⟩ := update_cases hSock
      · cases hNone
      · exact hNamed n hOld
    · cases hTurn

theorem Inv.enter {s : State} (h : Inv s) {sockfd : Fd} {client : SockaddrIn} {conn : Nat}
    (hLogin : s.login = .accepted sockfd client conn) (hGuard : pending s ≠ some sockfd) :
    Inv { s with store := s.store.enter sockfd conn client, login := .entered sockfd } := by
  obtain ⟨hLt, hEvicted, hUnused, hNamed⟩ := h.login sockfd client conn hLogin
  have hStore := @ClientTable.Inv.enter s.store h.store sockfd conn client hUnused hEvicted
  refine {
    toSound := hStore.toSound
    pending := ?_
    held := ?_
    looked := h.looked
    store := hStore
    fresh := ?_
    evicted := h.evicted
    sender := h.sender
    named := ?_
    login := ?_ }
  · intro fd hPending
    obtain ⟨conn', hLookup, hLive, hFrom⟩ := h.pending fd hPending
    have hNe : fd ≠ sockfd := by
      rintro rfl
      exact hGuard hPending
    exact ⟨conn', (AList.lookup_insert_ne hNe).trans hLookup, isSome_enter hLive sockfd conn client, hFrom⟩
  · intro use found fd batch hPhase
    obtain ⟨conn', hEq, hLive, hFrom⟩ := h.held use found fd batch hPhase
    exact ⟨conn', hEq, isSome_enter hLive sockfd conn client, hFrom⟩
  · intro fd conn' hLookup
    obtain ⟨_, hEq⟩ | ⟨_, hOld⟩ := lookup_enter hLookup
    · cases hEq
      exact hLt
    · exact h.fresh fd conn' hOld
  · intro fd n hSock
    obtain rfl | hNe := eq_or_ne fd sockfd
    · rw [hNamed n hSock]
      exact .inl (AList.lookup_insert ..)
    · obtain hEntered | ⟨_, hOther⟩ := h.named fd n hSock
      · exact .inl ((AList.lookup_insert_ne hNe).trans hEntered)
      · cases hLogin.symm.trans hOther
        exact absurd rfl hNe
  · intro fd addr n hNone
    cases hNone

theorem Inv.addToReactor {s : State} (h : Inv s) {sockfd : Fd} (hLogin : s.login = .entered sockfd) (added : Bool) :
    Inv { s with store := s.store.addToReactor sockfd added, login := .waiting } := by
  have hStore : ClientTable.Inv (s.store.addToReactor sockfd added) := { h.store with }
  refine {
    toSound := hStore.toSound
    pending := h.pending
    held := h.held
    looked := h.looked
    store := hStore
    fresh := h.fresh
    evicted := h.evicted
    sender := h.sender
    named := ?_
    login := ?_ }
  · intro fd conn hSock
    refine (h.named fd conn hSock).imp id ?_
    rintro ⟨client, hOther⟩
    cases hLogin.symm.trans hOther
  · intro fd client conn hNone
    cases hNone

theorem Inv.acceptUdp {s : State} (h : Inv s) (sockfd : Fd) (client : SockaddrIn) :
    Inv { s with store := s.store.opened sockfd (.udp (some client) []) } := by
  have hStore : ClientTable.Inv (s.store.opened sockfd (.udp (some client) [])) := { h.store with }
  have hStream : ∀ fd conn, (s.store.opened sockfd (.udp (some client) [])).socks fd = some (.tcp conn) →
      s.store.socks fd = some (.tcp conn) := by
    intro fd conn hSock
    obtain ⟨_, hNew⟩ | ⟨_, hOld⟩ := update_cases hSock
    · cases hNew
    · exact hOld
  refine {
    toSound := hStore.toSound
    pending := h.pending
    held := h.held
    looked := h.looked
    store := hStore
    fresh := h.fresh
    evicted := h.evicted
    sender := h.sender
    named := fun fd conn hSock => h.named fd conn (hStream fd conn hSock)
    login := ?_ }
  intro fd addr conn hLogin
  obtain ⟨hLt, hEvicted, hUnused, hNamed⟩ := h.login fd addr conn hLogin
  exact ⟨hLt, hEvicted, hUnused, fun n hSock => hNamed n (hStream fd n hSock)⟩

theorem isSome_tick {s : Store} (h : ClientTable.Inv s) {conn : Nat} (hLive : (s.records conn).isSome = true)
    (hKept : ∀ fd r, s.clients.lookup fd = some (some conn) → s.records conn = some r → r.isonline ≠ 1) :
    ((tick s).records conn).isSome = true := by
  obtain ⟨r, hRecord⟩ := Option.isSome_iff_exists.mp hLive
  by_cases hListed : ∃ fd, s.clients.lookup fd = some (some conn)
  · obtain ⟨fd, hLookup⟩ := hListed
    have hEntry : Entry s fd conn r := { h with lookup := hLookup, record := hRecord }
    obtain ⟨r', hAfter⟩ := hEntry.tickKept (hKept fd r hLookup hRecord)
    rw [hAfter.record]
    rfl
  · have hUnlisted : Unlisted s conn (some r) := {
      h with lookup := fun fd hLookup => hListed ⟨fd, hLookup⟩, record := hRecord }
    rw [hUnlisted.tick.record]
    rfl

theorem Inv.tick {s : State} (h : Inv s)
    (hGuard : handling s = true → ∀ fd conn r, s.store.clients.lookup fd = some (some conn) →
      s.store.records conn = some r → s.msgFrom = .conn conn → r.isonline ≠ 1) :
    Inv { s with store := tick s.store } := by
  have hStore := h.store.tick
  refine {
    toSound := hStore.toSound
    pending := ?_
    held := ?_
    looked := h.looked
    store := hStore
    fresh := ?_
    evicted := ?_
    sender := h.sender
    named := ?_
    login := ?_ }
  · intro fd hPending
    obtain ⟨conn, hLookup, hLive, hFrom⟩ := h.pending fd hPending
    obtain ⟨r, hRecord⟩ := Option.isSome_iff_exists.mp hLive
    have hEntry : Entry s.store fd conn r := { h.store with lookup := hLookup, record := hRecord }
    have hKept := hGuard (handling_of_pending hPending) fd conn r hLookup hRecord hFrom
    obtain ⟨r', hAfter⟩ := hEntry.tickKept hKept
    exact ⟨conn, hAfter.lookup, Option.isSome_iff_exists.mpr ⟨r', hAfter.record⟩, hFrom⟩
  · intro use client fd batch hPhase
    obtain ⟨conn, hEq, hLive, hFrom⟩ := h.held use client fd batch hPhase
    refine ⟨conn, hEq, isSome_tick h.store hLive ?_, hFrom⟩
    intro fd' r hLookup hRecord
    have hHandling : handling s = true := by
      have hFound : s.phase = .found use client fd batch := hPhase
      rw [handling, hFound]
    exact hGuard hHandling fd' conn r hLookup hRecord hFrom
  · intro fd conn hLookup
    exact h.fresh fd conn (h.store.shrinks_tick.lookup fd _ hLookup)
  · intro conn hMem
    obtain hOld | ⟨fd, hLookup⟩ := h.store.shrinks_tick.evicted conn hMem
    · exact h.evicted conn hOld
    · exact h.fresh fd conn hLookup
  · intro fd conn hSock
    have hOpen : (ClientTable.tick s.store).socks fd ≠ none := by
      rw [hSock]
      exact Option.some_ne_none _
    obtain ⟨hSame, hLookup⟩ := h.store.shrinks_tick.kept fd hOpen
    dsimp only
    rw [hLookup]
    exact h.named fd conn (hSame ▸ hSock)
  · intro sockfd client conn hLogin
    obtain ⟨hLt, hEvicted, hUnused, hNamed⟩ := h.login sockfd client conn hLogin
    refine ⟨hLt, ?_, ?_, ?_⟩
    · intro hMem
      obtain hOld | ⟨fd, hLookup⟩ := h.store.shrinks_tick.evicted conn hMem
      · exact hEvicted hOld
      · exact hUnused fd hLookup
    · intro fd hLookup
      exact hUnused fd (h.store.shrinks_tick.lookup fd _ hLookup)
    · intro n hSock
      have hOpen : (ClientTable.tick s.store).socks sockfd ≠ none := by
        rw [hSock]
        exact Option.some_ne_none _
      exact hNamed n ((h.store.shrinks_tick.kept sockfd hOpen).1 ▸ hSock)

theorem received_of_not_failed {s : State} {sockfd : Fd} {r : Recv}
    (hOpen : receives (s.store.socks sockfd) = false → r = .error) (hData : r.failed = false) :
    ∃ sock, s.store.socks sockfd = some sock ∧ receives (some sock) = true := by
  have hReceives : receives (s.store.socks sockfd) = true := by
    by_contra hNot
    rw [hOpen (Bool.eq_false_iff.mpr hNot)] at hData
    cases hData
  cases hSock : s.store.socks sockfd with
  | none =>
    rw [hSock] at hReceives
    cases hReceives
  | some sock => exact ⟨sock, rfl, hSock ▸ hReceives⟩

theorem Inv.recv {debug : Bool} {s : State} (h : Inv s) {sockfd : Fd} {batch : List Fd} {r : Recv}
    (hOpen : receives (s.store.socks sockfd) = false → r = .error)
    (hGuard : classify (ofStorage (recvInto s.msg r)) = .ack →
      (r.failed = true → Finds s sockfd) ∧ (r.failed = false → LetIn s sockfd)) :
    Inv (recv debug s sockfd batch r) := by
  rw [AckRace.recv]
  split
  · rename_i hFailed
    rw [recvInto_failed hFailed] at hGuard ⊢
    refine { h with pending := ?_, held := ?_ }
    · intro fd hPending
      rw [AckRace.pending] at hPending
      dsimp only at hPending
      split at hPending
      · rename_i hAck
        cases hPending
        exact (hGuard hAck).1 hFailed
      · cases hPending
    · intro use client fd batch' hPhase
      cases hPhase
  · rename_i hFailed
    have hData := Bool.eq_false_iff.mpr hFailed
    obtain ⟨sock, hSock, hReceives⟩ := received_of_not_failed hOpen hData
    have hSender : ∀ conn, writer (s.store.socks sockfd) = .conn conn → conn < s.accepted := by
      intro conn hFrom
      rw [hSock] at hFrom
      cases sock with
      | tcp n =>
        cases hFrom
        obtain hEntered | ⟨client, hLogin⟩ := h.named sockfd conn hSock
        · exact h.fresh sockfd conn hEntered
        · exact (h.login sockfd client conn hLogin).1
      | process => cases hFrom
      | udp peer queue =>
        cases peer with
        | none => cases hFrom
        | some addr => cases hFrom
    have hOrdered : Ordered { s with
        msg := recvInto s.msg r
        msgFrom := writer (s.store.socks sockfd)
        phase := classified debug (recvInto s.msg r) sockfd batch } := by
      obtain ⟨hAck, hPhase⟩ | ⟨_, hPhase⟩ := classified_cases debug (recvInto s.msg r) sockfd batch
      · obtain ⟨conn, rfl, hIn⟩ := (hGuard hAck).2 hData sock hSock hReceives
        obtain hLookup | ⟨client, hLogin⟩ := h.named sockfd conn hSock
        · obtain ⟨conn', hEq, hLive⟩ := h.entries sockfd _ hLookup
          cases hEq
          refine .lookup h.store.toSound hPhase ⟨conn, hLookup, hLive, ?_⟩ h.looked
          rw [hSock]
          rfl
        · exact absurd hLogin (hIn client)
      · exact .idle h.store.toSound hPhase h.looked
    exact { hOrdered with
      store := h.store
      fresh := h.fresh
      evicted := h.evicted
      sender := hSender
      named := h.named
      login := h.login }

theorem Inv.close {debug : Bool} {s : State} (h : Inv s) {sockfd : Fd} {batch : List Fd}
    (hPhase : s.phase = .failed sockfd batch) : Inv (close debug s sockfd batch) := by
  have hClosed : Inv { s with store := s.store.close sockfd } := h.closed sockfd (.inl rfl)
  have hOrdered : Ordered (AckRace.close debug s sockfd batch) := by
    obtain ⟨hAck, hNext⟩ | ⟨_, hNext⟩ := classified_cases debug s.msg sockfd batch
    · have hPending : AckRace.pending s = some sockfd := by
        rw [AckRace.pending, hPhase]
        exact if_pos hAck
      obtain ⟨conn, hLookup, hLive, hFrom⟩ := h.pending sockfd hPending
      exact .lookup hClosed.store.toSound hNext ⟨conn, hLookup, hLive, hFrom⟩ h.looked
    · exact .idle hClosed.store.toSound hNext h.looked
  exact { hOrdered with
    store := hClosed.store
    fresh := h.fresh
    evicted := h.evicted
    sender := h.sender
    named := hClosed.named
    login := hClosed.login }

theorem lookup_eq {s : State} {u : Use} {sockfd : Fd} {batch : List Fd} {conn : Nat}
    (hLookup : s.store.clients.lookup sockfd = some (some conn)) (hLive : (s.store.records conn).isSome = true) :
    AckRace.lookup s u sockfd batch = { s with
      phase := .found u (some conn) sockfd batch
      looked := s.looked ++ [⟨s.msgFrom, some conn⟩] } := by
  have hSubscript : s.store.subscript sockfd = (s.store, some conn) := by rw [Store.subscript, hLookup]
  rw [AckRace.lookup, hSubscript]
  dsimp only
  rw [Option.filter_some, hLive]
  rfl

theorem Inv.lookup {s : State} (h : Inv s) {u : Use} {sockfd : Fd} {batch : List Fd}
    (hPhase : s.phase = .lookup u sockfd batch) : Inv (lookup s u sockfd batch) := by
  have hPending : AckRace.pending s = some sockfd := by rw [AckRace.pending, hPhase]
  obtain ⟨conn, hLookup, hLive, hFrom⟩ := h.pending sockfd hPending
  rw [lookup_eq hLookup hLive]
  refine { h with pending := ?_, held := ?_, looked := ?_ }
  · intro fd hAfter
    cases u with
    | trace =>
      cases hAfter
      exact ⟨conn, hLookup, hLive, hFrom⟩
    | store => cases hAfter
  · intro use client fd batch' hFound
    cases hFound
    exact ⟨conn, rfl, hLive, hFrom⟩
  · intro l hMem
    obtain hMem | hMem := List.mem_append.mp hMem
    · exact h.looked l hMem
    · rw [List.mem_singleton.mp hMem]
      exact ⟨conn, rfl, hFrom⟩

theorem Inv.use {s : State} (h : Inv s) {u : Use} {client : Option Nat} {sockfd : Fd} {batch : List Fd}
    (hPhase : s.phase = .found u client sockfd batch) : Inv (use s u client sockfd batch) := by
  obtain ⟨conn, rfl, hLive, hFrom⟩ := h.held u client sockfd batch hPhase
  obtain ⟨r, hRecord⟩ := Option.isSome_iff_exists.mp hLive
  rw [AckRace.use, hRecord]
  cases u with
  | trace =>
    have hPending : AckRace.pending s = some sockfd := by rw [AckRace.pending, hPhase]
    have hOrdered : Ordered { s with phase := .lookup .store sockfd batch } :=
      .lookup h.store.toSound rfl (h.pending sockfd hPending) h.looked
    exact { hOrdered with
      store := h.store, fresh := h.fresh, evicted := h.evicted, sender := h.sender, named := h.named, login := h.login }
  | store =>
    have hStore := h.store.setIsonline conn r 5
    have hOrdered : Ordered { s with store := s.store.setIsonline conn r 5, phase := next batch } :=
      .idle hStore.toSound rfl h.looked
    exact { hOrdered with
      store := hStore, fresh := h.fresh, evicted := h.evicted, sender := h.sender, named := h.named, login := h.login }

theorem step_eq {debug : Bool} {s : State} (h : Sound s.store) (e : Event) : step debug s e = handle debug s e := by
  rw [step, h.fault]
  rfl

theorem inv_step {debug : Bool} {s t : State} {e : Event} (h : Inv s) (hGuard : Undisturbed s e)
    (hStep : step debug s e = some t) : Inv t := by
  rw [step_eq h.toSound] at hStep
  cases e with
  | accept sockfd client =>
    simp only [handle] at hStep
    split at hStep
    · rename_i hWaiting
      obtain ⟨_, hEq⟩ := Option.ite_none_right_eq_some.mp hStep
      cases hEq
      exact h.accept hWaiting sockfd client
    · cases hStep
  | turnAway =>
    simp only [handle] at hStep
    split at hStep
    · rename_i sockfd client conn hLogin
      cases hStep
      refine h.closed sockfd (.inr ⟨rfl, ?_⟩)
      intro fd addr n hOther
      cases hLogin.symm.trans hOther
      rfl
    · cases hStep
  | enter =>
    simp only [handle] at hStep
    split at hStep
    · rename_i sockfd client conn hLogin
      cases hStep
      exact h.enter hLogin (hGuard sockfd client conn hLogin)
    · cases hStep
  | addToReactor added =>
    simp only [handle] at hStep
    split at hStep
    · rename_i sockfd hLogin
      cases hStep
      exact h.addToReactor hLogin added
    · cases hStep
  | acceptUdp sockfd client =>
    obtain ⟨_, hEq⟩ := Option.ite_none_right_eq_some.mp hStep
    cases hEq
    exact h.acceptUdp sockfd client
  | tick =>
    cases hStep
    exact h.tick hGuard
  | epollWait batch =>
    simp only [handle] at hStep
    split at hStep
    · obtain ⟨_, hEq⟩ := Option.ite_none_right_eq_some.mp hStep
      cases hEq
      have hOrdered : Ordered { s with phase := next batch } := .idle h.store.toSound rfl h.looked
      exact { hOrdered with
      store := h.store, fresh := h.fresh, evicted := h.evicted, sender := h.sender, named := h.named, login := h.login }
    · cases hStep
  | recv r =>
    simp only [handle] at hStep
    split at hStep
    · rename_i sockfd batch hPhase
      obtain ⟨⟨_, hOpen⟩, hEq⟩ := Option.ite_none_right_eq_some.mp hStep
      cases hEq
      exact h.recv hOpen (hGuard sockfd batch hPhase)
    · cases hStep
  | close =>
    simp only [handle] at hStep
    split at hStep
    · rename_i sockfd batch hPhase
      cases hStep
      exact h.close hPhase
    · cases hStep
  | lookup =>
    simp only [handle] at hStep
    split at hStep
    · rename_i u sockfd batch hPhase
      cases hStep
      exact h.lookup hPhase
    · cases hStep
  | use =>
    simp only [handle] at hStep
    split at hStep
    · rename_i u client sockfd batch hPhase
      cases hStep
      exact h.use hPhase
    · cases hStep

theorem handling_cases {s : State} (h : handling s = true) :
    (∃ fd, pending s = some fd) ∨ ∃ client fd batch, s.phase = .found .store client fd batch := by
  cases hPhase : s.phase with
  | wait => simp [handling, hPhase] at h
  | loop => simp [handling, hPhase] at h
  | failed fd batch =>
    simp only [handling, hPhase, decide_eq_true_eq] at h
    exact .inl ⟨fd, by simp [pending, hPhase, h]⟩
  | lookup u fd batch => exact .inl ⟨fd, by simp [pending, hPhase]⟩
  | found u client fd batch =>
    cases u with
    | trace => exact .inl ⟨fd, by simp [pending, hPhase]⟩
    | store => exact .inr ⟨client, fd, batch, rfl⟩

theorem not_ordered_enter {s : State} (h : Inv s) {sockfd : Fd} {client : SockaddrIn} {conn : Nat}
    (hLogin : s.login = .accepted sockfd client conn) (hPending : pending s = some sockfd) :
    ¬ Ordered { s with store := s.store.enter sockfd conn client, login := .entered sockfd } := by
  intro hAfter
  obtain ⟨n, hBefore, _, hFrom⟩ := h.pending sockfd hPending
  obtain ⟨n', hLookup, _, hFrom'⟩ := hAfter.pending sockfd hPending
  cases hFrom.symm.trans hFrom'
  obtain ⟨_, hEq⟩ | ⟨hNe, _⟩ := lookup_enter hLookup
  · cases hEq
    exact (h.login sockfd client conn hLogin).2.2.1 sockfd hBefore
  · exact hNe rfl

theorem not_ordered_tick {s : State} (h : Inv s) (hHandling : handling s = true) {fd : Fd} {conn : Nat} {r : Record}
    (hLookup : s.store.clients.lookup fd = some (some conn)) (hRecord : s.store.records conn = some r)
    (hFrom : s.msgFrom = .conn conn) (hDue : r.isonline = 1) : ¬ Ordered { s with store := tick s.store } := by
  intro hAfter
  have hEntry : Entry s.store fd conn r := { h.store with lookup := hLookup, record := hRecord }
  have hGone := hEntry.tickDue hDue
  obtain ⟨fd', hPending⟩ | ⟨client, fd', batch, hPhase⟩ := handling_cases hHandling
  · obtain ⟨conn', hLookup', _, hFrom'⟩ := hAfter.pending fd' hPending
    cases hFrom.symm.trans hFrom'
    exact hGone.lookup fd' hLookup'
  · obtain ⟨conn', _, hLive, hFrom'⟩ := hAfter.held .store client fd' batch hPhase
    cases hFrom.symm.trans hFrom'
    dsimp only at hLive
    rw [hGone.record] at hLive
    cases hLive

theorem not_ordered_recv {debug : Bool} {s : State} (h : Inv s) {sockfd : Fd} {batch : List Fd} {r : Recv}
    (hAck : classify (ofStorage (recvInto s.msg r)) = .ack)
    (hBad : ¬ ((r.failed = true → Finds s sockfd) ∧ (r.failed = false → LetIn s sockfd))) :
    ¬ Ordered (recv debug s sockfd batch r) := by
  intro hAfter
  rw [recv] at hAfter
  split at hAfter
  · rename_i hFailed
    rw [recvInto_failed hFailed] at hAck hAfter
    refine hBad ⟨fun _ => hAfter.pending sockfd (if_pos hAck), fun hData => ?_⟩
    cases hFailed.symm.trans hData
  · rename_i hFailed
    refine hBad ⟨fun hTrue => absurd hTrue hFailed, fun _ sock hSock hReceives => ?_⟩
    have hPhase : classified debug (recvInto s.msg r) sockfd batch = .lookup (firstUse debug) sockfd batch := by
      rw [classified, hAck]
    have hPending : pending { s with
        msg := recvInto s.msg r
        msgFrom := writer (s.store.socks sockfd)
        phase := classified debug (recvInto s.msg r) sockfd batch } = some sockfd := by
      rw [pending, hPhase]
    obtain ⟨conn, hLookup, _, hFrom⟩ := hAfter.pending sockfd hPending
    dsimp only at hFrom hLookup
    rw [hSock] at hFrom
    cases sock with
    | tcp n =>
      cases hFrom
      refine ⟨conn, rfl, fun client hLogin => ?_⟩
      exact (h.login sockfd client conn hLogin).2.2.1 sockfd hLookup
    | process => cases hFrom
    | udp peer queue =>
      cases peer with
      | none => cases hFrom
      | some addr => cases hFrom

theorem not_ordered {debug : Bool} {s t : State} {e : Event} (h : Inv s) (hBad : ¬ Undisturbed s e)
    (hStep : step debug s e = some t) : ¬ Ordered t := by
  rw [step_eq h.toSound] at hStep
  cases e with
  | enter =>
    simp only [Undisturbed, not_forall, not_not] at hBad
    obtain ⟨sockfd, client, conn, hLogin, hPending⟩ := hBad
    simp only [handle, hLogin] at hStep
    cases hStep
    exact not_ordered_enter h hLogin hPending
  | tick =>
    cases hStep
    simp only [Undisturbed, not_forall, not_not] at hBad
    obtain ⟨hHandling, fd, conn, r, hLookup, hRecord, hFrom, hDue⟩ := hBad
    exact not_ordered_tick h hHandling hLookup hRecord hFrom hDue
  | recv r =>
    simp only [Undisturbed, not_forall] at hBad
    obtain ⟨sockfd, batch, hPhase, hAck, hBad⟩ := hBad
    simp only [handle, hPhase] at hStep
    obtain ⟨_, hEq⟩ := Option.ite_none_right_eq_some.mp hStep
    cases hEq
    exact not_ordered_recv h hAck hBad
  | accept => exact absurd trivial hBad
  | turnAway => exact absurd trivial hBad
  | addToReactor => exact absurd trivial hBad
  | acceptUdp => exact absurd trivial hBad
  | epollWait => exact absurd trivial hBad
  | close => exact absurd trivial hBad
  | lookup => exact absurd trivial hBad
  | use => exact absurd trivial hBad

theorem inv_start {s : State} (h : Initial s) : Inv s := by
  have hNone : ∀ fd, s.store.clients.lookup fd = none := by
    intro fd
    rw [h.clients, AList.lookup_empty]
  have hStore : ClientTable.Inv s.store := {
    entries := by
      intro fd client hLookup
      cases (hNone fd).symm.trans hLookup
    gone := by
      intro conn hMem
      rw [h.evicted] at hMem
      cases hMem
    fault := h.fault
    distinct := by
      intro fd fd' conn hLookup
      cases (hNone fd).symm.trans hLookup }
  have hLooked : ∀ l ∈ s.looked, ∃ conn, l.record = some conn ∧ l.sender = .conn conn := by
    intro l hMem
    rw [h.looked] at hMem
    cases hMem
  have hOrdered : Ordered s := @Ordered.idle s hStore.toSound [] h.phase hLooked
  refine { hOrdered with store := hStore, fresh := ?_, evicted := ?_, sender := ?_, named := ?_, login := ?_ }
  · intro fd conn hLookup
    cases (hNone fd).symm.trans hLookup
  · intro conn hMem
    rw [h.evicted] at hMem
    cases hMem
  · intro conn hFrom
    cases h.msgFrom.symm.trans hFrom
  · intro fd conn hSock
    exact absurd hSock (h.socks fd conn)
  · intro sockfd client conn hLogin
    cases h.login.symm.trans hLogin

/-- A run keeps every acknowledgement on the record of its sender exactly when no step of it disturbs one. -/
theorem ordered_iff_undisturbed {debug : Bool} {s t : State} {events : List Event} (hStart : Initial s)
    (hRun : (system debug).run s events = some t) :
    (system debug).Meets Undisturbed s events ↔ (system debug).Along Ordered s events :=
  meets_iff_along (fun _ hInv => hInv.toOrdered) (fun _ _ _ => inv_step) (fun _ _ _ => not_ordered)
    (inv_start hStart) hRun

def eventSteps (debug : Bool) (msg : Bytes) (r : Recv) : List Event :=
  .recv r :: (if r.failed then [.close] else []) ++
    (if classify (ofStorage (recvInto msg r)) = .ack then
      (if debug then [.lookup, .use] else []) ++ [.lookup, .use] else [])

structure Agrees (s : State) (t : Server) : Prop extends Shows s.store t where
  msg : t.msg = s.msg
  msgFrom : t.msgFrom = s.msgFrom

theorem Agrees.received {debug : Bool} {s : State} {t : Server} (h : Agrees s t) (hInv : Inv s) {sockfd : Fd}
    {batch : List Fd} {r : Recv} (hPhase : s.phase = .loop sockfd batch) (hWithin : r.within sizeofMsg = true)
    (hOpen : (∀ conn, s.store.socks sockfd ≠ some (.tcp conn)) → r = .error)
    (hGuard : Undisturbed s (.recv r)) :
    ∃ u, (system debug).run s (.recv r :: if r.failed then [.close] else []) = some u ∧ Inv u ∧
      u.phase = classified debug (recvInto s.msg r) sockfd batch ∧ Agrees u (dispatchRecv t sockfd r) := by
  have hTaken : receives (s.store.socks sockfd) = false → r = .error := by
    intro hNone
    apply hOpen
    intro conn hSock
    rw [hSock] at hNone
    cases hNone
  have hRecv : step debug s (.recv r) = some (recv debug s sockfd batch r) := by
    rw [step_eq hInv.toSound, handle, hPhase]
    exact if_pos ⟨hWithin, hTaken⟩
  have hAfter : Inv (recv debug s sockfd batch r) := hInv.recv hTaken (hGuard sockfd batch hPhase)
  cases hFailed : r.failed with
  | true =>
    have hFailing : (recv debug s sockfd batch r).phase = .failed sockfd batch := by
      rw [recv, if_pos hFailed]
    have hClose : step debug (recv debug s sockfd batch r) .close =
        some (close debug (recv debug s sockfd batch r) sockfd batch) := by
      rw [step_eq hAfter.toSound, handle, hFailing]
    refine ⟨close debug (recv debug s sockfd batch r) sockfd batch, ?_, hAfter.close hFailing, ?_, ?_⟩
    · rw [run_cons]
      change (step debug s (.recv r)).bind _ = _
      rw [hRecv, Option.bind_some, if_pos rfl, run_cons]
      change (step debug _ .close).bind _ = _
      rw [hClose]
      rfl
    · rw [recv, if_pos hFailed]
      rfl
    · rw [recv, dispatchRecv, if_pos hFailed, if_pos hFailed]
      exact { h.toShows.close sockfd with msg := congrArg (recvInto · r) h.msg, msgFrom := h.msgFrom }
  | false =>
    refine ⟨_, ?_, hAfter, ?_, ?_⟩
    · rw [run_cons]
      change (step debug s (.recv r)).bind _ = _
      rw [hRecv]
      rfl
    · rw [recv, if_neg (by rw [hFailed]; decide)]
    · rw [recv, dispatchRecv, if_neg (by rw [hFailed]; decide), if_neg (by rw [hFailed]; decide)]
      refine { h.toShows with msg := congrArg (recvInto · r) h.msg, msgFrom := ?_ }
      obtain ⟨conn, hSock⟩ : ∃ conn, s.store.socks sockfd = some (.tcp conn) := by
        by_contra hNone
        rw [hOpen (not_exists.mp hNone)] at hFailed
        cases hFailed
      rw [h.socks, hSock]
      rfl

theorem use_trace {s : State} {conn : Nat} {r : Record} (hRecord : s.store.records conn = some r) (sockfd : Fd)
    (batch : List Fd) : use s .trace (some conn) sockfd batch = { s with phase := .lookup .store sockfd batch } := by
  rw [use, hRecord]

theorem use_store {s : State} {conn : Nat} {r : Record} (hRecord : s.store.records conn = some r) (sockfd : Fd)
    (batch : List Fd) : use s .store (some conn) sockfd batch =
      { s with store := s.store.setIsonline conn r 5, phase := next batch } := by
  rw [use, hRecord]

theorem run_lookup {debug : Bool} {s : State} (hSound : Sound s.store) {u : Use} {sockfd : Fd} {batch : List Fd}
    (hPhase : s.phase = .lookup u sockfd batch) {conn : Nat}
    (hLookup : s.store.clients.lookup sockfd = some (some conn)) (hLive : (s.store.records conn).isSome = true) :
    (system debug).run s [.lookup, .use] = some (use { s with
      phase := .found u (some conn) sockfd batch
      looked := s.looked ++ [⟨s.msgFrom, some conn⟩] } u (some conn) sockfd batch) := by
  have hFound : step debug s .lookup = some (lookup s u sockfd batch) := by
    rw [step_eq hSound, handle, hPhase]
  have hUsed := @step_eq debug { s with
    phase := .found u (some conn) sockfd batch
    looked := s.looked ++ [⟨s.msgFrom, some conn⟩] } hSound .use
  rw [run_cons]
  change (step debug s .lookup).bind _ = _
  rw [hFound, Option.bind_some, lookup_eq hLookup hLive, run_cons]
  change (step debug _ .use).bind _ = _
  rw [hUsed]
  rfl

theorem Agrees.answered {debug : Bool} {s : State} {t : Server} (h : Agrees s t) (hInv : Inv s) {sockfd : Fd}
    {batch : List Fd} (hPhase : s.phase = .lookup (firstUse debug) sockfd batch)
    (hAck : classify (ofStorage s.msg) = .ack) :
    ∃ u, (system debug).run s ((if debug then [.lookup, .use] else []) ++ [.lookup, .use]) = some u ∧
      u.phase = next batch ∧ Agrees u (dispatchClassify t sockfd) := by
  have hPending : pending s = some sockfd := by rw [pending, hPhase]
  obtain ⟨conn, hLookup, hLive, _⟩ := hInv.pending sockfd hPending
  obtain ⟨r, hRecord⟩ := Option.isSome_iff_exists.mp hLive
  have hClient : t.clients.lookup sockfd = some ⟨r.isonline, r.addr, conn⟩ := by
    rw [h.clients sockfd, client_of_entry hLookup hRecord]
  have hSet : Shows (s.store.setIsonline conn r 5) (dispatchClassify t sockfd) := by
    rw [dispatchClassify, h.msg, hAck]
    dsimp only
    rw [hClient]
    exact h.toShows.setIsonline hInv.store.toLinked hLookup 5 rfl rfl rfl
  have hKept : (dispatchClassify t sockfd).msg = s.msg ∧ (dispatchClassify t sockfd).msgFrom = s.msgFrom := by
    rw [dispatchClassify, h.msg, hAck]
    dsimp only
    rw [hClient]
    exact ⟨rfl, h.msgFrom⟩
  cases debug with
  | false =>
    refine ⟨_, run_lookup hInv.toSound hPhase hLookup hLive, ?_⟩
    rw [firstUse, if_neg (by decide), use_store (r := r)]
    · exact ⟨rfl, { hSet with msg := hKept.1, msgFrom := hKept.2 }⟩
    · exact hRecord
  | true =>
    rw [if_pos rfl, run_append, run_lookup hInv.toSound hPhase hLookup hLive, Option.bind_some, firstUse,
      if_pos rfl, use_trace (r := r)]
    · have hAgain := @run_lookup true { s with
        phase := .lookup .store sockfd batch
        looked := s.looked ++ [⟨s.msgFrom, some conn⟩] } hInv.toSound .store sockfd batch rfl conn hLookup hLive
      refine ⟨_, hAgain, ?_⟩
      rw [use_store (r := r)]
      · exact ⟨rfl, { hSet with msg := hKept.1, msgFrom := hKept.2 }⟩
      · exact hRecord
    · exact hRecord

theorem Agrees.classified {s : State} {t : Server} (h : Agrees s t) (sockfd : Fd)
    (hNot : classify (ofStorage s.msg) ≠ .ack) : Agrees s (dispatchClassify t sockfd) := by
  rw [← h.msg] at hNot
  rw [dispatchClassify]
  split
  · rename_i hAck
    exact absurd hAck hNot
  · exact ⟨⟨h.clients, h.socks, h.epollfd⟩, h.msg, h.msgFrom⟩
  · exact h

theorem Agrees.doDispatch {debug : Bool} {s : State} {t : Server} (h : Agrees s t) (hInv : Inv s) {sockfd : Fd}
    {batch : List Fd} {r : Recv} (hPhase : s.phase = .loop sockfd batch) (hWithin : r.within sizeofMsg = true)
    (hOpen : (∀ conn, s.store.socks sockfd ≠ some (.tcp conn)) → r = .error)
    (hGuard : Undisturbed s (.recv r)) :
    ∃ u, (system debug).run s (eventSteps debug s.msg r) = some u ∧ u.phase = next batch ∧
      Agrees u (doDispatch t sockfd r) := by
  obtain ⟨u, hRun, hAfter, hNext, hAgrees⟩ := h.received hInv hPhase hWithin hOpen hGuard
  rw [eventSteps, run_append, hRun, Option.bind_some, Lifetime.doDispatch_eq]
  have hMsg : u.msg = recvInto s.msg r := by
    rw [← hAgrees.msg, ← h.msg, Lifetime.msg_dispatchRecv]
  obtain ⟨hAck, hPhase'⟩ | ⟨hNot, hPhase'⟩ := classified_cases debug (recvInto s.msg r) sockfd batch
  · rw [if_pos hAck]
    exact hAgrees.answered hAfter (hNext.trans hPhase') (by rw [hMsg]; exact hAck)
  · rw [if_neg hNot]
    exact ⟨u, rfl, hNext.trans hPhase', hAgrees.classified sockfd (by rw [hMsg]; exact hNot)⟩

theorem Agrees.tick {s : State} {t : Server} (h : Agrees s t) (hInv : Inv s) :
    Agrees { s with store := tick s.store } (heartBeat t) := by
  have hKept : (heartBeat t).msg = t.msg ∧ (heartBeat t).msgFrom = t.msgFrom := by
    obtain ⟨socks, clients, epollfd, udpEpollfd, beats, hEq⟩ := heartBeat_frame t
    rw [hEq]
    exact ⟨rfl, rfl⟩
  exact { h.toShows.tick hInv.store.toLinked with msg := hKept.1.trans h.msg, msgFrom := hKept.2.trans h.msgFrom }

def justStarted : State where
  store := ⟨∅, fun _ => none, fun _ => none, fun _ => false, [], [], false⟩
  accepted := 0
  login := .waiting
  msg := []
  msgFrom := .memory
  phase := .wait
  looked := []

theorem initial_justStarted : Initial justStarted where
  clients := rfl
  records _ := rfl
  socks _ _ := (Option.some_ne_none _).symm
  epollfd _ := rfl
  sent := rfl
  evicted := rfl
  fault := rfl
  accepted := rfl
  login := rfl
  msgFrom := rfl
  phase := rfl
  looked := rfl

def node : SockaddrIn := ⟨1, 40000⟩

def ack : Recv := .data ((cleared piAck).image (List.replicate 4 0))

def overtaken : List Event :=
  [.accept 5 node, .enter, .addToReactor true] ++ List.replicate 7 .tick ++ [.epollWait [5], .recv ack, .tick, .lookup, .use]

theorem null_entered : ∃ s : State, Reachable (system true) s ∧ ¬ Ordered s ∧
    s.store.clients.lookup 5 = some none ∧ s.store.evicted = [0] ∧ s.looked = [⟨.conn 0, none⟩] ∧
    s.store.fault = true := by
  have hRun : ((system true).run justStarted overtaken).map (fun s =>
      (s.store.clients.lookup 5, s.store.evicted, s.looked, s.store.fault)) =
      some (some none, [0], [⟨.conn 0, none⟩], true) := by decide +kernel
  obtain ⟨s, hReach, hSeen⟩ := Reachable.of_observed initial_justStarted hRun
  simp only [Prod.mk.injEq] at hSeen
  obtain ⟨hNull, hEvicted, hLooked, hFault⟩ := hSeen
  refine ⟨s, hReach, ?_, hNull, hEvicted, hLooked, hFault⟩
  intro hOrdered
  cases hFault.symm.trans hOrdered.fault

/-- Two clients log in; an ACK of the first is answered, the second login running beside it. -/
def beside : List Event :=
  [.accept 5 node, .enter, .addToReactor true, .tick, .epollWait [5], .accept 6 ⟨2, 40000⟩, .recv (.data [2]), .lookup,
    .enter, .tick, .use, .addToReactor true]

theorem ordered_iff_undisturbed_answered : (system false).Along Ordered justStarted beside := by
  have hMeets : (system false).Meets Undisturbed justStarted beside := by
    refine .cons trivial rfl (.cons ?_ rfl (.cons trivial rfl (.cons (fun hHandling => by cases hHandling) rfl ?_)))
    · intro sockfd client conn _ hPending
      cases hPending
    refine .cons trivial rfl (.cons trivial rfl (.cons ?_ rfl (.cons trivial rfl ?_)))
    · rintro _ _ ⟨⟩ _
      constructor
      · intro hFailed
        cases hFailed
      intro _ sock hSock _
      cases hSock
      exact ⟨0, rfl, fun client hLogin => by cases hLogin⟩
    refine .cons ?_ rfl (.cons ?_ rfl (.cons trivial rfl (.cons trivial rfl trivial)))
    · intro sockfd client conn _ hPending
      cases hPending
    · intro _ fd conn r hLookup hRecord hFrom hDue
      cases hFrom
      cases hRecord
      cases hDue
  have hRun : ((system false).run justStarted beside).isSome = true := by decide +kernel
  obtain ⟨t, hRun⟩ := Option.isSome_iff_exists.mp hRun
  exact (ordered_iff_undisturbed initial_justStarted hRun).mp hMeets

end MonitorSystem.AckRace
