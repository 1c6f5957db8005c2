import MonitorSystem.ServerFunc

/-! # The accept of UDP clients, one system call at a time

accept_udp reads a token on the listener, binds a second socket to the same
port, connects it to the sender and replies; datagrams arrive at any point.
The owner of a socket is the client whose token it was made for. The order
lists the descriptors with the most recently bound first; the listener, bound
before all of them and never connected, comes last. The lists at the end of
the state are history.
-/

namespace MonitorSystem.UdpAccept

open Msg ServerFunc Lib.CString Lib.Transition

abbrev Datagram := SockaddrIn × Bytes

structure Socket where
  owner : SockaddrIn
  peer : Option SockaddrIn
  queue : List Datagram

/-- Where the thread of udp_deal_with is in accept_udp. -/
inductive Phase
  | waiting
  | received (client : SockaddrIn)
  | bound (client : SockaddrIn) (sockfd : Fd)
  | connected (client : SockaddrIn) (sockfd : Fd)
deriving DecidableEq

structure Delivery where
  owner : SockaddrIn
  sender : SockaddrIn
  bytes : Bytes
deriving DecidableEq

structure Port where
  listener : List Datagram
  sockets : Fd → Option Socket
  order : List Fd
  phase : Phase
  udpEpollfd : Fd → Bool
  stopped : Bool
  delivered : List Delivery
  reads : List Delivery
  returned : List (SockaddrIn × Option SockaddrIn)

def noPeer (s : Port) (addr : SockaddrIn) : Bool :=
  s.order.all fun fd => (s.sockets fd).bind Socket.peer ≠ some addr

def unconnected (s : Port) (fd : Fd) : Bool := (s.sockets fd).any fun k => k.peer = none

/-- The kernel's choice: a socket connected to the sender if there is one, else
the most recently bound unconnected one; none stands for the listener. -/
def receives (s : Port) (addr : SockaddrIn) : Option Fd → Bool
  | some fd => (s.sockets fd).any (fun k => k.peer = some addr) ∨
      (noPeer s addr ∧ s.order.find? (unconnected s) = some fd)
  | none => noPeer s addr ∧ s.order.find? (unconnected s) = none

inductive Event
  | arrives (addr : SockaddrIn) (bytes : Bytes) (target : Option Fd)
  | recvfrom
  | create (sockfd : Option Fd)
  | connect (connected : Bool)
  | reply (added : Bool)
  | readable (fd : Fd)
  | failed (fd : Fd)

def arrive (s : Port) (d : Datagram) : Option Fd → Option Port
  | none => some { s with listener := s.listener ++ [d] }
  | some fd => (s.sockets fd).map fun k => { s with
      sockets := Function.update s.sockets fd (some { k with queue := k.queue ++ [d] })
      delivered := s.delivered ++ [⟨k.owner, d.1, d.2⟩] }

def recvfrom (s : Port) : Option Port :=
  match s.phase, s.listener with
  | .waiting, (client, bytes) :: rest =>
    let token := bytes.take tokenLen
    if token.length ≠ tokenLen ∨ checkUser token tokenLen = false then
      some { s with listener := rest, stopped := true }
    else some { s with listener := rest, phase := .received client }
  | _, _ => none

/-- socket_create_udp; the kernel hands out a descriptor that is not open. -/
def create (s : Port) (sockfd : Option Fd) : Option Port :=
  match s.phase, sockfd with
  | .received client, some fd =>
    if s.sockets fd = none then
      some { s with
        sockets := Function.update s.sockets fd (some ⟨client, none, []⟩)
        order := fd :: s.order
        phase := .bound client fd }
    else none
  | .received _, none => some { s with stopped := true }
  | _, _ => none

/-- A failed connect is reported and nothing else. -/
def connect (s : Port) (connected : Bool) : Option Port :=
  match s.phase with
  | .bound client fd => (s.sockets fd).map fun k => { s with
      sockets := if connected then Function.update s.sockets fd (some { k with peer := some client })
        else s.sockets
      phase := .connected client fd }
  | _ => none

def reply (s : Port) (added : Bool) : Option Port :=
  match s.phase with
  | .connected client fd => (s.sockets fd).map fun k => { s with
      udpEpollfd := Function.update s.udpEpollfd fd added
      phase := .waiting
      returned := s.returned ++ [(client, k.peer)] }
  | _ => none

def read (s : Port) (fd : Fd) : Option Port :=
  (s.sockets fd).bind fun k =>
    match k.queue with
    | [] => none
    | d :: rest => some { s with
        sockets := Function.update s.sockets fd (some { k with queue := rest })
        reads := s.reads ++ [⟨k.owner, d.1, d.2⟩] }

def step (s : Port) (e : Event) : Option Port :=
  if s.stopped then none
  else match e with
    | .arrives addr bytes target => if receives s addr target then arrive s (addr, bytes) target else none
    | .recvfrom => recvfrom s
    | .create sockfd => create s sockfd
    | .connect connected => connect s connected
    | .reply added => reply s added
    | .readable fd => if s.phase = .waiting ∧ s.udpEpollfd fd then read s fd else none
    | .failed fd =>
      if s.phase = .waiting ∧ s.udpEpollfd fd then
        some { s with udpEpollfd := Function.update s.udpEpollfd fd false }
      else none

def listening : Port where
  listener := []
  sockets := fun _ => none
  order := []
  phase := .waiting
  udpEpollfd := fun _ => false
  stopped := false
  delivered := []
  reads := []
  returned := []

def system : System Port Event where
  start s := s = listening
  step := step

structure Attributed (s : Port) : Prop where
  reads : ∀ d ∈ s.reads, d.sender = d.owner
  logins : ∀ d ∈ s.delivered, d.bytes.length = tokenLen → d.sender = d.owner
  returned : ∀ r ∈ s.returned, r.2 = some r.1

/-- connect succeeds, and between bind and connect nothing arrives from a
client other than the accepted one unless a socket is connected to it. -/
def Undisturbed (s : Port) : Event → Prop
  | .arrives addr _ _ => ∀ client fd, s.phase = .bound client fd → addr = client ∨ noPeer s addr = false
  | .connect connected => connected = true
  | _ => True

/-- Every socket is connected to its owner, but for the one just bound. -/
structure Owned (sockets : Fd → Option Socket) (phase : Phase) : Prop where
  peer : ∀ fd k, sockets fd = some k → k.peer = some k.owner ∨ (k.peer = none ∧ phase = .bound k.owner fd)
  bound : ∀ client fd, phase = .bound client fd → ∀ k, sockets fd = some k → k.owner = client
  connected : ∀ client fd, phase = .connected client fd → ∀ k, sockets fd = some k → k.owner = client

def Queued (sockets : Fd → Option Socket) : Prop :=
  ∀ fd k, sockets fd = some k → ∀ d ∈ k.queue, d.1 = k.owner

structure Inv (s : Port) : Prop extends Attributed s where
  owned : Owned s.sockets s.phase
  queued : Queued s.sockets

theorem inv_listening : Inv listening where
  reads d hd := by cases hd
  logins d hd := by cases hd
  returned r hr := by cases hr
  owned := ⟨fun fd k hk => (by cases hk), fun client fd hPhase => (by cases hPhase),
    fun client fd hPhase => (by cases hPhase)⟩
  queued fd k hk := by cases hk

section Sockets

variable {sockets : Fd → Option Socket} {phase : Phase} {fd : Fd} {k : Socket}

theorem Owned.update_queue (h : Owned sockets phase) (hk : sockets fd = some k) (queue : List Datagram) :
    Owned (Function.update sockets fd (some { k with queue := queue })) phase := by
  have hSame : ∀ fd' k', Function.update sockets fd (some { k with queue := queue }) fd' = some k' →
      ∃ k'', sockets fd' = some k'' ∧ k'.owner = k''.owner ∧ k'.peer = k''.peer := by
    intro fd' k' hk'
    obtain ⟨rfl, ⟨⟩⟩ | ⟨_, hOld⟩ := update_cases hk'
    · exact ⟨k, hk, rfl, rfl⟩
    · exact ⟨k', hOld, rfl, rfl⟩
  constructor
  · intro fd' k' hk'
    obtain ⟨k'', hOld, hOwner, hPeer⟩ := hSame fd' k' hk'
    rw [hOwner, hPeer]
    exact h.peer fd' k'' hOld
  · intro client fd' hPhase k' hk'
    obtain ⟨k'', hOld, hOwner, _⟩ := hSame fd' k' hk'
    exact hOwner.trans (h.bound client fd' hPhase k'' hOld)
  · intro client fd' hPhase k' hk'
    obtain ⟨k'', hOld, hOwner, _⟩ := hSame fd' k' hk'
    exact hOwner.trans (h.connected client fd' hPhase k'' hOld)

theorem Owned.create {client : SockaddrIn} (h : Owned sockets (.received client)) (fd : Fd) :
    Owned (Function.update sockets fd (some ⟨client, none, []⟩)) (.bound client fd) := by
  constructor
  · intro fd' k' hk'
    obtain ⟨rfl, ⟨⟩⟩ | ⟨_, hOld⟩ := update_cases hk'
    · exact .inr ⟨rfl, rfl⟩
    · obtain hPeer | ⟨_, hPhase⟩ := h.peer fd' k' hOld
      · exact .inl hPeer
      · cases hPhase
  · rintro _ _ ⟨⟩ k' hk'
    rw [Function.update_self] at hk'
    cases hk'
    rfl
  · intro client' fd' hPhase
    cases hPhase

theorem Owned.connect {client : SockaddrIn} (h : Owned sockets (.bound client fd)) (hk : sockets fd = some k) :
    Owned (Function.update sockets fd (some { k with peer := some client })) (.connected client fd) := by
  have hOwner := h.bound client fd rfl k hk
  constructor
  · intro fd' k' hk'
    obtain ⟨rfl, ⟨⟩⟩ | ⟨hNe, hOld⟩ := update_cases hk'
    · exact .inl (congrArg some hOwner.symm)
    · obtain hPeer | ⟨_, hPhase⟩ := h.peer fd' k' hOld
      · exact .inl hPeer
      · cases hPhase
        exact absurd rfl hNe
  · intro client' fd' hPhase
    cases hPhase
  · rintro _ _ ⟨⟩ k' hk'
    rw [Function.update_self] at hk'
    cases hk'
    exact hOwner

theorem Owned.idle (h : Owned sockets phase) (hNow : ∀ client fd, phase ≠ .bound client fd) {phase' : Phase}
    (hBound : ∀ client fd, phase' ≠ .bound client fd) (hConnected : ∀ client fd, phase' ≠ .connected client fd) :
    Owned sockets phase' := by
  constructor
  · intro fd' k' hk'
    obtain hPeer | ⟨_, hPhase⟩ := h.peer fd' k' hk'
    · exact .inl hPeer
    · exact absurd hPhase (hNow _ _)
  · intro client' fd' hPhase
    exact absurd hPhase (hBound client' fd')
  · intro client' fd' hPhase
    exact absurd hPhase (hConnected client' fd')

theorem Queued.update (h : Queued sockets) (hQueue : ∀ d ∈ k.queue, d.1 = k.owner) :
    Queued (Function.update sockets fd (some k)) := by
  intro fd' k' hk'
  obtain ⟨rfl, ⟨⟩⟩ | ⟨_, hOld⟩ := update_cases hk'
  · exact hQueue
  · exact h fd' k' hOld

end Sockets

theorem Inv.sender {s : Port} (h : Inv s) {addr : SockaddrIn} {bytes : Bytes} {fd : Fd} {k : Socket}
    (hQuiet : Undisturbed s (.arrives addr bytes (some fd))) (hk : s.sockets fd = some k)
    (hReceives : receives s addr (some fd) = true) : addr = k.owner := by
  simp only [receives, decide_eq_true_iff, hk, Option.any_some] at hReceives
  obtain hPeer | ⟨hNone, hFirst⟩ := hReceives
  · obtain hOwner | ⟨hNone, _⟩ := h.owned.peer fd k hk
    · rw [hOwner] at hPeer
      exact (Option.some.inj hPeer).symm
    · rw [hNone] at hPeer
      cases hPeer
  · have hOpen : k.peer = none := by
      simpa [unconnected, hk] using List.find?_some hFirst
    obtain hOwner | ⟨_, hPhase⟩ := h.owned.peer fd k hk
    · rw [hOwner] at hOpen
      cases hOpen
    · obtain hOwn | hBusy := hQuiet k.owner fd hPhase
      · exact hOwn
      · cases hNone.symm.trans hBusy

theorem Inv.arrive {s t : Port} (h : Inv s) {addr : SockaddrIn} {bytes : Bytes} {target : Option Fd}
    (hQuiet : Undisturbed s (.arrives addr bytes target)) (hReceives : receives s addr target = true)
    (hStep : arrive s (addr, bytes) target = some t) : Inv t := by
  cases target with
  | none =>
    cases hStep
    exact { h with }
  | some fd =>
    obtain ⟨k, hk, hEq⟩ := Option.map_eq_some_iff.mp hStep
    subst hEq
    have hSender := h.sender hQuiet hk hReceives
    refine { h with logins := ?_, owned := h.owned.update_queue hk _, queued := h.queued.update ?_ }
    · intro d hd hLogin
      obtain hd | hd := List.mem_append.mp hd
      · exact h.logins d hd hLogin
      · rw [List.mem_singleton.mp hd]
        exact hSender
    · intro d hd
      obtain hd | hd := List.mem_append.mp hd
      · exact h.queued fd k hk d hd
      · rw [List.mem_singleton.mp hd]
        exact hSender

theorem Inv.recvfrom {s t : Port} (h : Inv s) (hStep : recvfrom s = some t) : Inv t := by
  rw [UdpAccept.recvfrom] at hStep
  split at hStep
  · rename_i hPhase _
    dsimp only at hStep
    split at hStep
    · cases hStep
      exact { h with }
    · cases hStep
      have hOwned := h.owned
      rw [hPhase] at hOwned
      exact { h with owned := hOwned.idle (by simp) (by simp) (by simp) }
  · cases hStep

theorem Inv.create {s t : Port} (h : Inv s) {sockfd : Option Fd} (hStep : create s sockfd = some t) :
    Inv t := by
  unfold UdpAccept.create at hStep
  split at hStep
  · rename_i client fd hPhase
    split at hStep
    · cases hStep
      have hOwned := h.owned
      rw [hPhase] at hOwned
      refine { h with owned := hOwned.create fd, queued := h.queued.update ?_ }
      intro d hd
      cases hd
    · cases hStep
  · cases hStep
    exact { h with }
  · cases hStep

theorem Inv.connect {s t : Port} (h : Inv s) (hStep : connect s true = some t) : Inv t := by
  rw [UdpAccept.connect] at hStep
  split at hStep
  · rename_i client fd hPhase
    obtain ⟨k, hk, hEq⟩ := Option.map_eq_some_iff.mp hStep
    subst hEq
    have hOwned := h.owned
    rw [hPhase] at hOwned
    exact { h with owned := hOwned.connect hk, queued := h.queued.update (h.queued fd k hk) }
  · cases hStep

theorem Inv.reply {s t : Port} (h : Inv s) {added : Bool} (hStep : reply s added = some t) : Inv t := by
  rw [UdpAccept.reply] at hStep
  split at hStep
  · rename_i client fd hPhase
    obtain ⟨k, hk, hEq⟩ := Option.map_eq_some_iff.mp hStep
    subst hEq
    have hOwned := h.owned
    rw [hPhase] at hOwned
    refine { h with owned := hOwned.idle (by simp) (by simp) (by simp), returned := ?_ }
    intro r hr
    obtain hr | hr := List.mem_append.mp hr
    · exact h.returned r hr
    · rw [List.mem_singleton.mp hr]
      obtain hPeer | ⟨_, hPhase⟩ := hOwned.peer fd k hk
      · rw [hPeer, hOwned.connected client fd rfl k hk]
      · cases hPhase
  · cases hStep

theorem Inv.read {s t : Port} (h : Inv s) {fd : Fd} (hStep : read s fd = some t) : Inv t := by
  obtain ⟨k, hk, hStep⟩ := Option.bind_eq_some_iff.mp hStep
  split at hStep
  · cases hStep
  · rename_i d rest hQueue
    cases hStep
    have hOwn := h.queued fd k hk
    rw [hQueue, List.forall_mem_cons] at hOwn
    refine { h with reads := ?_, owned := h.owned.update_queue hk rest, queued := h.queued.update hOwn.2 }
    intro r hr
    obtain hr | hr := List.mem_append.mp hr
    · exact h.reads r hr
    · rw [List.mem_singleton.mp hr]
      exact hOwn.1

theorem inv_step {s t : Port} {e : Event} (h : Inv s) (hQuiet : Undisturbed s e) (hStep : step s e = some t) :
    Inv t := by
  obtain ⟨_, hStep⟩ := Option.ite_none_left_eq_some.mp hStep
  cases e with
  | arrives addr bytes target =>
    obtain ⟨hReceives, hArrive⟩ := Option.ite_none_right_eq_some.mp hStep
    exact h.arrive hQuiet hReceives hArrive
  | recvfrom => exact h.recvfrom hStep
  | create sockfd => exact h.create hStep
  | connect connected =>
    rw [show connected = true from hQuiet] at hStep
    exact h.connect hStep
  | reply added => exact h.reply hStep
  | readable fd =>
    obtain ⟨_, hRead⟩ := Option.ite_none_right_eq_some.mp hStep
    exact h.read hRead
  | failed fd =>
    obtain ⟨_, hEq⟩ := Option.ite_none_right_eq_some.mp hStep
    cases hEq
    exact { h with }

/-- As long as connect succeeds and no stranger's datagram falls into the
window before it, every socket belongs to one client. -/
theorem attributed_of_undisturbed {s : Port} (h : ReachableUnder system Undisturbed s) : Attributed s := by
  have hInv : Inv s := by
    refine ReachableUnder.invariant ?_ (fun s e t => inv_step) h
    rintro s rfl
    exact inv_listening
  exact hInv.toAttributed

def client : SockaddrIn := ⟨1, 40000⟩
def stranger : SockaddrIn := ⟨2, 40000⟩

def tokenBytes : Bytes := List.replicate tokenLen 0x41

def window : List Event :=
  [.arrives client tokenBytes none, .recvfrom, .create (some 5), .arrives stranger tokenBytes (some 5), .connect true,
    .reply true, .readable 5]

theorem login_misdelivered : ¬ ∀ s, Reachable system s → Attributed s := by
  intro hAll
  have hRun : (system.run listening window).map Port.reads = some [⟨client, stranger, tokenBytes⟩] := by decide
  obtain ⟨s, hReach, hReads⟩ := Reachable.of_observed rfl hRun
  have hSender := (hAll s hReach).reads ⟨client, stranger, tokenBytes⟩ (hReads ▸ List.mem_singleton_self _)
  exact absurd hSender (by decide)

theorem attributed_one_report : ∃ s : Port, s.reads = [⟨client, client, lit "report"⟩] ∧ Attributed s := by
  have hRun : (system.run listening [.arrives client tokenBytes none, .recvfrom, .create (some 5), .connect true,
      .reply true, .arrives client (lit "report") (some 5), .readable 5]).map Port.reads =
      some [⟨client, client, lit "report"⟩] := by decide
  have hMeets : system.Meets Undisturbed listening [.arrives client tokenBytes none, .recvfrom, .create (some 5),
      .connect true, .reply true, .arrives client (lit "report") (some 5), .readable 5] := by
    refine .cons ?_ rfl (.cons trivial rfl (.cons trivial rfl (.cons rfl rfl (.cons trivial rfl
      (.cons ?_ rfl (.cons trivial rfl trivial))))))
    · rintro _ _ ⟨⟩
    · rintro _ _ ⟨⟩
  obtain ⟨s, hReach, hReads⟩ := ReachableUnder.of_observed rfl hMeets hRun
  exact ⟨s, hReads, attributed_of_undisturbed hReach⟩

end MonitorSystem.UdpAccept
