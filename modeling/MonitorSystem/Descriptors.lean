import MonitorSystem.Lib.Descriptor
import MonitorSystem.Lib.Transition
import MonitorSystem.Relogin
import MonitorSystem.ServerFunc

/-! # The descriptors of the sockets

What each system call returns is an argument of the function that makes it; of
the calls whose result is not looked at nothing is said.
-/

namespace MonitorSystem.Descriptors

open Msg Dispatch SendData Lib.CString Lib.Descriptor Lib.Transition

def socketCreate (socket bind listen : Bool) (fds : Finset Nat) : Option Nat × Finset Nat :=
  acquire socket [bind, listen] fds

def socketConnect (socket connect : Bool) (fds : Finset Nat) : Option Nat × Finset Nat :=
  acquire socket [connect] fds

def socketCreateUdp (socket bind : Bool) (fds : Finset Nat) : Option Nat × Finset Nat :=
  acquire socket [bind] fds

def isToken : Recv → Bool
  | .data bytes =>
    let token := bytes.take tokenLen
    token.length = tokenLen ∧ ServerFunc.checkUser token tokenLen = true
  | .eof | .error => false

/-- A connect or a send that fails is reported and no failure of accept_udp. -/
def acceptUdp (token : Recv) (socket bind : Bool) (fds : Finset Nat) : Option Nat × Finset Nat :=
  if isToken token = false then (none, fds) else socketCreateUdp socket bind fds

def sizeofInt : Nat := 4

def isUdpRes : Recv → Bool
  | .data bytes =>
    let res := bytes.take sizeofInt
    res.length = sizeofInt ∧ leNat res = udpRes
  | .eof | .error => false

/-- ready is whether select finds a reply within five seconds. -/
def socketConnectUdp (socket connect ready : Bool) (res : Recv) (fds : Finset Nat) : Option Nat × Finset Nat :=
  acquire socket [connect, ready, isUdpRes res] fds

structure Response where
  token : Sent
  ready : Bool
  reply : Recv

/-- login with a connected socket; none where SIGPIPE ends the process. -/
def answer (sockfd : Nat) (r : Response) (fds : Finset Nat) : Option (Int × Finset Nat) :=
  match r.token with
  | .brokenPipe => none
  | .error => some (0, fds.erase sockfd)
  | .accepted _ =>
    if r.ready = false then some (0, fds.erase sockfd)
    else match r.reply with
      | .error => some (0, fds.erase sockfd)
      | .eof => some (0, fds)
      | .data bytes => if leNat (bytes.take Relogin.ackSize) ≠ 1 then some (0, fds) else some (1, fds)

/-- login; none where the process ends in it. -/
def login (socket connect : Bool) (r : Response) (fds : Finset Nat) : Option (Int × Finset Nat) :=
  match socketConnect socket connect fds with
  | (none, _) => none
  | (some sockfd, fds) => answer sockfd r fds

/-- The descriptors, those of them that are TCP connections to the server, and
the socket of a login that waits for its response. -/
structure State where
  fds : Finset Nat
  connections : Finset Nat
  sockfd : Option Nat

/-- The two halves of a login, and what other threads open and close. -/
inductive Act
  | connect (socket connect : Bool)
  | answer (r : Response)
  | others (fds : Finset Nat)

def step (s : State) : Act → Option State
  | .connect socket connect =>
    match s.sockfd, socketConnect socket connect s.fds with
    | none, (some sockfd, fds) => some ⟨fds, insert sockfd s.connections, some sockfd⟩
    | _, _ => none
  | .answer r =>
    match s.sockfd with
    | none => none
    | some sockfd => (answer sockfd r s.fds).map fun result => ⟨result.2, s.connections ∩ result.2, none⟩
  | .others fds => if s.connections ⊆ fds then some { s with fds := fds } else none

def system : System State Act where
  start s := s.sockfd = none ∧ s.connections ⊆ s.fds ∧ s.connections.card ≤ 1
  step := step

def AtMostOne (s : State) : Prop := s.connections.card ≤ 1

/-- The token is sent and a reply or the end of the stream comes in time: login returns with its socket open. -/
def keeps (r : Response) : Bool :=
  match r.token, r.reply with
  | .accepted _, .eof | .accepted _, .data _ => r.ready
  | _, _ => false

/-- No login connects after one that kept its connection, nor where one was open at the start. -/
def Spaced : Bool → List Act → Prop
  | _, [] => True
  | kept, .connect _ _ :: acts => kept = false ∧ Spaced kept acts
  | kept, .answer r :: acts => Spaced (kept || keeps r) acts
  | kept, .others _ :: acts => Spaced kept acts

theorem socketConnect_cases (socket connect : Bool) (fds : Finset Nat) :
    (socket = true ∧ connect = true ∧
        socketConnect socket connect fds = (some (unused fds), insert (unused fds) fds)) ∨
      ((socket && connect) = false ∧ (socketConnect socket connect fds).1 = none) := by
  cases socket with
  | false => exact .inr ⟨rfl, rfl⟩
  | true =>
    cases connect with
    | false => exact .inr ⟨rfl, rfl⟩
    | true => exact .inl ⟨rfl, rfl, rfl⟩

theorem login_refused {socket connect : Bool} {fds : Finset Nat} (h : (socketConnect socket connect fds).1 = none)
    (r : Response) : login socket connect r fds = none := by
  rw [login]
  split
  · rfl
  · rename_i hSome
    rw [hSome] at h
    cases h

theorem login_connected {fds : Finset Nat} (r : Response) :
    login true true r fds = answer (unused fds) r (insert (unused fds) fds) := rfl

theorem login_result {socket connect : Bool} {a : Relogin.Attempt} (h : a.connected = (socket && connect))
    (fds : Finset Nat) :
    (login socket connect ⟨a.token, a.ready, a.reply⟩ fds).map Prod.fst = Relogin.login a := by
  obtain ⟨connected, token, ready, reply, temp, send, emptied⟩ := a
  obtain rfl : connected = (socket && connect) := h
  obtain ⟨rfl, rfl, _⟩ | ⟨hRefused, hNone⟩ := socketConnect_cases socket connect fds
  · cases token with
    | brokenPipe | error => rfl
    | accepted n =>
      cases ready with
      | false => rfl
      | true =>
        cases reply with
        | error | eof => rfl
        | data bytes => exact apply_ite (Option.map Prod.fst) ..
  · rw [login_refused hNone, Relogin.login, if_pos hRefused]
    rfl

def Rejected (r : Response) : Prop := (∃ n, r.token = .accepted n) ∧ r.ready = true ∧
  (r.reply = .eof ∨ ∃ bytes, r.reply = .data bytes ∧ leNat (bytes.take Relogin.ackSize) ≠ 1)

theorem answer_rejected {r : Response} (h : Rejected r) (sockfd : Nat) (fds : Finset Nat) :
    answer sockfd r fds = some (0, fds) := by
  obtain ⟨⟨n, hToken⟩, hReady, hReply⟩ := h
  rw [answer, hToken, hReady]
  obtain hEof | ⟨bytes, hBytes, hAck⟩ := hReply
  · rw [hEof]
    rfl
  · rw [hBytes]
    exact if_pos hAck

theorem answer_failed {sockfd : Nat} {r : Response} {fds fds' : Finset Nat} (h : answer sockfd r fds = some (0, fds')) :
    (¬ Rejected r ∧ fds' = fds.erase sockfd) ∨ (Rejected r ∧ fds' = fds) := by
  obtain hRejected | hNot := Classical.em (Rejected r)
  · rw [answer_rejected hRejected] at h
    cases h
    exact .inr ⟨hRejected, rfl⟩
  · refine .inl ⟨hNot, ?_⟩
    obtain ⟨token, ready, reply⟩ := r
    cases token with
    | brokenPipe => cases h
    | error =>
      cases h
      rfl
    | accepted n =>
      cases ready with
      | false =>
        cases h
        rfl
      | true =>
        cases reply with
        | error =>
          cases h
          rfl
        | eof => exact absurd ⟨⟨n, rfl⟩, rfl, .inl rfl⟩ hNot
        | data bytes =>
          have h : (if leNat (bytes.take Relogin.ackSize) ≠ 1 then some ((0 : Int), fds) else some (1, fds)) =
            some (0, fds') := h
          split at h
          · rename_i hAck
            exact absurd ⟨⟨n, rfl⟩, rfl, .inr ⟨bytes, rfl, hAck⟩⟩ hNot
          · cases h

theorem login_unchanged_iff {socket connect : Bool} {r : Response} {fds : Finset Nat} :
    (∀ fds', login socket connect r fds = some (0, fds') → fds' = fds) ↔
      (socket = true → connect = true → ¬ Rejected r) := by
  obtain ⟨rfl, rfl, _⟩ | ⟨hRefused, hNone⟩ := socketConnect_cases socket connect fds
  · rw [login_connected]
    constructor
    · intro hAll _ _ hRejected
      exact insert_unused_ne fds (hAll _ (answer_rejected hRejected ..))
    · intro hNot fds' hReturn
      obtain ⟨_, rfl⟩ | ⟨hRejected, _⟩ := answer_failed hReturn
      · exact Finset.erase_insert (unused_notMem fds)
      · exact absurd hRejected (hNot rfl rfl)
  · rw [login_refused hNone]
    refine iff_of_true (fun fds' h => by cases h) (fun hSocket hConnect => ?_)
    rw [hSocket, hConnect] at hRefused
    cases hRefused

theorem answer_cases {sockfd : Nat} {r : Response} {fds : Finset Nat} {result : Int × Finset Nat}
    (h : answer sockfd r fds = some result) :
    (keeps r = true ∧ result.2 = fds) ∨ (keeps r = false ∧ result.2 = fds.erase sockfd) := by
  obtain ⟨token, ready, reply⟩ := r
  cases token with
  | brokenPipe => cases h
  | error =>
    cases h
    exact .inr ⟨rfl, rfl⟩
  | accepted n =>
    cases ready with
    | false =>
      cases h
      cases reply with
      | error => exact .inr ⟨rfl, rfl⟩
      | eof => exact .inr ⟨rfl, rfl⟩
      | data bytes => exact .inr ⟨rfl, rfl⟩
    | true =>
      cases reply with
      | error =>
        cases h
        exact .inr ⟨rfl, rfl⟩
      | eof =>
        cases h
        exact .inl ⟨rfl, rfl⟩
      | data bytes =>
        have h : (if leNat (bytes.take Relogin.ackSize) ≠ 1 then some ((0 : Int), fds) else some (1, fds)) =
          some result := h
        split at h
        · cases h
          exact .inl ⟨rfl, rfl⟩
        · cases h
          exact .inl ⟨rfl, rfl⟩

section runs

variable {s s' : State} {kept : Bool}

/-- Between two logins a connection is open just where one was kept; during one its socket is the only one. -/
structure Inv (s : State) (kept : Bool) : Prop where
  opened : s.connections ⊆ s.fds
  atMostOne : AtMostOne s
  between : s.sockfd = none → (s.connections = ∅ ↔ kept = false)
  during : ∀ sockfd, s.sockfd = some sockfd → s.connections = {sockfd} ∧ kept = false

theorem step_connect {socket connect : Bool} (hStep : step s (.connect socket connect) = some s') :
    s.sockfd = none ∧
      s' = ⟨insert (unused s.fds) s.fds, insert (unused s.fds) s.connections, some (unused s.fds)⟩ := by
  rw [step] at hStep
  obtain ⟨_, _, hSome⟩ | ⟨_, hNone⟩ := socketConnect_cases socket connect s.fds
  · rw [hSome] at hStep
    split at hStep
    · rename_i hIdle hEq
      cases hEq
      cases hStep
      exact ⟨hIdle, rfl⟩
    · cases hStep
  · split at hStep
    · rename_i hEq
      rw [hEq] at hNone
      cases hNone
    · cases hStep

theorem inv_connect {socket connect : Bool} (h : Inv s false) (hStep : step s (.connect socket connect) = some s') :
    Inv s' false := by
  obtain ⟨hIdle, rfl⟩ := step_connect hStep
  have hEmpty : s.connections = ∅ := (h.between hIdle).mpr rfl
  constructor
  · exact Finset.insert_subset_insert _ h.opened
  · rw [AtMostOne, hEmpty]
    rfl
  · intro hNone
    cases hNone
  · intro sockfd hSome
    cases hSome
    rw [hEmpty]
    exact ⟨rfl, rfl⟩

theorem not_atMostOne {socket connect : Bool} (h : Inv s true) (hStep : step s (.connect socket connect) = some s') :
    ¬ AtMostOne s' := by
  obtain ⟨hIdle, rfl⟩ := step_connect hStep
  have hSome : s.connections ≠ ∅ := fun hEmpty => Bool.noConfusion ((h.between hIdle).mp hEmpty)
  have hFresh : unused s.fds ∉ s.connections := fun hMem => unused_notMem s.fds (h.opened hMem)
  have hPos := Finset.card_pos.mpr (Finset.nonempty_iff_ne_empty.mpr hSome)
  rw [AtMostOne, Finset.card_insert_of_notMem hFresh]
  omega

theorem inv_answer {r : Response} (h : Inv s kept) (hStep : step s (.answer r) = some s') :
    Inv s' (kept || keeps r) := by
  rw [step] at hStep
  split at hStep
  · cases hStep
  · rename_i sockfd hSockfd
    obtain ⟨hOnly, rfl⟩ := h.during sockfd hSockfd
    obtain ⟨result, hAnswer, rfl⟩ := Option.map_eq_some_iff.mp hStep
    have hOne : (s.connections ∩ result.2).card ≤ 1 :=
      (Finset.card_le_card Finset.inter_subset_left).trans h.atMostOne
    refine ⟨Finset.inter_subset_right, hOne, fun _ => ?_, fun other hNone => by cases hNone⟩
    have hOpen := h.opened
    rw [hOnly] at hOpen
    dsimp only
    rw [hOnly, Bool.false_or]
    obtain ⟨hKeeps, hSame⟩ | ⟨hKeeps, hErased⟩ := answer_cases hAnswer
    · rw [hKeeps, hSame, Finset.inter_eq_left.mpr hOpen]
      simp
    · rw [hKeeps, hErased]
      simp

theorem inv_others {fds : Finset Nat} (h : Inv s kept) (hStep : step s (.others fds) = some s') : Inv s' kept := by
  obtain ⟨hKept, hEq⟩ := Option.ite_none_right_eq_some.mp hStep
  cases hEq
  exact ⟨hKept, h.atMostOne, h.between, h.during⟩

theorem along_iff_spaced {acts : List Act} (h : Inv s kept) (hRun : system.run s acts = some s') :
    system.Along AtMostOne s acts ↔ Spaced kept acts := by
  induction acts generalizing s kept with
  | nil => exact iff_of_true h.atMostOne trivial
  | cons a acts ih =>
    rw [run_cons] at hRun
    obtain ⟨next, hStep, hRest⟩ := Option.bind_eq_some_iff.mp hRun
    have hStep : step s a = some next := hStep
    have hAlong : system.Along AtMostOne s (a :: acts) ↔ system.Along AtMostOne next acts := by
      rw [System.Along]
      constructor
      · exact fun hAll => hAll.2 next hStep
      · intro hNext
        refine ⟨h.atMostOne, fun t hOther => ?_⟩
        cases hStep.symm.trans hOther
        exact hNext
    rw [hAlong]
    cases a with
    | connect socket connect =>
      rw [Spaced]
      cases kept with
      | false => simpa using ih (inv_connect h hStep) hRest
      | true => exact iff_of_false (fun hNext => not_atMostOne h hStep hNext.here) (fun hFree => by cases hFree.1)
    | answer r => exact ih (inv_answer h hStep) hRest
    | others fds => exact ih (inv_others h hStep) hRest

theorem atMostOne_iff {acts : List Act} (hStart : system.start s) (hRun : system.run s acts = some s') :
    system.Along AtMostOne s acts ↔ Spaced (decide (s.connections ≠ ∅)) acts := by
  obtain ⟨hIdle, hOpened, hOne⟩ := hStart
  apply along_iff_spaced _ hRun
  refine ⟨hOpened, hOne, fun _ => ?_, fun sockfd hSome => ?_⟩
  · simp
  · cases hIdle.symm.trans hSome

end runs

theorem socketCreateUdp_unchanged_iff {socket bind : Bool} {fds : Finset Nat} :
    Unchanged (socketCreateUdp socket bind fds) fds ↔ (socket = true → bind = true) := by
  rw [socketCreateUdp, unchanged_acquire_iff]
  simp

theorem acceptUdp_unchanged_iff {token : Recv} {socket bind : Bool} {fds : Finset Nat} :
    Unchanged (acceptUdp token socket bind fds) fds ↔ (isToken token = true → socket = true → bind = true) := by
  rw [acceptUdp]
  cases isToken token with
  | false => exact iff_of_true (fun _ => rfl) (fun h => absurd h Bool.false_ne_true)
  | true =>
    rw [if_neg (by decide), socketCreateUdp_unchanged_iff]
    exact ⟨fun h _ => h, fun h => h rfl⟩

/-- A function that fails leaves open what was open exactly where no call after
its socket fails, and login also where it closes the socket itself; relogin
holds one connection exactly where no login connects after one that kept its own. -/
theorem descriptors_iff (fds : Finset Nat) (socket bind listen connect ready : Bool) (token res : Recv)
    (r : Response) :
    (Unchanged (socketCreate socket bind listen fds) fds ↔ (socket = true → bind = true ∧ listen = true)) ∧
    (Unchanged (socketConnect socket connect fds) fds ↔ (socket = true → connect = true)) ∧
    (Unchanged (socketCreateUdp socket bind fds) fds ↔ (socket = true → bind = true)) ∧
    (Unchanged (acceptUdp token socket bind fds) fds ↔ (isToken token = true → socket = true → bind = true)) ∧
    (Unchanged (socketConnectUdp socket connect ready res fds) fds ↔
      (socket = true → connect = true ∧ ready = true ∧ isUdpRes res = true)) ∧
    ((∀ fds', login socket connect r fds = some (0, fds') → fds' = fds) ↔
      (socket = true → connect = true → ¬ Rejected r)) ∧
    ∀ acts s s', system.start s → system.run s acts = some s' →
      (system.Along AtMostOne s acts ↔ Spaced (decide (s.connections ≠ ∅)) acts) := by
  refine ⟨?create, ?connect, socketCreateUdp_unchanged_iff, acceptUdp_unchanged_iff, ?connectUdp,
    login_unchanged_iff, ?runs⟩
  case create =>
    rw [socketCreate, unchanged_acquire_iff]
    simp
  case connect =>
    rw [socketConnect, unchanged_acquire_iff]
    simp
  case connectUdp =>
    rw [socketConnectUdp, unchanged_acquire_iff]
    simp
  case runs =>
    intro acts s s' hStart hRun
    exact atMostOne_iff hStart hRun

def accepted : Response := ⟨.accepted tokenLen, true, .data [1, 0, 0, 0]⟩

def connected : State := ⟨{0, 1, 2, 3}, {3}, none⟩

/-- The socket of a refused connect stays open, and so does the connection that
relogin replaces. -/
theorem connection_replaced : ¬ (∀ socket connect fds, Unchanged (socketConnect socket connect fds) fds) ∧
    ¬ ∀ acts s s', system.start s → system.run s acts = some s' → system.Along AtMostOne s acts := by
  constructor
  · intro hAll
    exact absurd (hAll true false {0, 1, 2} rfl) (by decide)
  · intro hAll
    have hStart : system.start connected := ⟨rfl, by decide, by decide⟩
    obtain ⟨_, hNext⟩ := hAll [.connect true true] connected _ hStart rfl
    have hOne : ({4, 3} : Finset Nat).card ≤ 1 := hNext _ rfl
    exact absurd hOne (by decide)

/-- The server gives no answer to the first login and accepts the second. -/
theorem descriptors_unanswered : system.Along AtMostOne ⟨{0, 1, 2}, ∅, none⟩
    [.connect true true, .answer { accepted with ready := false }, .connect true true, .answer accepted] := by
  obtain ⟨_, _, _, _, _, _, hRuns⟩ := descriptors_iff {0, 1, 2} true true true true true .error .error accepted
  apply (hRuns _ _ _ ⟨rfl, by decide, by decide⟩ rfl).mpr
  exact ⟨rfl, rfl, trivial⟩

end MonitorSystem.Descriptors
