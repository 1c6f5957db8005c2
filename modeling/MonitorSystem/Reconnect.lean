import MonitorSystem.Login

/-! # Three threads on one descriptor during a reconnect

login stores the new descriptor in the global sockfd before it sends the token.
The sender and the heartbeat loop use sockfd without a lock; before the new
connection exists it names the old one, where they change nothing here.
-/

namespace MonitorSystem.Reconnect

open Msg Dispatch ServerFunc Login Lib.CString Lib.Socket Lib.Transition

structure Frame where
  msg : MonitorMsgDs
  pad : Bytes
  pad_length : pad.length = padding

def Frame.image (f : Frame) : Bytes := f.msg.image f.pad

inductive Thread
  | relogin
  | main
deriving DecidableEq

/-- heart is the message the heartbeat loop is about to send; readers records
which thread made each recv on the new connection. -/
structure Client where
  shake : Handshake
  heart : Option MonitorMsgDs
  readers : List Thread

inductive Act
  | handshake (a : Login.Act)
  | report (f : Frame)
  | heartRecvOld (msg : MonitorMsgDs)
  | heartRecv (got : Got)
  | heartAck (pad : Bytes)
  | doDispatch (got : Got)
  | heartBeat (f : Frame)
  | giveUp

def answer (msg : MonitorMsgDs) : Option MonitorMsgDs :=
  if msg.type &&& piHeart ≠ 0 then some { msg with type := piAck } else none

/-- send(sockfd, ...) of a structure by a thread other than login. -/
def Client.send (c : Client) (image : Bytes) : Client :=
  if c.shake.login = .connect ∨ c.shake.hungUp then c
  else { c with shake := { c.shake with up := c.shake.up.send image } }

def reads : Login.Act → List Thread
  | .recvAck (.bytes _) => [.relogin]
  | _ => []

def Client.heartRecv (c : Client) (got : Got) : Client :=
  let msg := ofStorage (recvInto (List.replicate sizeofMsg 0) (.data (c.shake.down.chunk got)))
  match got with
  | .bytes n => { c with
      shake := { c.shake with down := c.shake.down.recv (.bytes n) }
      heart := answer msg
      readers := c.readers ++ [.main] }
  | _ => { c with heart := none }

def Client.close (c : Client) : Client :=
  { c with shake := { c.shake with doLogin := .closed, epollfd := false } }

def step (p : Peers) (c : Client) : Act → Option Client
  | .handshake a => (Login.step p c.shake a).map fun s =>
    { c with shake := s, readers := c.readers ++ reads a }
  | .report f => some (c.send f.image)
  | .heartRecvOld msg => if c.heart = none then some { c with heart := answer msg } else none
  | .heartRecv got =>
    if c.heart = none ∧ c.shake.login ≠ .connect ∧ c.shake.hungUp = false ∧
        c.shake.down.allows (c.shake.doLogin = .closed) sizeofMsg got then
      some (c.heartRecv got)
    else none
  | .heartAck pad => c.heart.bind fun msg =>
    if pad.length = padding then some { c.send (msg.image pad) with heart := none } else none
  | .doDispatch got =>
    if c.shake.epollfd ∧ c.shake.up.allows c.shake.hungUp sizeofMsg got then
      match got with
      | .bytes n => some { c with shake := { c.shake with up := c.shake.up.recv (.bytes n) } }
      | _ => some c.close
    else none
  | .heartBeat f =>
    if (c.shake.doLogin = .addToReactor ∨ c.shake.doLogin = .registered) ∧ f.msg.type = piHeart then
      some { c with shake := { c.shake with down := c.shake.down.send f.image } }
    else none
  | .giveUp =>
    if c.shake.doLogin = .registered then some c.close else none

def system (p : Peers) : System Client Act where
  start c := ∃ clients heart, c = ⟨initial clients, heart, []⟩
  step := step p

/-- The token is the first message on the new connection, its reply is read by
login, login has returned 1 only after reading the reply 1, and every recv of
both sides returned one whole message. -/
structure Orderly (p : Peers) (c : Client) : Prop where
  token_first : ∀ m ∈ c.shake.up.sent.head?, m = p.token.text
  reply_to_login : ∀ t ∈ c.readers.head?, t = .relogin
  own_reply : c.shake.login = .returned 1 →
    c.shake.down.read.head? = some (leBytes 4 1) ∧ c.readers.head? = some .relogin
  up : c.shake.up.Aligned
  down : c.shake.down.Aligned

def hasReturned : Calling → Bool
  | .returned _ => true
  | _ => false

/-- Every recv returns one whole message, no thread sends on the new connection
before login has sent the token, and the heartbeat loop reads from it only
after login has returned. -/
def Clean (p : Peers) (c : Client) : Act → Prop
  | .handshake (.recvAck (.bytes n)) => n = 4
  | .handshake (.recvToken (.bytes n)) => n = p.token.text.length
  | .report _ | .heartAck _ => c.shake.login ≠ .send
  | .heartRecv (.bytes n) => n = sizeofMsg ∧ hasReturned c.shake.login = true
  | .doDispatch (.bytes n) => n = sizeofMsg
  | _ => True

instance (p : Peers) (c : Client) : ∀ a, Decidable (Clean p c a)
  | .handshake (.recvAck (.bytes n)) => inferInstanceAs (Decidable (n = 4))
  | .handshake (.recvToken (.bytes n)) => inferInstanceAs (Decidable (n = p.token.text.length))
  | .report _ | .heartAck _ => inferInstanceAs (Decidable (c.shake.login ≠ .send))
  | .heartRecv (.bytes n) => inferInstanceAs (Decidable (n = sizeofMsg ∧ hasReturned c.shake.login = true))
  | .doDispatch (.bytes n) => inferInstanceAs (Decidable (n = sizeofMsg))
  | .handshake (.recvAck .eof) | .handshake (.recvAck .error) | .handshake (.recvToken .eof)
  | .handshake (.recvToken .error) | .handshake .connect | .handshake (.sendToken _) | .handshake (.select _)
  | .handshake .accept | .handshake (.selectToken _) | .handshake .checkOnline | .handshake (.sendAck _)
  | .handshake .compare | .handshake .insert | .handshake (.addToReactor _) | .heartRecvOld _
  | .heartRecv .eof | .heartRecv .error | .doDispatch .eof | .doDispatch .error | .heartBeat _ | .giveUp =>
    inferInstanceAs (Decidable True)

def awaits : Serving → Bool
  | .accept | .select | .recv => true
  | _ => false

def replied : Serving → Bool
  | .compare _ _ | .insert | .addToReactor | .registered => true
  | _ => false

def Frames (msgs : List Bytes) : Prop := ∀ m ∈ msgs, m.length = sizeofMsg

def Silent (s : Handshake) : Prop := s.login = .connect ∨ s.login = .send ∨ s.hungUp = true

def Spoke (s : Handshake) : Prop := s.login ≠ .connect ∧ s.login ≠ .send

/-- What was sent to the server, and how much of it the server has read. -/
inductive UpAt (p : Peers) (s : Handshake) : Prop
  | unsent (hSent : s.up.sent = []) (hRead : s.up.read = []) (hLogin : Silent s)
      (hServing : awaits s.doLogin = true ∨ s.doLogin = .closed)
  | unread (msgs : List Bytes) (hSent : s.up.sent = p.token.text :: msgs) (hRead : s.up.read = [])
      (hFrames : Frames msgs) (hLogin : Spoke s)
      (hServing : awaits s.doLogin = true ∨ s.doLogin = .closed)
  | read (done rest : List Bytes) (hSent : s.up.sent = p.token.text :: (done ++ rest))
      (hRead : s.up.read = p.token.text :: done) (hFrames : Frames rest) (hLogin : Spoke s)
      (hServing : awaits s.doLogin = false)

def Empty (s : Handshake) (why : Prop) : Prop := ∀ v, s.login = .returned v → v = 0 ∧ why

inductive DownAt (s : Handshake) (readers : List Thread) : Prop
  | unsent (hSent : s.down.sent = []) (hRead : s.down.read = []) (hReaders : readers = [])
      (hLogin : Empty s (s.hungUp = true ∨ s.doLogin = .closed))
      (hServing : replied s.doLogin = false)
  | unread (ack : Nat) (msgs : List Bytes) (hAck : ack ≤ 1)
      (hSent : s.down.sent = leBytes 4 ack :: msgs) (hRead : s.down.read = [])
      (hReaders : readers = []) (hFrames : Frames msgs) (hLogin : Empty s (s.hungUp = true))
      (hServing : replied s.doLogin = true ∨ s.doLogin = .closed)
  | read (ack : Nat) (done rest : List Bytes) (hAck : ack ≤ 1)
      (hSent : s.down.sent = leBytes 4 ack :: (done ++ rest))
      (hRead : s.down.read = leBytes 4 ack :: done)
      (hReaders : readers.head? = some .relogin) (hFrames : Frames rest)
      (hLogin : s.login = .returned (if ack = 1 then 1 else 0))
      (hServing : replied s.doLogin = true ∨ s.doLogin = .closed)

structure Inv (p : Peers) (c : Client) : Prop where
  up : UpAt p c.shake
  down : DownAt c.shake c.readers
  ack : ∀ token_tmp ack, c.shake.doLogin = .send token_tmp ack → ack ≤ 1
  reactor : c.shake.epollfd = true → c.shake.doLogin = .registered

section

variable {p : Peers} {c : Client} {s t : Handshake} {readers : List Thread}

theorem Inv.orderly (h : Inv p c) : Orderly p c := by
  constructor
  · intro m hm
    cases h.up with
    | unsent hSent =>
      rw [hSent] at hm
      cases hm
    | unread msgs hSent | read done rest hSent =>
      rw [hSent] at hm
      exact (Option.mem_some_iff.mp hm).symm
  · intro thread hThread
    cases h.down with
    | unsent _ _ hReaders | unread _ _ _ _ _ hReaders =>
      rw [hReaders] at hThread
      cases hThread
    | read _ _ _ _ _ _ hReaders =>
      rw [hReaders] at hThread
      exact (Option.mem_some_iff.mp hThread).symm
  · intro hOne
    cases h.down with
    | unsent _ _ _ hLogin | unread _ _ _ _ _ _ _ hLogin => exact absurd (hLogin 1 hOne).1 (by decide)
    | read ack _ _ _ _ hRead hReaders _ hLogin =>
      have hAck : ack = 1 := by
        by_contra hOther
        rw [hOne, if_neg hOther] at hLogin
        cases hLogin
      exact ⟨by rw [hRead, hAck]; rfl, hReaders⟩
  · cases h.up with
    | unsent _ hRead | unread _ _ hRead =>
      rw [ByteStream.Aligned, hRead]
      exact List.nil_prefix
    | read done rest hSent hRead =>
      rw [ByteStream.Aligned, hRead, hSent]
      exact ⟨rest, rfl⟩
  · cases h.down with
    | unsent _ hRead | unread _ _ _ _ hRead =>
      rw [ByteStream.Aligned, hRead]
      exact List.nil_prefix
    | read ack done rest _ hSent hRead =>
      rw [ByteStream.Aligned, hRead, hSent]
      exact ⟨rest, rfl⟩

theorem UpAt.frame (h : UpAt p s) (hUp : t.up = s.up) (hSilent : Silent s → Silent t) (hSpoke : Spoke s → Spoke t)
    (hEarly : awaits s.doLogin = true ∨ s.doLogin = .closed → awaits t.doLogin = true ∨ t.doLogin = .closed)
    (hLate : awaits s.doLogin = false → awaits t.doLogin = false) : UpAt p t := by
  cases h with
  | unsent hSent hRead hLogin hServing =>
    exact .unsent (hUp ▸ hSent) (hUp ▸ hRead) (hSilent hLogin) (hEarly hServing)
  | unread msgs hSent hRead hFrames hLogin hServing =>
    exact .unread msgs (hUp ▸ hSent) (hUp ▸ hRead) hFrames (hSpoke hLogin) (hEarly hServing)
  | read done rest hSent hRead hFrames hLogin hServing =>
    exact .read done rest (hUp ▸ hSent) (hUp ▸ hRead) hFrames (hSpoke hLogin) (hLate hServing)

def Moves (d e : Serving) : Prop :=
  d ≠ .closed ∧ (e = .closed ∨ (awaits e = awaits d ∧ replied e = replied d))

theorem DownAt.serves (h : DownAt s readers) (hDown : t.down = s.down) (hLogin : t.login = s.login)
    (hHung : t.hungUp = s.hungUp) (hOpen : s.doLogin ≠ .closed)
    (hReply : t.doLogin = .closed ∨ replied t.doLogin = replied s.doLogin) :
    DownAt t readers := by
  have hServing : replied s.doLogin = true ∨ s.doLogin = .closed →
      replied t.doLogin = true ∨ t.doLogin = .closed := by
    intro hReplied
    obtain hClosed | hSame := hReply
    · exact .inr hClosed
    · exact .inl (hSame.trans (hReplied.resolve_right hOpen))
  cases h with
  | unsent hSent hRead hReaders hEmpty hUnreplied =>
    refine .unsent (hDown ▸ hSent) (hDown ▸ hRead) hReaders ?_ ?_
    · intro v hReturned
      obtain ⟨hZero, hWhy⟩ := hEmpty v (hLogin ▸ hReturned)
      exact ⟨hZero, .inl (hHung ▸ hWhy.resolve_right hOpen)⟩
    · obtain hClosed | hSame := hReply
      · rw [hClosed]
        rfl
      · exact hSame.trans hUnreplied
  | unread ack msgs hAck hSent hRead hReaders hFrames hEmpty hReplied =>
    refine .unread ack msgs hAck (hDown ▸ hSent) (hDown ▸ hRead) hReaders hFrames ?_ (hServing hReplied)
    intro v hReturned
    exact hHung ▸ hEmpty v (hLogin ▸ hReturned)
  | read ack done rest hAck hSent hRead hReaders hFrames hReturned hReplied =>
    exact .read ack done rest hAck (hDown ▸ hSent) (hDown ▸ hRead) hReaders hFrames (hLogin ▸ hReturned)
      (hServing hReplied)

theorem DownAt.calls (h : DownAt s readers) (hDown : t.down = s.down) (hServing : t.doLogin = s.doLogin)
    (hRunning : ∀ v, s.login ≠ .returned v) (hEmpty : Empty t (t.hungUp = true)) :
    DownAt t readers := by
  cases h with
  | unsent hSent hRead hReaders _ hReplied =>
    refine .unsent (hDown ▸ hSent) (hDown ▸ hRead) hReaders ?_ (hServing ▸ hReplied)
    exact fun v hReturned => (hEmpty v hReturned).imp id .inl
  | unread ack msgs hAck hSent hRead hReaders hFrames _ hReplied =>
    exact .unread ack msgs hAck (hDown ▸ hSent) (hDown ▸ hRead) hReaders hFrames hEmpty (hServing ▸ hReplied)
  | read _ _ _ _ _ _ _ _ hReturned => exact absurd hReturned (hRunning _)

theorem Inv.serves (h : Inv p c) (hUp : t.up = c.shake.up) (hDown : t.down = c.shake.down)
    (hLogin : t.login = c.shake.login) (hHung : t.hungUp = c.shake.hungUp)
    (hMoves : Moves c.shake.doLogin t.doLogin) (hAck : ∀ token_tmp ack, t.doLogin = .send token_tmp ack → ack ≤ 1)
    (hReactor : t.epollfd = true → t.doLogin = .registered) : Inv p { c with shake := t } := by
  obtain ⟨hOpen, hMoved⟩ := hMoves
  refine ⟨h.up.frame hUp ?_ ?_ ?_ ?_, h.down.serves hDown hLogin hHung hOpen (hMoved.imp id And.right), hAck,
    hReactor⟩
  · rintro (hConnect | hSend | hHungUp)
    · exact .inl (hLogin ▸ hConnect)
    · exact .inr (.inl (hLogin ▸ hSend))
    · exact .inr (.inr (hHung ▸ hHungUp))
  · exact fun hSpoke => ⟨hLogin ▸ hSpoke.1, hLogin ▸ hSpoke.2⟩
  · intro hEarly
    obtain hClosed | hSame := hMoved
    · exact .inr hClosed
    · exact .inl (hSame.1.trans (hEarly.resolve_right hOpen))
  · intro hLate
    obtain hClosed | hSame := hMoved
    · rw [hClosed]
      rfl
    · exact hSame.1.trans hLate

theorem Inv.calls (h : Inv p c) (hUp : t.up = c.shake.up) (hDown : t.down = c.shake.down)
    (hServing : t.doLogin = c.shake.doLogin) (hReactor : t.epollfd = c.shake.epollfd)
    (hSilent : Silent c.shake → Silent t) (hSpoke : Spoke c.shake → Spoke t)
    (hRunning : ∀ v, c.shake.login ≠ .returned v) (hEmpty : Empty t (t.hungUp = true)) :
    Inv p { c with shake := t } := by
  refine ⟨h.up.frame hUp hSilent hSpoke ?_ ?_, h.down.calls hDown hServing hRunning hEmpty, ?_, ?_⟩
  · exact fun hEarly => hServing ▸ hEarly
  · exact fun hLate => hServing ▸ hLate
  · exact fun token_tmp ack hSend => h.ack token_tmp ack (hServing ▸ hSend)
  · exact fun hIn => hServing ▸ h.reactor (hReactor ▸ hIn)

theorem Inv.connect (h : Inv p c) (hLogin : c.shake.login = .connect) :
    Inv p { c with shake := { c.shake with login := .send } } := by
  refine h.calls rfl rfl rfl rfl ?_ ?_ ?_ ?_
  · exact fun _ => .inr (.inl rfl)
  · exact fun hSpoke => absurd hLogin hSpoke.1
  · simp [hLogin]
  · exact fun v hReturned => by cases hReturned

theorem Inv.sendToken (h : Inv p c) (hLogin : c.shake.login = .send) :
    Inv p { c with shake := { c.shake with up := c.shake.up.send p.token.text, login := .select } } := by
  refine ⟨?_, ?_, h.ack, h.reactor⟩
  · cases h.up with
    | unsent hSent hRead _ hServing =>
      refine .unread [] ?_ hRead (fun m hm => by cases hm) (by simp [Spoke]) hServing
      rw [ByteStream.send, hSent, List.nil_append]
    | unread _ _ _ _ hSpoke | read _ _ _ _ _ hSpoke => exact absurd hLogin hSpoke.2
  · refine h.down.calls rfl rfl ?_ ?_
    · simp [hLogin]
    · exact fun v hReturned => by cases hReturned

theorem Inv.hangUp (h : Inv p c) (hRunning : ∀ v, c.shake.login ≠ .returned v) :
    Inv p { c with shake := { c.shake with hungUp := true, login := .returned 0 } } := by
  refine h.calls rfl rfl rfl rfl ?_ ?_ hRunning ?_
  · exact fun _ => .inr (.inr rfl)
  · exact fun _ => ⟨by simp, by simp⟩
  · exact fun v hReturned => ⟨by cases hReturned; rfl, rfl⟩

theorem Inv.select (h : Inv p c) (hLogin : c.shake.login = .select) :
    Inv p { c with shake := { c.shake with login := .recv } } := by
  refine h.calls rfl rfl rfl rfl ?_ ?_ ?_ ?_
  · simp [Silent, hLogin]
  · simp [Spoke]
  · simp [hLogin]
  · exact fun v hReturned => by cases hReturned

theorem leNat_leBytes_ack {ack : Nat} (hAck : ack ≤ 1) : leNat (leBytes 4 ack) = 1 ↔ ack = 1 := by
  rw [leNat_leBytes, Nat.mod_eq_of_lt (by omega)]

theorem Inv.recvAck (h : Inv p c) (hLogin : c.shake.login = .recv) {closed : Bool}
    (hAllows : c.shake.down.allows closed 4 (.bytes 4) = true) :
    Inv p { c with
      shake := { c.shake with
        down := c.shake.down.recv (.bytes 4)
        hungUp := c.shake.hungUp || Got.bytes 4 = .error
        login := .returned (if leNat (c.shake.down.chunk (.bytes 4)) = 1 then 1 else 0) }
      readers := c.readers ++ [.relogin] } := by
  rw [ByteStream.allows, decide_eq_true_iff] at hAllows
  refine ⟨h.up.frame rfl ?_ ?_ id id, ?_, h.ack, h.reactor⟩
  · simp [Silent, hLogin]
  · simp [Spoke]
  · cases h.down with
    | unsent hSent hRead =>
      rw [ByteStream.pending_of_unread hRead, hSent] at hAllows
      exact absurd hAllows.2.2 (by decide)
    | unread ack msgs hAck hSent hRead hReaders hFrames _ hServing =>
      have hNext : c.shake.down.sent = c.shake.down.read ++ leBytes 4 ack :: msgs := by
        rw [hSent, hRead, List.nil_append]
      have hChunk := ByteStream.take_next hNext
      have hRecv := ByteStream.recv_next hNext
      rw [length_leBytes] at hChunk hRecv
      refine .read ack [] msgs hAck ?_ ?_ ?_ hFrames ?_ hServing
      · rw [hRecv]
        exact hSent
      · rw [hRecv, hRead, List.nil_append]
      · rw [hReaders]
        rfl
      · simp only [ByteStream.chunk, hChunk, leNat_leBytes_ack hAck]
    | read _ _ _ _ _ _ _ _ hReturned => exact absurd (hLogin.symm.trans hReturned) (by simp)

theorem Inv.recvFailed (h : Inv p c) (hLogin : c.shake.login = .recv) :
    Inv p { c with shake := { c.shake with
      down := c.shake.down.recv .error
      hungUp := c.shake.hungUp || Got.error = .error
      login := .returned (if leNat (c.shake.down.chunk .error) = 1 then 1 else 0) } } := by
  refine h.calls rfl rfl rfl rfl ?_ ?_ ?_ ?_
  · simp [Silent]
  · simp [Spoke]
  · simp [hLogin]
  · intro v hReturned
    cases hReturned
    exact ⟨rfl, by simp⟩

theorem Inv.recvEof (h : Inv p c) (hLogin : c.shake.login = .recv)
    (hAllows : c.shake.down.allows (c.shake.doLogin = .closed) 4 .eof = true) :
    Inv p { c with shake := { c.shake with
      down := c.shake.down.recv .eof
      hungUp := c.shake.hungUp || Got.eof = .error
      login := .returned (if leNat (c.shake.down.chunk .eof) = 1 then 1 else 0) } } := by
  rw [ByteStream.allows, decide_eq_true_iff, decide_eq_true_iff] at hAllows
  refine ⟨h.up.frame rfl ?_ ?_ id id, ?_, h.ack, h.reactor⟩
  · simp [Silent, hLogin]
  · simp [Spoke]
  · cases h.down with
    | unsent hSent hRead hReaders _ hServing =>
      refine .unsent hSent hRead hReaders ?_ hServing
      intro v hReturned
      cases hReturned
      exact ⟨rfl, .inr hAllows.2⟩
    | unread ack msgs _ hSent hRead =>
      have hPending := hAllows.1
      rw [ByteStream.pending_of_unread hRead, hSent, List.flatten_cons, List.append_eq_nil_iff] at hPending
      exact absurd (congrArg List.length hPending.1) (by rw [length_leBytes]; decide)
    | read _ _ _ _ _ _ _ _ hReturned => exact absurd (hLogin.symm.trans hReturned) (by simp)

theorem Inv.idle (h : Inv p c) {d : Serving} (hServing : c.shake.doLogin = d) (hOpen : d ≠ .registered) :
    c.shake.epollfd = false := by
  rw [← Bool.not_eq_true]
  exact fun hIn => hOpen (hServing.symm.trans (h.reactor hIn))

theorem Inv.moves (h : Inv p c) {d e : Serving} (hServing : c.shake.doLogin = d) (hOpen : d ≠ .registered)
    (hMoves : Moves d e) (hAck : ∀ token_tmp ack, e = .send token_tmp ack → ack ≤ 1) :
    Inv p { c with shake := { c.shake with doLogin := e } } := by
  refine h.serves rfl rfl rfl rfl (hServing ▸ hMoves) hAck ?_
  intro hIn
  exact absurd (h.idle hServing hOpen) (by simpa using hIn)

theorem Inv.closes (h : Inv p c) {d : Serving} (hServing : c.shake.doLogin = d) (hOpen : d ≠ .registered)
    (hFirst : d ≠ .closed) : Inv p { c with shake := { c.shake with doLogin := .closed } } :=
  h.moves hServing hOpen ⟨hFirst, .inl rfl⟩ (by simp)

theorem Inv.recvToken (h : Inv p c) (hServing : c.shake.doLogin = .recv)
    (hAllows : c.shake.up.allows c.shake.hungUp 100 (.bytes p.token.text.length) = true) (token_tmp : Bytes) :
    Inv p { c with shake := { c.shake with
      up := c.shake.up.recv (.bytes p.token.text.length)
      doLogin := .checkOnline token_tmp } } := by
  rw [ByteStream.allows, decide_eq_true_iff] at hAllows
  refine ⟨?_, h.down.serves rfl rfl rfl (by simp [hServing]) (.inr (by rw [hServing]; rfl)), by simp, ?_⟩
  · cases h.up with
    | unsent hSent hRead =>
      rw [ByteStream.pending_of_unread hRead, hSent] at hAllows
      exact absurd (hAllows.1.trans_le hAllows.2.2) (by simp)
    | unread msgs hSent hRead hFrames hSpoke =>
      have hNext : c.shake.up.sent = c.shake.up.read ++ p.token.text :: msgs := by
        rw [hSent, hRead, List.nil_append]
      refine .read [] msgs ?_ ?_ hFrames hSpoke rfl
      · rw [ByteStream.recv_next hNext]
        exact hSent
      · rw [ByteStream.recv_next hNext, hRead, List.nil_append]
    | read _ _ _ _ _ _ hLate => exact absurd hLate (by rw [hServing]; decide)
  · intro hIn
    exact absurd (h.idle hServing (by decide)) (by simpa using hIn)

theorem Inv.checkOnline (h : Inv p c) {token_tmp : Bytes} (hServing : c.shake.doLogin = .checkOnline token_tmp) :
    Inv p { c with shake := { c.shake with
      doLogin := .send token_tmp (if ServerFunc.checkOnline c.shake.clients p.addr then 0 else 1) } } := by
  refine h.moves hServing (by simp) ⟨by simp, .inr ⟨rfl, rfl⟩⟩ ?_
  intro token_tmp' ack hSend
  cases hSend
  split <;> decide

theorem Inv.sendAck (h : Inv p c) {token_tmp : Bytes} {ack : Nat}
    (hServing : c.shake.doLogin = .send token_tmp ack) :
    Inv p { c with shake := { c.shake with
      down := c.shake.down.send (leBytes 4 ack)
      doLogin := .compare token_tmp ack } } := by
  have hAck := h.ack token_tmp ack hServing
  refine ⟨h.up.frame rfl id id ?_ fun _ => rfl, ?_, by simp, ?_⟩
  · simp [hServing, awaits]
  · cases h.down with
    | unsent hSent hRead hReaders hEmpty =>
      refine .unread ack [] hAck ?_ hRead hReaders (fun m hm => by cases hm) ?_ (.inl rfl)
      · rw [ByteStream.send, hSent, List.nil_append]
      · intro v hReturned
        obtain ⟨hZero, hWhy⟩ := hEmpty v hReturned
        exact ⟨hZero, hWhy.resolve_right (by simp [hServing])⟩
    | unread _ _ _ _ _ _ _ _ hReplied | read _ _ _ _ _ _ _ _ _ hReplied =>
      exact absurd hReplied (by simp [hServing, replied])
  · intro hIn
    exact absurd (h.idle hServing (by simp)) (by simpa using hIn)

theorem Inv.insert (h : Inv p c) (hServing : c.shake.doLogin = .insert)
    (clients : AList fun _ : Fd => ClientDs) :
    Inv p { c with shake := { c.shake with clients := clients, doLogin := .addToReactor } } := by
  refine h.serves rfl rfl rfl rfl ?_ (by simp) ?_
  · rw [hServing]
    exact ⟨by decide, .inr ⟨rfl, rfl⟩⟩
  · intro hIn
    exact absurd (h.idle hServing (by decide)) (by simpa using hIn)

theorem Inv.addToReactor (h : Inv p c) (hServing : c.shake.doLogin = .addToReactor) (added : Bool) :
    Inv p { c with shake := { c.shake with epollfd := added, doLogin := .registered } } := by
  refine h.serves rfl rfl rfl rfl ?_ (by simp) fun _ => rfl
  rw [hServing]
  exact ⟨by decide, .inr ⟨rfl, rfl⟩⟩

theorem Frames.append {msgs : List Bytes} (h : Frames msgs) {f : Bytes} (hf : f.length = sizeofMsg) :
    Frames (msgs ++ [f]) := by
  intro m hm
  obtain hm | hm := List.mem_append.mp hm
  · exact h m hm
  · rwa [List.mem_singleton.mp hm]

theorem UpAt.send (h : UpAt p s) (hOpen : ¬ Silent s) {f : Bytes} (hf : f.length = sizeofMsg) :
    UpAt p { s with up := s.up.send f } := by
  cases h with
  | unsent _ _ hLogin => exact absurd hLogin hOpen
  | unread msgs hSent hRead hFrames hLogin hServing =>
    refine .unread (msgs ++ [f]) ?_ hRead (hFrames.append hf) hLogin hServing
    rw [ByteStream.send, hSent]
    rfl
  | read done rest hSent hRead hFrames hLogin hServing =>
    refine .read done (rest ++ [f]) ?_ hRead (hFrames.append hf) hLogin hServing
    rw [ByteStream.send, hSent, ← List.append_assoc]
    rfl

theorem DownAt.up (h : DownAt s readers) (up : ByteStream) : DownAt { s with up := up } readers := by
  cases h with
  | unsent hSent hRead hReaders hLogin hServing => exact .unsent hSent hRead hReaders hLogin hServing
  | unread ack msgs hAck hSent hRead hReaders hFrames hLogin hServing =>
    exact .unread ack msgs hAck hSent hRead hReaders hFrames hLogin hServing
  | read ack done rest hAck hSent hRead hReaders hFrames hLogin hServing =>
    exact .read ack done rest hAck hSent hRead hReaders hFrames hLogin hServing

theorem Inv.send (h : Inv p c) (hSend : c.shake.login ≠ .send) {f : Bytes} (hf : f.length = sizeofMsg) :
    Inv p (c.send f) := by
  rw [Client.send]
  split
  · exact h
  · rename_i hOpen
    rw [not_or] at hOpen
    refine ⟨h.up.send ?_ hf, h.down.up _, h.ack, h.reactor⟩
    rintro (hConnect | hSending | hHungUp)
    · exact hOpen.1 hConnect
    · exact hSend hSending
    · exact hOpen.2 hHungUp

theorem Inv.close (h : Inv p c) (hIn : c.shake.doLogin = .registered) : Inv p c.close := by
  refine h.serves rfl rfl rfl rfl ?_ (fun _ _ hSend => by cases hSend) fun hReg => by cases hReg
  rw [hIn]
  exact ⟨by decide, .inl rfl⟩

theorem next_frame {s : ByteStream} {first : Bytes} {done rest : List Bytes} {closed : Bool} {n : Nat}
    (hSent : s.sent = first :: (done ++ rest)) (hRead : s.read = first :: done) (hFrames : Frames rest)
    (hn : n = sizeofMsg) (hAllows : s.allows closed sizeofMsg (.bytes n) = true) :
    ∃ m rest', rest = m :: rest' ∧ Frames rest' ∧ s.recv (.bytes n) = ⟨s.sent, first :: (done ++ [m])⟩ := by
  have hSplit : s.sent = s.read ++ rest := by
    rw [hSent, hRead, List.cons_append]
  rw [ByteStream.allows, decide_eq_true_iff, ByteStream.pending_eq hSplit] at hAllows
  cases rest with
  | nil => exact absurd (hAllows.1.trans_le hAllows.2.2) (by simp)
  | cons m rest =>
    refine ⟨m, rest, rfl, fun m' hm => hFrames m' (List.mem_cons_of_mem m hm), ?_⟩
    rw [hn, ← hFrames m List.mem_cons_self, ByteStream.recv_next hSplit, hRead, List.cons_append]

theorem Inv.doDispatch (h : Inv p c) {n : Nat} (hn : n = sizeofMsg) (hReactor : c.shake.epollfd = true)
    (hAllows : c.shake.up.allows c.shake.hungUp sizeofMsg (.bytes n) = true) :
    Inv p { c with shake := { c.shake with up := c.shake.up.recv (.bytes n) } } := by
  have hIn := h.reactor hReactor
  refine ⟨?_, h.down.up _, h.ack, h.reactor⟩
  cases h.up with
  | unsent _ _ _ hEarly | unread _ _ _ _ _ hEarly => exact absurd hEarly (by simp [hIn, awaits])
  | read done rest hSent hRead hFrames hLogin hLate =>
    obtain ⟨m, rest', rfl, hFrames', hRecv⟩ := next_frame hSent hRead hFrames hn hAllows
    refine .read (done ++ [m]) rest' ?_ ?_ hFrames' hLogin hLate
    · rw [hRecv, hSent, List.append_assoc]
      rfl
    · rw [hRecv]

theorem UpAt.down (h : UpAt p s) (down : ByteStream) : UpAt p { s with down := down } :=
  h.frame rfl id id id id

theorem Inv.heartRecv (h : Inv p c) {n : Nat} (hn : n = sizeofMsg) (hReturned : hasReturned c.shake.login = true)
    (hOpen : c.shake.hungUp = false)
    (hAllows : c.shake.down.allows (c.shake.doLogin = .closed) sizeofMsg (.bytes n) = true) :
    Inv p (c.heartRecv (.bytes n)) := by
  simp only [Client.heartRecv]
  refine ⟨h.up.down _, ?_, h.ack, h.reactor⟩
  cases h.down with
  | unsent hSent hRead =>
    rw [ByteStream.allows, decide_eq_true_iff, ByteStream.pending_of_unread hRead, hSent] at hAllows
    exact absurd (hAllows.1.trans_le hAllows.2.2) (by simp)
  | unread _ _ _ _ _ _ _ hEmpty =>
    cases hLogin : c.shake.login with
    | returned v => exact absurd (hEmpty v hLogin).2 (by rw [hOpen]; decide)
    | connect | send | select | recv =>
      rw [hLogin] at hReturned
      cases hReturned
  | read ack done rest hAck hSent hRead hReaders hFrames hLogin hServing =>
    obtain ⟨m, rest', rfl, hFrames', hRecv⟩ := next_frame hSent hRead hFrames hn hAllows
    refine .read ack (done ++ [m]) rest' hAck ?_ ?_ ?_ hFrames' hLogin hServing
    · rw [hRecv, hSent, List.append_assoc]
      rfl
    · rw [hRecv]
    · rw [List.head?_append, hReaders]
      rfl

theorem Inv.heartBeat (h : Inv p c) (hIn : c.shake.doLogin = .addToReactor ∨ c.shake.doLogin = .registered)
    {f : Bytes} (hf : f.length = sizeofMsg) :
    Inv p { c with shake := { c.shake with down := c.shake.down.send f } } := by
  have hReplied : replied c.shake.doLogin = true := by
    obtain hAdd | hReg := hIn
    · rw [hAdd]
      rfl
    · rw [hReg]
      rfl
  refine ⟨h.up.down _, ?_, h.ack, h.reactor⟩
  cases h.down with
  | unsent _ _ _ _ hUnreplied => exact absurd hUnreplied (by rw [hReplied]; decide)
  | unread ack msgs hAck hSent hRead hReaders hFrames hEmpty hServing =>
    refine .unread ack (msgs ++ [f]) hAck ?_ hRead hReaders (hFrames.append hf) hEmpty hServing
    rw [ByteStream.send, hSent]
    rfl
  | read ack done rest hAck hSent hRead hReaders hFrames hLogin hServing =>
    refine .read ack done (rest ++ [f]) hAck ?_ hRead hReaders (hFrames.append hf) hLogin hServing
    rw [ByteStream.send, hSent, ← List.append_assoc]
    rfl

theorem inv_initial (clients : AList fun _ : Fd => ClientDs) (heart : Option MonitorMsgDs) :
    Inv p ⟨initial clients, heart, []⟩ := by
  refine ⟨.unsent rfl rfl (.inl rfl) (.inl rfl), .unsent rfl rfl rfl ?_ rfl, ?_, ?_⟩
  · exact fun v hReturned => by cases hReturned
  · exact fun _ _ hSend => by cases hSend
  · exact fun hIn => by cases hIn

theorem Inv.noRead (h : Inv p { c with shake := t }) {a : Login.Act} (hReads : reads a = []) :
    Inv p { c with shake := t, readers := c.readers ++ reads a } := by
  rw [hReads, List.append_nil]
  exact h

theorem Inv.handshake (h : Inv p c) {a : Login.Act} (hClean : Clean p c (.handshake a))
    (hStep : Login.step p c.shake a = some t) : Inv p { c with shake := t, readers := c.readers ++ reads a } := by
  cases step_does hStep with
  | connect hLogin => exact (h.connect hLogin).noRead rfl
  | sendToken hLogin => exact (h.sendToken hLogin).noRead rfl
  | sendFailed hLogin => exact (h.hangUp (by simp [hLogin])).noRead rfl
  | select hLogin => exact (h.select hLogin).noRead rfl
  | selectFailed hLogin => exact (h.hangUp (by simp [hLogin])).noRead rfl
  | recvAck got hLogin hAllows =>
    cases got with
    | bytes n =>
      obtain rfl : n = 4 := hClean
      exact h.recvAck hLogin hAllows
    | eof => exact (h.recvEof hLogin hAllows).noRead rfl
    | error => exact (h.recvFailed hLogin).noRead rfl
  | accept hServing | selectToken hServing | pass _ _ hServing =>
    refine .noRead ?_ rfl
    exact h.moves hServing (by simp) ⟨by simp, .inr ⟨rfl, rfl⟩⟩ (by simp)
  | timeOut hServing | recvEof hServing | recvFailed hServing | ackFailed _ _ hServing | reject _ _ hServing =>
    exact (h.closes hServing (by simp) (by simp)).noRead rfl
  | recvToken n hServing hAllows =>
    obtain rfl : n = p.token.text.length := hClean
    exact (h.recvToken hServing hAllows _).noRead rfl
  | checkOnline token_tmp hServing => exact (h.checkOnline hServing).noRead rfl
  | sendAck token_tmp ack hServing => exact (h.sendAck hServing).noRead rfl
  | insert hServing => exact (h.insert hServing _).noRead rfl
  | addToReactor added hServing => exact (h.addToReactor hServing added).noRead rfl

theorem inv_step {d : Client} {a : Act} (h : Inv p c) (hClean : Clean p c a) (hStep : step p c a = some d) :
    Inv p d := by
  cases a with
  | handshake a =>
    obtain ⟨t, hShake, rfl⟩ := Option.map_eq_some_iff.mp hStep
    exact h.handshake hClean hShake
  | report f =>
    cases hStep
    exact h.send hClean (f.msg.length_image f.pad_length)
  | heartRecvOld msg =>
    obtain ⟨_, hEq⟩ := Option.ite_none_right_eq_some.mp hStep
    cases hEq
    exact ⟨h.up, h.down, h.ack, h.reactor⟩
  | heartRecv got =>
    obtain ⟨⟨_, _, hOpen, hAllows⟩, hEq⟩ := Option.ite_none_right_eq_some.mp hStep
    cases hEq
    cases got with
    | bytes n =>
      exact h.heartRecv hClean.1 hClean.2 hOpen hAllows
    | eof | error => exact ⟨h.up, h.down, h.ack, h.reactor⟩
  | heartAck pad =>
    obtain ⟨msg, _, hAck⟩ := Option.bind_eq_some_iff.mp hStep
    obtain ⟨hPad, hEq⟩ := Option.ite_none_right_eq_some.mp hAck
    cases hEq
    have hSent := h.send hClean (msg.length_image hPad)
    exact ⟨hSent.up, hSent.down, hSent.ack, hSent.reactor⟩
  | doDispatch got =>
    obtain ⟨⟨hReactor, hAllows⟩, hTurn⟩ := Option.ite_none_right_eq_some.mp hStep
    cases got with
    | bytes n =>
      cases hTurn
      exact h.doDispatch hClean hReactor hAllows
    | eof | error =>
      cases hTurn
      exact h.close (h.reactor hReactor)
  | heartBeat f =>
    obtain ⟨⟨hIn, _⟩, hEq⟩ := Option.ite_none_right_eq_some.mp hStep
    cases hEq
    exact h.heartBeat hIn (f.msg.length_image f.pad_length)
  | giveUp =>
    obtain ⟨hIn, hEq⟩ := Option.ite_none_right_eq_some.mp hStep
    cases hEq
    exact h.close hIn

end

/-- As long as the threads take their turns on the new descriptor, the
connection stays orderly. -/
theorem orderly_of_clean {p : Peers} {c : Client} (h : ReachableUnder (system p) (Clean p) c) :
    Orderly p c := by
  have hInv : Inv p c := by
    refine ReachableUnder.invariant ?_ (fun c a d => inv_step) h
    rintro c ⟨clients, heart, rfl⟩
    exact inv_initial clients heart
  exact hInv.orderly

theorem start_initial (p : Peers) : (system p).start ⟨initial ∅, none, []⟩ := ⟨∅, none, rfl⟩

/-- The heartbeat loop reads the reply 1, takes it for a heartbeat and answers. -/
def stolen : List Act :=
  [.handshake .connect, .handshake (.sendToken true), .handshake .accept, .handshake (.selectToken true),
    .handshake (.recvToken (.bytes 5)), .handshake .checkOnline, .handshake (.sendAck true),
    .heartRecv (.bytes 4)]

theorem reply_stolen : ¬ ∀ (p : Peers) (c : Client), Reachable (system p) c → Orderly p c := by
  intro hAll
  have hRun : ((system sameToken).run ⟨initial ∅, none, []⟩ stolen).map
      (fun c => (c.readers, c.heart.map MonitorMsgDs.type)) = some ([.main], some piAck) := by
    decide +kernel
  obtain ⟨c, hReach, hEnd⟩ := Reachable.of_observed (start_initial _) hRun
  have hReader := (hAll sameToken c hReach).reply_to_login .main (by rw [(Prod.mk.inj hEnd).1]; rfl)
  cases hReader

def frame (type : BitVec 64) : Frame := ⟨cleared type, List.replicate padding 0, rfl⟩

def inTurn : List Act :=
  admitted.map .handshake ++ [.report (frame sysMem), .doDispatch (.bytes sizeofMsg), .heartBeat (frame piHeart),
    .heartRecv (.bytes sizeofMsg), .heartAck (List.replicate padding 0)]

theorem orderly_in_turn : ∃ c : Client, c.readers = [.relogin, .main] ∧ c.shake.login = .returned 1 ∧
    Orderly sameToken c := by
  have hRun : ((system sameToken).run ⟨initial ∅, none, []⟩ inTurn).map (fun c => (c.readers, c.shake.login)) =
      some ([.relogin, .main], .returned 1) := by decide +kernel
  have hMeets : (system sameToken).Meets (Clean sameToken) ⟨initial ∅, none, []⟩ inTurn := by decide +kernel
  obtain ⟨c, hReach, hEnd⟩ := ReachableUnder.of_observed (start_initial _) hMeets hRun
  exact ⟨c, (Prod.mk.inj hEnd).1, (Prod.mk.inj hEnd).2, orderly_of_clean hReach⟩

end MonitorSystem.Reconnect
