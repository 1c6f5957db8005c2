import MonitorSystem.ServerFunc
import MonitorSystem.Lib.Socket

/-! # The handshake between login and do_login

Both programs run step by step on the two directions of one connection. The
outcome of every system call is part of the step.
-/

namespace MonitorSystem.Login

open Msg ServerFunc Lib.CString Lib.Socket Lib.Transition

/-- The next call of login, or the value it returned. -/
inductive Calling
  | connect
  | send
  | select
  | recv
  | returned (v : Nat)
deriving DecidableEq

inductive Serving
  | accept
  | select
  | recv
  | checkOnline (token_tmp : Bytes)
  | send (token_tmp : Bytes) (ack : Nat)
  | compare (token_tmp : Bytes) (ack : Nat)
  | insert
  | addToReactor
  | closed
  | registered
deriving DecidableEq

/-- The tokens of the client and of the server, the descriptor accept returns
and the client's address. -/
structure Peers where
  token : Token
  serverToken : Token
  sockfd : Fd
  addr : SockaddrIn
  conn : Nat

/-- hungUp is set when the client has closed its descriptor. -/
structure Handshake where
  login : Calling
  doLogin : Serving
  up : ByteStream
  down : ByteStream
  hungUp : Bool
  clients : AList fun _ : Fd => ClientDs
  epollfd : Bool

inductive Act
  | connect
  | sendToken (ok : Bool)
  | select (ready : Bool)
  | recvAck (got : Got)
  | accept
  | selectToken (ready : Bool)
  | recvToken (got : Got)
  | checkOnline
  | sendAck (ok : Bool)
  | compare
  | insert
  | addToReactor (added : Bool)

def loginStep (p : Peers) (s : Handshake) : Act → Option Handshake
  | .connect => if s.login = .connect then some { s with login := .send } else none
  | .sendToken ok =>
    if s.login = .send then
      if ok then some { s with up := s.up.send p.token.text, login := .select }
      else some { s with hungUp := true, login := .returned 0 }
    else none
  | .select ready =>
    if s.login = .select then
      if ready = false then some { s with hungUp := true, login := .returned 0 }
      else if s.down.pending ≠ [] ∨ s.doLogin = .closed then some { s with login := .recv }
      else none
    else none
  | .recvAck got =>
    if s.login = .recv ∧ s.down.allows (s.doLogin = .closed) 4 got then
      some { s with
        down := s.down.recv got
        hungUp := s.hungUp || got = .error
        login := .returned (if leNat (s.down.chunk got) = 1 then 1 else 0) }
    else none
  | _ => none

def doLoginStep (p : Peers) (s : Handshake) : Act → Option Handshake
  | .accept =>
    if s.doLogin = .accept ∧ s.login ≠ .connect then some { s with doLogin := .select } else none
  | .selectToken ready =>
    if s.doLogin = .select then
      if ready = false then some { s with doLogin := .closed }
      else if s.up.pending ≠ [] ∨ s.hungUp then some { s with doLogin := .recv }
      else none
    else none
  | .recvToken got =>
    if s.doLogin = .recv ∧ s.up.allows s.hungUp 100 got then
      match got with
      | .bytes n => some { s with
          up := s.up.recv (.bytes n)
          doLogin := .checkOnline (cstr (s.up.chunk (.bytes n))) }
      | _ => some { s with doLogin := .closed }
    else none
  | .checkOnline =>
    match s.doLogin with
    | .checkOnline token_tmp =>
      let ack := if ServerFunc.checkOnline s.clients p.addr then 0 else 1
      some { s with doLogin := .send token_tmp ack }
    | _ => none
  | .sendAck ok =>
    match s.doLogin with
    | .send token_tmp ack =>
      if ok then some { s with down := s.down.send (leBytes 4 ack), doLogin := .compare token_tmp ack }
      else some { s with doLogin := .closed }
    | _ => none
  | .compare =>
    match s.doLogin with
    | .compare token_tmp ack =>
      if ack = 0 then some { s with doLogin := .closed }
      else if token_tmp ≠ p.serverToken.text then some { s with doLogin := .closed }
      else some { s with doLogin := .insert }
    | _ => none
  | .insert =>
    if s.doLogin = .insert then
      some { s with
        clients := s.clients.insert p.sockfd ⟨8, p.addr, p.conn⟩
        doLogin := .addToReactor }
    else none
  | .addToReactor added =>
    if s.doLogin = .addToReactor then some { s with epollfd := added, doLogin := .registered } else none
  | _ => none

def step (p : Peers) (s : Handshake) (a : Act) : Option Handshake :=
  (loginStep p s a).or (doLoginStep p s a)

/-- What the steps do to the state, with what must hold before them. -/
inductive Does (p : Peers) (s : Handshake) : Act → Handshake → Prop
  | connect (hLogin : s.login = .connect) : Does p s .connect { s with login := .send }
  | sendToken (hLogin : s.login = .send) :
    Does p s (.sendToken true) { s with up := s.up.send p.token.text, login := .select }
  | sendFailed (hLogin : s.login = .send) :
    Does p s (.sendToken false) { s with hungUp := true, login := .returned 0 }
  | select (hLogin : s.login = .select) (hReady : s.down.pending ≠ [] ∨ s.doLogin = .closed) :
    Does p s (.select true) { s with login := .recv }
  | selectFailed (hLogin : s.login = .select) :
    Does p s (.select false) { s with hungUp := true, login := .returned 0 }
  | recvAck (got : Got) (hLogin : s.login = .recv)
      (hAllows : s.down.allows (s.doLogin = .closed) 4 got = true) :
    Does p s (.recvAck got) { s with
      down := s.down.recv got
      hungUp := s.hungUp || got = .error
      login := .returned (if leNat (s.down.chunk got) = 1 then 1 else 0) }
  | accept (hServing : s.doLogin = .accept) (hCalled : s.login ≠ .connect) :
    Does p s .accept { s with doLogin := .select }
  | selectToken (hServing : s.doLogin = .select) (hReady : s.up.pending ≠ [] ∨ s.hungUp = true) :
    Does p s (.selectToken true) { s with doLogin := .recv }
  | timeOut (hServing : s.doLogin = .select) : Does p s (.selectToken false) { s with doLogin := .closed }
  | recvToken (n : Nat) (hServing : s.doLogin = .recv) (hAllows : s.up.allows s.hungUp 100 (.bytes n) = true) :
    Does p s (.recvToken (.bytes n)) { s with
      up := s.up.recv (.bytes n)
      doLogin := .checkOnline (cstr (s.up.chunk (.bytes n))) }
  | recvEof (hServing : s.doLogin = .recv) (hAllows : s.up.allows s.hungUp 100 .eof = true) :
    Does p s (.recvToken .eof) { s with doLogin := .closed }
  | recvFailed (hServing : s.doLogin = .recv) : Does p s (.recvToken .error) { s with doLogin := .closed }
  | checkOnline (token_tmp : Bytes) (hServing : s.doLogin = .checkOnline token_tmp) :
    Does p s .checkOnline { s with
      doLogin := .send token_tmp (if ServerFunc.checkOnline s.clients p.addr then 0 else 1) }
  | sendAck (token_tmp : Bytes) (ack : Nat) (hServing : s.doLogin = .send token_tmp ack) :
    Does p s (.sendAck true) { s with down := s.down.send (leBytes 4 ack), doLogin := .compare token_tmp ack }
  | ackFailed (token_tmp : Bytes) (ack : Nat) (hServing : s.doLogin = .send token_tmp ack) :
    Does p s (.sendAck false) { s with doLogin := .closed }
  | reject (token_tmp : Bytes) (ack : Nat) (hServing : s.doLogin = .compare token_tmp ack)
      (hWhy : ack = 0 ∨ token_tmp ≠ p.serverToken.text) : Does p s .compare { s with doLogin := .closed }
  | pass (token_tmp : Bytes) (ack : Nat) (hServing : s.doLogin = .compare token_tmp ack) (hAck : ack ≠ 0)
      (hToken : token_tmp = p.serverToken.text) : Does p s .compare { s with doLogin := .insert }
  | insert (hServing : s.doLogin = .insert) :
    Does p s .insert { s with
      clients := s.clients.insert p.sockfd ⟨8, p.addr, p.conn⟩
      doLogin := .addToReactor }
  | addToReactor (added : Bool) (hServing : s.doLogin = .addToReactor) :
    Does p s (.addToReactor added) { s with epollfd := added, doLogin := .registered }

theorem loginStep_does {p : Peers} {s t : Handshake} {a : Act} (h : loginStep p s a = some t) :
    Does p s a t := by
  cases a with
  | connect =>
    obtain ⟨hLogin, hEq⟩ := Option.ite_none_right_eq_some.mp h
    cases hEq
    exact .connect hLogin
  | sendToken ok =>
    obtain ⟨hLogin, hEq⟩ := Option.ite_none_right_eq_some.mp h
    cases ok with
    | true =>
      cases hEq
      exact .sendToken hLogin
    | false =>
      cases hEq
      exact .sendFailed hLogin
  | select ready =>
    obtain ⟨hLogin, hEq⟩ := Option.ite_none_right_eq_some.mp h
    cases ready with
    | true =>
      obtain ⟨hReady, hEq⟩ := Option.ite_none_right_eq_some.mp hEq
      cases hEq
      exact .select hLogin hReady
    | false =>
      cases hEq
      exact .selectFailed hLogin
  | recvAck got =>
    obtain ⟨⟨hLogin, hAllows⟩, hEq⟩ := Option.ite_none_right_eq_some.mp h
    cases hEq
    exact .recvAck got hLogin hAllows
  | accept | selectToken | recvToken | checkOnline | sendAck | compare | insert | addToReactor => cases h

theorem doLoginStep_does {p : Peers} {s t : Handshake} {a : Act} (h : doLoginStep p s a = some t) :
    Does p s a t := by
  cases a with
  | accept =>
    obtain ⟨hServing, hEq⟩ := Option.ite_none_right_eq_some.mp h
    cases hEq
    exact .accept hServing.1 hServing.2
  | selectToken ready =>
    obtain ⟨hServing, hEq⟩ := Option.ite_none_right_eq_some.mp h
    cases ready with
    | true =>
      obtain ⟨hReady, hEq⟩ := Option.ite_none_right_eq_some.mp hEq
      cases hEq
      exact .selectToken hServing hReady
    | false =>
      cases hEq
      exact .timeOut hServing
  | recvToken got =>
    obtain ⟨⟨hServing, hAllows⟩, hEq⟩ := Option.ite_none_right_eq_some.mp h
    cases got with
    | bytes n =>
      cases hEq
      exact .recvToken n hServing hAllows
    | eof =>
      cases hEq
      exact .recvEof hServing hAllows
    | error =>
      cases hEq
      exact .recvFailed hServing
  | checkOnline =>
    rw [doLoginStep] at h
    split at h
    · rename_i token_tmp hServing
      cases h
      exact .checkOnline token_tmp hServing
    · cases h
  | sendAck ok =>
    rw [doLoginStep] at h
    split at h
    · rename_i token_tmp ack hServing
      cases ok with
      | true =>
        cases h
        exact .sendAck token_tmp ack hServing
      | false =>
        cases h
        exact .ackFailed token_tmp ack hServing
    · cases h
  | compare =>
    rw [doLoginStep] at h
    split at h
    · rename_i token_tmp ack hServing
      split_ifs at h with hOffline hOther
      · cases h
        exact .reject token_tmp ack hServing (.inl hOffline)
      · cases h
        exact .reject token_tmp ack hServing (.inr hOther)
      · cases h
        exact .pass token_tmp ack hServing hOffline (not_not.mp hOther)
    · cases h
  | insert =>
    obtain ⟨hServing, hEq⟩ := Option.ite_none_right_eq_some.mp h
    cases hEq
    exact .insert hServing
  | addToReactor added =>
    obtain ⟨hServing, hEq⟩ := Option.ite_none_right_eq_some.mp h
    cases hEq
    exact .addToReactor added hServing
  | connect | sendToken | select | recvAck => cases h

theorem step_does {p : Peers} {s t : Handshake} {a : Act} (h : step p s a = some t) : Does p s a t := by
  obtain hLogin | ⟨_, hServing⟩ := Option.or_eq_some_iff.mp h
  · exact loginStep_does hLogin
  · exact doLoginStep_does hServing

def initial (clients : AList fun _ : Fd => ClientDs) : Handshake :=
  ⟨.connect, .accept, .empty, .empty, false, clients, false⟩

def system (p : Peers) (clients : AList fun _ : Fd => ClientDs) : System Handshake Act where
  start s := s = initial clients
  step := step p

def whole (s : ByteStream) (size : Nat) : Got :=
  if s.pending = [] then .eof else .bytes (min size s.pending.length)

/-- Every call succeeds, a message arrives whole, and a select times out only
where nothing was sent to it. -/
def Timely (s : Handshake) : Act → Prop
  | .sendToken ok | .sendAck ok | .addToReactor ok => ok = true
  | .select ready => ready = true
  | .selectToken ready =>
    ready = false → s.login ≠ .connect ∧ s.login ≠ .send ∧ s.up.pending = []
  | .recvAck got => got = whole s.down 4
  | .recvToken got => got = whole s.up 100
  | _ => True

instance (s : Handshake) : ∀ a, Decidable (Timely s a)
  | .sendToken ok | .sendAck ok | .addToReactor ok => inferInstanceAs (Decidable (ok = true))
  | .select ready => inferInstanceAs (Decidable (ready = true))
  | .selectToken ready => inferInstanceAs (Decidable (ready = false →
      s.login ≠ .connect ∧ s.login ≠ .send ∧ s.up.pending = []))
  | .recvAck got => inferInstanceAs (Decidable (got = whole s.down 4))
  | .recvToken got => inferInstanceAs (Decidable (got = whole s.up 100))
  | .connect | .accept | .checkOnline | .compare | .insert => inferInstanceAs (Decidable True)

def Registered (p : Peers) (s : Handshake) : Prop :=
  s.clients.lookup p.sockfd = some ⟨8, p.addr, p.conn⟩ ∧ s.epollfd = true

def CallerAt (p : Peers) (clients : AList fun _ : Fd => ClientDs) (s : Handshake) : Calling → Prop
  | .connect | .send => s.up.sent = [] ∧ s.down.read = []
  | .select | .recv => s.up.sent = [p.token.text] ∧ s.down.read = []
  | .returned v => s.up.sent = [p.token.text] ∧
      v = if p.token.text ≠ [] ∧ ServerFunc.checkOnline clients p.addr = false then 1 else 0

def ackOf (p : Peers) (clients : AList fun _ : Fd => ClientDs) : Nat :=
  if ServerFunc.checkOnline clients p.addr then 0 else 1

def ServerAt (p : Peers) (clients : AList fun _ : Fd => ClientDs) (s : Handshake) : Serving → Prop
  | .accept | .select => s.up.read = [] ∧ s.down.sent = []
  | .recv => s.up.read = [] ∧ s.down.sent = [] ∧ s.up.sent = [p.token.text] ∧ p.token.text ≠ []
  | .checkOnline token_tmp => token_tmp = p.token.text ∧ p.token.text ≠ [] ∧ s.down.sent = []
  | .send token_tmp ack => token_tmp = p.token.text ∧ p.token.text ≠ [] ∧ s.down.sent = [] ∧
      ack = ackOf p clients
  | .compare token_tmp ack => token_tmp = p.token.text ∧ p.token.text ≠ [] ∧
      s.down.sent = [leBytes 4 (ackOf p clients)] ∧ ack = ackOf p clients
  | .insert | .addToReactor | .registered => p.token.text ≠ [] ∧
      s.down.sent = [leBytes 4 (ackOf p clients)] ∧ ServerFunc.checkOnline clients p.addr = false ∧
      p.token.text = p.serverToken.text
  | .closed => (p.token.text = [] ∧ s.down.sent = []) ∨
      (p.token.text ≠ [] ∧ s.down.sent = [leBytes 4 (ackOf p clients)] ∧
        ¬ (ServerFunc.checkOnline clients p.addr = false ∧ p.token.text = p.serverToken.text))

def TableAt (p : Peers) (clients : AList fun _ : Fd => ClientDs) (s : Handshake) : Serving → Prop
  | .addToReactor => s.clients.lookup p.sockfd = some ⟨8, p.addr, p.conn⟩ ∧ s.epollfd = false
  | .registered => s.clients.lookup p.sockfd = some ⟨8, p.addr, p.conn⟩ ∧ s.epollfd = true
  | _ => s.clients = clients ∧ s.epollfd = false

structure Inv (p : Peers) (clients : AList fun _ : Fd => ClientDs) (s : Handshake) : Prop where
  hungUp : s.hungUp = false
  caller : CallerAt p clients s s.login
  server : ServerAt p clients s s.doLogin
  table : TableAt p clients s s.doLogin

section

variable {p : Peers} {clients : AList fun _ : Fd => ClientDs} {s t : Handshake}

theorem leNat_ackOf : leNat (leBytes 4 (ackOf p clients)) =
    if ServerFunc.checkOnline clients p.addr = false then 1 else 0 := by
  rw [ackOf]
  cases ServerFunc.checkOnline clients p.addr <;> decide

theorem Inv.connect (h : Inv p clients s) (hLogin : s.login = .connect) :
    Inv p clients { s with login := .send } := by
  have hCaller := h.caller
  rw [hLogin] at hCaller
  exact ⟨h.hungUp, hCaller, h.server, h.table⟩

theorem Inv.sendToken (h : Inv p clients s) (hLogin : s.login = .send) :
    Inv p clients { s with up := s.up.send p.token.text, login := .select } := by
  have hCaller := h.caller
  rw [hLogin] at hCaller
  have hServer := h.server
  refine ⟨h.hungUp, ⟨?_, hCaller.2⟩, ?_, h.table⟩
  · rw [ByteStream.send, hCaller.1, List.nil_append]
  · dsimp only
    cases hServing : s.doLogin <;> rw [hServing] at hServer <;> first | exact hServer | skip
    exact absurd (hCaller.1.symm.trans hServer.2.2.1) (by simp)

theorem Inv.select (h : Inv p clients s) (hLogin : s.login = .select) :
    Inv p clients { s with login := .recv } := by
  have hCaller := h.caller
  rw [hLogin] at hCaller
  exact ⟨h.hungUp, hCaller, h.server, h.table⟩

theorem Inv.sent_cases (h : Inv p clients s) :
    (s.down.sent = [] ∧ (s.doLogin = .closed → p.token.text = [])) ∨
      (s.down.sent = [leBytes 4 (ackOf p clients)] ∧ p.token.text ≠ []) := by
  have hServer := h.server
  cases hServing : s.doLogin with
  | accept | select =>
    rw [hServing] at hServer
    exact .inl ⟨hServer.2, fun hClosed => by cases hClosed⟩
  | recv =>
    rw [hServing] at hServer
    exact .inl ⟨hServer.2.1, fun hClosed => by cases hClosed⟩
  | checkOnline token_tmp =>
    rw [hServing] at hServer
    exact .inl ⟨hServer.2.2, fun hClosed => by cases hClosed⟩
  | send token_tmp ack =>
    rw [hServing] at hServer
    exact .inl ⟨hServer.2.2.1, fun hClosed => by cases hClosed⟩
  | compare token_tmp ack =>
    rw [hServing] at hServer
    exact .inr ⟨hServer.2.2.1, hServer.2.1⟩
  | insert | addToReactor | registered =>
    rw [hServing] at hServer
    exact .inr ⟨hServer.2.1, hServer.1⟩
  | closed =>
    rw [hServing] at hServer
    obtain ⟨hToken, hSent⟩ | ⟨hToken, hSent, _⟩ := hServer
    · exact .inl ⟨hSent, fun _ => hToken⟩
    · exact .inr ⟨hSent, hToken⟩

theorem Inv.reply (h : Inv p clients s) (hRead : s.down.read = [])
    (hAllows : s.down.allows (s.doLogin = .closed) 4 (whole s.down 4) = true) :
    (if leNat (s.down.chunk (whole s.down 4)) = 1 then 1 else 0) =
      if p.token.text ≠ [] ∧ ServerFunc.checkOnline clients p.addr = false then 1 else 0 := by
  have hPending : s.down.pending = s.down.sent.flatten := ByteStream.pending_of_unread hRead
  obtain ⟨hSent, hClosed⟩ | ⟨hSent, hToken⟩ := h.sent_cases
  · rw [hSent, List.flatten_nil] at hPending
    rw [whole, if_pos hPending, ByteStream.allows, decide_eq_true_iff, decide_eq_true_iff] at hAllows
    rw [whole, if_pos hPending, if_neg, if_neg]
    · exact fun hLogin => hLogin.1 (hClosed hAllows.2)
    · exact Nat.zero_ne_one
  · rw [hSent, List.flatten_singleton] at hPending
    have hLength : s.down.pending.length = 4 := by rw [hPending, length_leBytes]
    have hNonempty : s.down.pending ≠ [] := List.ne_nil_of_length_pos (by omega)
    rw [whole, if_neg hNonempty, hLength, Nat.min_self, ByteStream.chunk, List.take_of_length_le hLength.le,
      hPending, leNat_ackOf]
    simp [hToken]

theorem Inv.recvAck (h : Inv p clients s) (hLogin : s.login = .recv)
    (hAllows : s.down.allows (s.doLogin = .closed) 4 (whole s.down 4) = true) :
    Inv p clients { s with
      down := s.down.recv (whole s.down 4)
      hungUp := s.hungUp || whole s.down 4 = .error
      login := .returned (if leNat (s.down.chunk (whole s.down 4)) = 1 then 1 else 0) } := by
  have hCaller := h.caller
  rw [hLogin] at hCaller
  have hServer := h.server
  have hSent : (s.down.recv (whole s.down 4)).sent = s.down.sent := by
    rw [whole]
    split_ifs <;> rfl
  have hCalm : (s.hungUp || decide (whole s.down 4 = .error)) = false := by
    rw [h.hungUp, whole]
    split_ifs <;> simp
  refine ⟨hCalm, ⟨hCaller.1, h.reply hCaller.2 hAllows⟩, ?_, h.table⟩
  dsimp only
  cases hServing : s.doLogin <;> rw [hServing] at hServer <;> simpa only [ServerAt, hSent] using hServer

theorem Inv.accept (h : Inv p clients s) (hServing : s.doLogin = .accept) :
    Inv p clients { s with doLogin := .select } := by
  have hServer := h.server
  have hTable := h.table
  rw [hServing] at hServer hTable
  exact ⟨h.hungUp, h.caller, hServer, hTable⟩

theorem CallerAt.up_sent {calling : Calling} (h : CallerAt p clients s calling)
    (hSent : calling ≠ .connect ∧ calling ≠ .send) : s.up.sent = [p.token.text] := by
  cases calling with
  | connect => exact absurd rfl hSent.1
  | send => exact absurd rfl hSent.2
  | select | recv => exact h.1
  | returned v => exact h.1

theorem Inv.timeOut (h : Inv p clients s) (hServing : s.doLogin = .select)
    (hCalled : s.login ≠ .connect ∧ s.login ≠ .send) (hNone : s.up.pending = []) :
    Inv p clients { s with doLogin := .closed } := by
  have hServer := h.server
  have hTable := h.table
  rw [hServing] at hServer hTable
  rw [ByteStream.pending_of_unread hServer.1, h.caller.up_sent hCalled, List.flatten_singleton] at hNone
  exact ⟨h.hungUp, h.caller, .inl ⟨hNone, hServer.2⟩, hTable⟩

theorem Inv.selectToken (h : Inv p clients s) (hServing : s.doLogin = .select)
    (hReady : s.up.pending ≠ [] ∨ s.hungUp = true) : Inv p clients { s with doLogin := .recv } := by
  have hServer := h.server
  have hTable := h.table
  rw [hServing] at hServer hTable
  have hSome : s.up.sent.flatten ≠ [] := by
    rw [h.hungUp, ByteStream.pending_of_unread hServer.1] at hReady
    exact hReady.resolve_right Bool.false_ne_true
  have hCaller := h.caller
  have hSent : s.up.sent = [p.token.text] := by
    apply hCaller.up_sent
    constructor
    · intro hLogin
      rw [hLogin] at hCaller
      exact hSome (by rw [hCaller.1]; rfl)
    · intro hLogin
      rw [hLogin] at hCaller
      exact hSome (by rw [hCaller.1]; rfl)
  refine ⟨h.hungUp, hCaller, ⟨hServer.1, hServer.2, hSent, ?_⟩, hTable⟩
  rwa [hSent, List.flatten_singleton] at hSome

theorem Inv.whole_token (h : Inv p clients s) (hServing : s.doLogin = .recv) :
    s.up.pending = p.token.text ∧ whole s.up 100 = .bytes p.token.text.length := by
  have hServer := h.server
  rw [hServing] at hServer
  obtain ⟨hRead, _, hSent, hToken⟩ := hServer
  have hPending : s.up.pending = p.token.text := by
    rw [ByteStream.pending_of_unread hRead, hSent, List.flatten_singleton]
  have hFits := p.token.fits
  refine ⟨hPending, ?_⟩
  rw [whole, if_neg (hPending ▸ hToken), hPending, Nat.min_eq_right]
  exact hFits.le.trans (by decide)

theorem Inv.recvToken (h : Inv p clients s) (hServing : s.doLogin = .recv) {n : Nat}
    (hWhole : .bytes n = whole s.up 100) :
    Inv p clients { s with
      up := s.up.recv (.bytes n)
      doLogin := .checkOnline (cstr (s.up.chunk (.bytes n))) } := by
  obtain ⟨hPending, hToken⟩ := h.whole_token hServing
  obtain rfl : n = p.token.text.length := Got.bytes.inj (hWhole.trans hToken)
  have hServer := h.server
  have hTable := h.table
  rw [hServing] at hServer hTable
  refine ⟨h.hungUp, ?_, ⟨?_, hServer.2.2.2, hServer.2.1⟩, hTable⟩
  · have hCaller := h.caller
    dsimp only
    cases hCalling : s.login <;> rw [hCalling] at hCaller <;> exact hCaller
  · rw [ByteStream.chunk, hPending, List.take_length, cstr_of_noNul p.token.noNul]

theorem Inv.checkOnline (h : Inv p clients s) {token_tmp : Bytes}
    (hServing : s.doLogin = .checkOnline token_tmp) :
    Inv p clients { s with
      doLogin := .send token_tmp (if ServerFunc.checkOnline s.clients p.addr then 0 else 1) } := by
  have hServer := h.server
  have hTable := h.table
  rw [hServing] at hServer hTable
  refine ⟨h.hungUp, h.caller, ⟨hServer.1, hServer.2.1, hServer.2.2, ?_⟩, hTable⟩
  rw [ackOf, hTable.1]

theorem Inv.sendAck (h : Inv p clients s) {token_tmp : Bytes} {ack : Nat}
    (hServing : s.doLogin = .send token_tmp ack) :
    Inv p clients { s with down := s.down.send (leBytes 4 ack), doLogin := .compare token_tmp ack } := by
  have hServer := h.server
  have hTable := h.table
  rw [hServing] at hServer hTable
  obtain ⟨hTmp, hToken, hSent, hAck⟩ := hServer
  refine ⟨h.hungUp, ?_, ⟨hTmp, hToken, ?_, hAck⟩, hTable⟩
  · have hCaller := h.caller
    dsimp only
    cases hCalling : s.login <;> rw [hCalling] at hCaller <;> exact hCaller
  · rw [ByteStream.send, hSent, hAck, List.nil_append]

theorem Inv.reject (h : Inv p clients s) {token_tmp : Bytes} {ack : Nat}
    (hServing : s.doLogin = .compare token_tmp ack) (hWhy : ack = 0 ∨ token_tmp ≠ p.serverToken.text) :
    Inv p clients { s with doLogin := .closed } := by
  have hServer := h.server
  have hTable := h.table
  rw [hServing] at hServer hTable
  obtain ⟨hTmp, hToken, hSent, hAck⟩ := hServer
  refine ⟨h.hungUp, h.caller, .inr ⟨hToken, hSent, ?_⟩, hTable⟩
  rintro ⟨hOffline, hSame⟩
  obtain hZero | hOther := hWhy
  · rw [hAck, ackOf, hOffline] at hZero
    cases hZero
  · exact hOther (hTmp.trans hSame)

theorem Inv.pass (h : Inv p clients s) {token_tmp : Bytes} {ack : Nat}
    (hServing : s.doLogin = .compare token_tmp ack) (hOne : ack ≠ 0) (hSame : token_tmp = p.serverToken.text) :
    Inv p clients { s with doLogin := .insert } := by
  have hServer := h.server
  have hTable := h.table
  rw [hServing] at hServer hTable
  obtain ⟨hTmp, hToken, hSent, hAck⟩ := hServer
  refine ⟨h.hungUp, h.caller, ⟨hToken, hSent, ?_, hTmp.symm.trans hSame⟩, hTable⟩
  rw [← Bool.not_eq_true]
  intro hOnline
  exact hOne (by rw [hAck, ackOf, if_pos hOnline])

theorem Inv.insert (h : Inv p clients s) (hServing : s.doLogin = .insert) :
    Inv p clients { s with
      clients := s.clients.insert p.sockfd ⟨8, p.addr, p.conn⟩
      doLogin := .addToReactor } := by
  have hServer := h.server
  have hTable := h.table
  rw [hServing] at hServer hTable
  exact ⟨h.hungUp, h.caller, hServer, AList.lookup_insert _, hTable.2⟩

theorem Inv.addToReactor (h : Inv p clients s) (hServing : s.doLogin = .addToReactor) :
    Inv p clients { s with epollfd := true, doLogin := .registered } := by
  have hServer := h.server
  have hTable := h.table
  rw [hServing] at hServer hTable
  exact ⟨h.hungUp, h.caller, hServer, hTable.1, rfl⟩

theorem inv_initial : Inv p clients (initial clients) :=
  ⟨rfl, ⟨rfl, rfl⟩, ⟨rfl, rfl⟩, rfl, rfl⟩

theorem inv_step {a : Act} (h : Inv p clients s) (hTimely : Timely s a) (hStep : step p s a = some t) :
    Inv p clients t := by
  cases step_does hStep with
  | connect hLogin => exact h.connect hLogin
  | sendToken hLogin => exact h.sendToken hLogin
  | sendFailed | selectFailed | ackFailed => cases hTimely
  | select hLogin => exact h.select hLogin
  | recvAck got hLogin hAllows =>
    obtain rfl : got = whole s.down 4 := hTimely
    exact h.recvAck hLogin hAllows
  | accept hServing => exact h.accept hServing
  | selectToken hServing hReady => exact h.selectToken hServing hReady
  | timeOut hServing =>
    obtain ⟨hConnect, hSend, hNone⟩ := hTimely rfl
    exact h.timeOut hServing ⟨hConnect, hSend⟩ hNone
  | recvToken n hServing => exact h.recvToken hServing hTimely
  | recvEof hServing => cases hTimely.trans (h.whole_token hServing).2
  | recvFailed hServing => cases hTimely.trans (h.whole_token hServing).2
  | checkOnline token_tmp hServing => exact h.checkOnline hServing
  | sendAck token_tmp ack hServing => exact h.sendAck hServing
  | reject token_tmp ack hServing hWhy => exact h.reject hServing hWhy
  | pass token_tmp ack hServing hAck hToken => exact h.pass hServing hAck hToken
  | insert hServing => exact h.insert hServing
  | addToReactor added hServing =>
    obtain rfl : added = true := hTimely
    exact h.addToReactor hServing

end

def Finished (s : Handshake) (v : Nat) : Prop :=
  s.login = .returned v ∧ (s.doLogin = .closed ∨ s.doLogin = .registered)

theorem registered_iff {p : Peers} {clients : AList fun _ : Fd => ClientDs} {s : Handshake} {v : Nat}
    (h : Inv p clients s) (hFinished : Finished s v) :
    Registered p s ↔ p.token.text ≠ [] ∧ ServerFunc.checkOnline clients p.addr = false ∧
      p.token.text = p.serverToken.text := by
  have hServer := h.server
  have hTable := h.table
  obtain hClosed | hIn := hFinished.2
  · rw [hClosed] at hServer hTable
    constructor
    · intro hReg
      exact absurd (hTable.2.symm.trans hReg.2) (by decide)
    · rintro ⟨hToken, hSame⟩
      obtain ⟨hEmpty, _⟩ | ⟨_, _, hNot⟩ := hServer
      · exact absurd hEmpty hToken
      · exact absurd hSame hNot
  · rw [hIn] at hServer hTable
    exact iff_of_true hTable ⟨hServer.1, hServer.2.2⟩

theorem registered_iff_doLogin {p : Peers} {cfg : Config} {server : Server} {s : Handshake} {v : Nat}
    (hToken : cfg.token = p.serverToken) (h : Inv p server.clients s) (hFinished : Finished s v) :
    Registered p s ↔ (ServerFunc.doLogin cfg server p.sockfd p.addr (p.token.text ≠ [])
      (.data p.token.text) true true).epollfd p.sockfd = true := by
  rw [registered_iff h hFinished]
  by_cases hEmpty : p.token.text = []
  · simp [ServerFunc.doLogin, Server.close, hEmpty]
  · cases hOnline : ServerFunc.checkOnline server.clients p.addr with
    | true => simp [ServerFunc.doLogin, Server.close, Dispatch.Recv.failed, hEmpty, hOnline]
    | false =>
      by_cases hSame : p.token.text = p.serverToken.text
      · have hSome : p.serverToken.text ≠ [] := hSame ▸ hEmpty
        simp [ServerFunc.doLogin, Dispatch.Recv.failed, tokenTmp, cstr_of_noNul p.serverToken.noNul, hOnline,
          hToken, hSame, hSome]
      · simp [ServerFunc.doLogin, Server.close, Dispatch.Recv.failed, tokenTmp, cstr_of_noNul p.token.noNul, hEmpty,
          hOnline, hToken, hSame]

theorem allows_whole {s : ByteStream} {closed : Bool} {size : Nat} (hSize : 0 < size)
    (h : s.pending ≠ [] ∨ closed = true) : s.allows closed size (whole s size) = true := by
  rw [whole]
  split_ifs with hPending
  · rw [ByteStream.allows, decide_eq_true_iff]
    exact ⟨hPending, h.resolve_left (not_not.mpr hPending)⟩
  · have hLength := List.length_pos_iff.mpr hPending
    rw [ByteStream.allows, decide_eq_true_iff]
    omega

theorem doLogin_progress {p : Peers} {clients : AList fun _ : Fd => ClientDs} {s : Handshake}
    (h : Inv p clients s) (hSent : s.login ≠ .connect ∧ s.login ≠ .send)
    (hRunning : s.doLogin ≠ .closed ∧ s.doLogin ≠ .registered) : ∃ a, Timely s a ∧ (step p s a).isSome := by
  have hServer := h.server
  cases hServing : s.doLogin with
  | accept =>
    refine ⟨.accept, trivial, ?_⟩
    rw [step, doLoginStep, if_pos ⟨hServing, hSent.1⟩]
    rfl
  | select =>
    by_cases hPending : s.up.pending = []
    · refine ⟨.selectToken false, fun _ => ⟨hSent.1, hSent.2, hPending⟩, ?_⟩
      simp [step, loginStep, doLoginStep, hServing]
    · refine ⟨.selectToken true, (fun hReady => by cases hReady), ?_⟩
      simp [step, loginStep, doLoginStep, hServing, hPending]
  | recv =>
    rw [hServing] at hServer
    obtain ⟨hRead, _, hUp, hToken⟩ := hServer
    have hPending : s.up.pending ≠ [] := by
      rwa [ByteStream.pending_of_unread hRead, hUp, List.flatten_singleton]
    refine ⟨.recvToken (whole s.up 100), rfl, ?_⟩
    have hAllows := @allows_whole s.up s.hungUp 100 (by decide) (.inl hPending)
    simp only [step, loginStep, doLoginStep, Option.none_or, if_pos (And.intro hServing hAllows)]
    cases whole s.up 100 <;> rfl
  | checkOnline token_tmp => exact ⟨.checkOnline, trivial, by simp [step, loginStep, doLoginStep, hServing]⟩
  | send token_tmp ack => exact ⟨.sendAck true, rfl, by simp [step, loginStep, doLoginStep, hServing]⟩
  | compare token_tmp ack =>
    refine ⟨.compare, trivial, ?_⟩
    simp only [step, loginStep, doLoginStep, hServing, Option.none_or]
    split_ifs <;> rfl
  | insert => exact ⟨.insert, trivial, by simp [step, loginStep, doLoginStep, hServing]⟩
  | addToReactor => exact ⟨.addToReactor true, rfl, by simp [step, loginStep, doLoginStep, hServing]⟩
  | closed => exact absurd hServing hRunning.1
  | registered => exact absurd hServing hRunning.2

theorem progress {p : Peers} {clients : AList fun _ : Fd => ClientDs} {s : Handshake} (h : Inv p clients s)
    (hRunning : ∀ v, ¬ Finished s v) : ∃ a, Timely s a ∧ (step p s a).isSome := by
  have hCaller := h.caller
  by_cases hEnd : s.doLogin = .closed ∨ s.doLogin = .registered
  · have hReadable : s.down.read = [] → s.down.pending ≠ [] ∨ s.doLogin = .closed := by
      intro hRead
      obtain hClosed | hIn := hEnd
      · exact .inr hClosed
      · have hServer := h.server
        rw [hIn] at hServer
        refine .inl (List.ne_nil_of_length_pos ?_)
        rw [ByteStream.pending_of_unread hRead, hServer.2.1, List.flatten_singleton, length_leBytes]
        decide
    cases hLogin : s.login with
    | connect => exact ⟨.connect, trivial, by simp [step, loginStep, hLogin]⟩
    | send => exact ⟨.sendToken true, rfl, by simp [step, loginStep, hLogin]⟩
    | select =>
      rw [hLogin] at hCaller
      exact ⟨.select true, rfl, by simp [step, loginStep, hLogin, hReadable hCaller.2]⟩
    | recv =>
      rw [hLogin] at hCaller
      refine ⟨.recvAck (whole s.down 4), rfl, ?_⟩
      rw [step, loginStep, if_pos ⟨hLogin, allows_whole (by decide) (by simpa using hReadable hCaller.2)⟩]
      rfl
    | returned v => exact absurd ⟨hLogin, hEnd⟩ (hRunning v)
  · rw [not_or] at hEnd
    by_cases hConnect : s.login = .connect
    · exact ⟨.connect, trivial, by simp [step, loginStep, hConnect]⟩
    · by_cases hSend : s.login = .send
      · exact ⟨.sendToken true, rfl, by simp [step, loginStep, hSend]⟩
      · exact doLogin_progress h ⟨hConnect, hSend⟩ hEnd

/-- login and do_login agree on the outcome exactly when no token was sent, the
client is already online, or the token is the server's. -/
theorem agree_iff {p : Peers} {clients : AList fun _ : Fd => ClientDs} {s : Handshake} {v : Nat}
    (h : ReachableUnder (system p clients) Timely s) (hFinished : Finished s v) :
    (v = 1 ↔ Registered p s) ↔
      p.token.text = [] ∨ ServerFunc.checkOnline clients p.addr = true ∨
        p.token.text = p.serverToken.text := by
  have hInv : Inv p clients s := by
    refine ReachableUnder.invariant ?_ (fun s a t => inv_step) h
    rintro s rfl
    exact inv_initial
  have hCaller := hInv.caller
  rw [hFinished.1] at hCaller
  rw [registered_iff hInv hFinished, hCaller.2]
  by_cases hToken : p.token.text = []
  · simp [hToken]
  · cases ServerFunc.checkOnline clients p.addr <;> simp [hToken]

def wrongToken : Peers where
  token := ⟨lit "tokem", by decide, by decide⟩
  serverToken := config.token
  sockfd := 5
  addr := ⟨1, 40000⟩
  conn := 0

def repliedEarly : List Act :=
  [.connect, .sendToken true, .accept, .selectToken true, .recvToken (.bytes 5), .checkOnline, .sendAck true,
    .compare, .select true, .recvAck (.bytes 4)]

theorem rejected_after_reply : ¬ ∀ (p : Peers) (clients : AList fun _ : Fd => ClientDs) (s : Handshake) (v : Nat),
    ReachableUnder (system p clients) Timely s → Finished s v → (v = 1 ↔ Registered p s) := by
  intro hAll
  have hRun : ((system wrongToken ∅).run (initial ∅) repliedEarly).map
      (fun s => (s.login, s.doLogin, s.epollfd)) = some (.returned 1, .closed, false) := by decide
  have hMeets : (system wrongToken ∅).Meets Timely (initial ∅) repliedEarly := by decide
  obtain ⟨s, hReach, hEnd⟩ := ReachableUnder.of_observed rfl hMeets hRun
  rw [Prod.mk.injEq, Prod.mk.injEq] at hEnd
  obtain ⟨hLogin, hClosed, hReactor⟩ := hEnd
  have hReg := (hAll wrongToken ∅ s 1 hReach ⟨hLogin, .inl hClosed⟩).mp rfl
  rw [Registered, hReactor] at hReg
  cases hReg.2

def sameToken : Peers := { wrongToken with token := config.token }

def admitted : List Act :=
  [.connect, .sendToken true, .accept, .selectToken true, .recvToken (.bytes 5), .checkOnline, .sendAck true,
    .select true, .recvAck (.bytes 4), .compare, .insert, .addToReactor true]

theorem agree_same_token : ∃ s : Handshake, Finished s 1 ∧ Registered sameToken s := by
  have hRun : ((system sameToken ∅).run (initial ∅) admitted).map (fun s => (s.login, s.doLogin)) =
      some (.returned 1, .registered) := by decide
  have hMeets : (system sameToken ∅).Meets Timely (initial ∅) admitted := by decide
  obtain ⟨s, hReach, hEnd⟩ := ReachableUnder.of_observed rfl hMeets hRun
  rw [Prod.mk.injEq] at hEnd
  have hFinished : Finished s 1 := ⟨hEnd.1, .inr hEnd.2⟩
  exact ⟨s, hFinished, ((agree_iff hReach hFinished).mpr (.inr (.inr rfl))).mp rfl⟩

end MonitorSystem.Login
