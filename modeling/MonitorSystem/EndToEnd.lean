import Mathlib.Data.Fintype.Basic
import MonitorSystem.StoreForward

/-! # From the reports of the clients to the database

Every client runs as in StoreForward. What its sockets accept are messages on a
connection to the server, which runs as in Pipeline; each login attempt opens a
connection and sends from then on go there. The acknowledgements of heartbeats
share the connections. A message that a socket has accepted reaches the server.
-/

namespace MonitorSystem.EndToEnd

open Msg Dispatch Framing ThreadPool SendData StoreForward Lib.CString Lib.Transition Lib.Socket Lib.Channel

structure State (K W : Type) where
  clients : K → StoreForward.State
  attempts : K → ℕ
  server : Pipeline.State (K × ℕ) W

/-- The frames are the messages of the turn with the padding that is sent along. -/
inductive Event (K W : Type)
  | turn (k : K) (turn : Turn) (frames : List ClientFrame)
  | ack (k : K) (f : ClientFrame)
  | recv (k : K × ℕ) (got : Got)
  | pop (w : W)
  | deal (w : W)

variable {K W : Type}

def attemptsAfter (attempts : ℕ) : Turn → ℕ
  | .report _ _ => attempts
  | .relogin _ => attempts + 1

variable [DecidableEq K] [DecidableEq W]

def sends (connection : K × ℕ) (frames : List ClientFrame) (server : Pipeline.State (K × ℕ) W) :
    Option (Pipeline.State (K × ℕ) W) :=
  frames.foldlM (fun t f => Pipeline.step t (.send connection f)) server

def step (s : State K W) : Event K W → Option (State K W)
  | .turn k turn frames =>
    (StoreForward.step (s.clients k) turn).bind fun c =>
      if c.delivered = (s.clients k).delivered ++ frames.map ClientFrame.msg then
        let n := attemptsAfter (s.attempts k) turn
        (sends (k, n) frames s.server).map fun server =>
          ⟨Function.update s.clients k c, Function.update s.attempts k n, server⟩
      else none
  | .ack k f =>
    if f.msg.type = piAck then (sends (k, s.attempts k) [f] s.server).map fun server => { s with server := server }
    else none
  | .recv k got => (Pipeline.step s.server (.recv k got)).map fun server => { s with server := server }
  | .pop w => (Pipeline.step s.server (.pop w)).map fun server => { s with server := server }
  | .deal w => (Pipeline.step s.server (.deal w)).map fun server => { s with server := server }

def system (K W : Type) [DecidableEq K] [DecidableEq W] (n : Nat) : System (State K W) (Event K W) where
  start s := (∀ k, StoreForward.system.start (s.clients k)) ∧ (∀ k, s.attempts k = 0) ∧
    (Pipeline.system (K × ℕ) W n).start s.server
  step := step

def Clean (s : State K W) : Event K W → Prop
  | .turn k turn _ => StoreForward.Clean (s.clients k) turn
  | .recv k got => Pipeline.Clean s.server (.recv k got)
  | .ack _ _ | .pop _ | .deal _ => True

def sentBy (k : K) (server : Pipeline.State (K × ℕ) W) : List ClientFrame :=
  on k (server.sends.map fun e => (e.1.1, e.2))

/-- The clients' reports are conserved, the server's steps are sound, and the two
agree on what was sent. -/
structure Inv (s : State K W) : Prop where
  clients : ∀ k, ∃ kept, Conserved (s.clients k) kept
  server : Pipeline.Inv s.server
  agree : ∀ k, ((sentBy k s.server).filterMap fun f => Pipeline.statement f.msg) =
    (s.clients k).delivered.filterMap Pipeline.statement

theorem sends_inv {connection : K × ℕ} {frames : List ClientFrame} {server t : Pipeline.State (K × ℕ) W}
    (h : Pipeline.Inv server) (hSends : sends connection frames server = some t) :
    Pipeline.Inv t ∧ t.sends = server.sends ++ frames.map (Prod.mk connection) := by
  induction frames generalizing server with
  | nil =>
    cases hSends
    exact ⟨h, (List.append_nil _).symm⟩
  | cons f frames ih =>
    rw [sends, List.foldlM_cons] at hSends
    obtain ⟨next, hStep, hRest⟩ := Option.bind_eq_some_iff.mp hSends
    cases hStep
    obtain ⟨hInv, hSent⟩ := ih (Pipeline.inv_send h connection f) hRest
    refine ⟨hInv, ?_⟩
    rw [hSent, List.append_assoc]
    rfl

omit [DecidableEq W] in
theorem sentBy_append {k k' : K} {n : ℕ} {frames : List ClientFrame} {server t : Pipeline.State (K × ℕ) W}
    (hSent : t.sends = server.sends ++ frames.map (Prod.mk (k', n))) :
    sentBy k t = sentBy k server ++ if k' = k then frames else [] := by
  have hOn : ∀ frames : List ClientFrame, on k (frames.map (Prod.mk k')) = if k' = k then frames else [] := by
    intro frames
    induction frames with
    | nil => simp
    | cons f frames ih =>
      rw [List.map_cons, on_cons, ih]
      split <;> rfl
  rw [sentBy, hSent, List.map_append, on_append, List.map_map]
  exact congrArg _ (hOn frames)

theorem inv_turn {s t : State K W} {k : K} {turn : Turn} {frames : List ClientFrame} (h : Inv s)
    (hClean : Clean s (.turn k turn frames)) (hStep : step s (.turn k turn frames) = some t) : Inv t := by
  obtain ⟨c, hTurn, hRest⟩ := Option.bind_eq_some_iff.mp hStep
  obtain ⟨hDelivered, hRest⟩ := Option.ite_none_right_eq_some.mp hRest
  obtain ⟨server, hSends, hEq⟩ := Option.map_eq_some_iff.mp hRest
  subst hEq
  obtain ⟨hServer, hSent⟩ := sends_inv h.server hSends
  obtain ⟨kept, hKept⟩ := h.clients k
  refine ⟨?_, hServer, ?_⟩
  · intro k'
    dsimp only
    obtain rfl | hNe := eq_or_ne k' k
    · rw [Function.update_self]
      exact conserved_step hKept hClean hTurn
    · rw [Function.update_of_ne hNe]
      exact h.clients k'
  · intro k'
    dsimp only
    rw [sentBy_append hSent, List.filterMap_append, h.agree k']
    obtain rfl | hNe := eq_or_ne k' k
    · rw [if_pos rfl, Function.update_self, hDelivered, List.filterMap_append, List.filterMap_map]
      rfl
    · rw [if_neg hNe.symm, Function.update_of_ne hNe, List.filterMap_nil, List.append_nil]

theorem inv_ack {s t : State K W} {k : K} {f : ClientFrame} (h : Inv s) (hStep : step s (.ack k f) = some t) :
    Inv t := by
  obtain ⟨hAck, hRest⟩ := Option.ite_none_right_eq_some.mp hStep
  obtain ⟨server, hSends, hEq⟩ := Option.map_eq_some_iff.mp hRest
  subst hEq
  obtain ⟨hServer, hSent⟩ := sends_inv h.server hSends
  refine ⟨h.clients, hServer, ?_⟩
  intro k'
  have hNone : Pipeline.statement f.msg = none := by
    apply Pipeline.statement_eq_none
    rw [classify, hAck]
    decide
  rw [sentBy_append hSent, List.filterMap_append, h.agree k']
  split
  · have hFrame : [f].filterMap (fun f => Pipeline.statement f.msg) = [] := List.filterMap_cons_none hNone
    rw [hFrame, List.append_nil]
  · rw [List.filterMap_nil, List.append_nil]

theorem sends_eq {server t : Pipeline.State (K × ℕ) W} {e : Pipeline.Event (K × ℕ) W} (hNot : ∀ k f, e ≠ .send k f)
    (hStep : Pipeline.step server e = some t) : t.sends = server.sends := by
  cases e with
  | send k f => exact absurd rfl (hNot k f)
  | recv k got =>
    obtain ⟨_, hStep⟩ := Option.ite_none_right_eq_some.mp hStep
    dsimp only at hStep
    split at hStep
    · obtain ⟨pool, _, hEq⟩ := Option.map_eq_some_iff.mp hStep
      rw [← hEq]
    · cases hStep
      rfl
    · cases hStep
      rfl
  | pop w =>
    obtain ⟨pool, _, hEq⟩ := Option.map_eq_some_iff.mp hStep
    rw [← hEq]
  | deal w =>
    simp only [Pipeline.step] at hStep
    split at hStep
    · cases hStep
    · obtain ⟨_, hStep⟩ := Option.ite_none_left_eq_some.mp hStep
      obtain ⟨pool, _, hEq⟩ := Option.map_eq_some_iff.mp hStep
      rw [← hEq]

theorem inv_server {s : State K W} {server : Pipeline.State (K × ℕ) W} {e : Pipeline.Event (K × ℕ) W} (h : Inv s)
    (hClean : Pipeline.Clean s.server e) (hNot : ∀ k f, e ≠ .send k f) (hStep : Pipeline.step s.server e = some server) :
    Inv { s with server := server } := by
  refine ⟨h.clients, Pipeline.inv_step h.server hClean hStep, ?_⟩
  intro k
  rw [sentBy, sends_eq hNot hStep]
  exact h.agree k

theorem inv_step {s t : State K W} {e : Event K W} (h : Inv s) (hClean : Clean s e) (hStep : step s e = some t) :
    Inv t := by
  cases e with
  | turn k turn frames => exact inv_turn h hClean hStep
  | ack k f => exact inv_ack h hStep
  | recv k got =>
    obtain ⟨server, hServer, rfl⟩ := Option.map_eq_some_iff.mp hStep
    exact inv_server (e := .recv k got) h hClean (by simp) hServer
  | pop w =>
    obtain ⟨server, hServer, rfl⟩ := Option.map_eq_some_iff.mp hStep
    exact inv_server (e := .pop w) h trivial (by simp) hServer
  | deal w =>
    obtain ⟨server, hServer, rfl⟩ := Option.map_eq_some_iff.mp hStep
    exact inv_server (e := .deal w) h trivial (by simp) hServer

theorem inv_of_clean {n : Nat} (hn : 0 < n) {s : State K W} (h : ReachableUnder (system K W n) Clean s) : Inv s := by
  refine ReachableUnder.invariant ?_ (fun s e t => inv_step) h
  rintro s ⟨hClients, _, memory, msg, hServer⟩
  refine ⟨?_, hServer ▸ Pipeline.inv_initial hn memory msg, ?_⟩
  · intro k
    exact conserved_of_turns (.start (hClients k))
  · intro k
    rw [hServer, (hClients k).2.2.2]
    rfl

def statements (reports : List Taken) : Multiset Bytes := (reports.map Taken.row : List Bytes)

/-- The kept reports are those in the files. A statement is issued for a report
that was taken and is not kept, and only once; when nothing is under way, it was. -/
structure Accounted [Fintype K] (s : State K W) (kept : K → List Taken) : Prop where
  clients : ∀ k, Conserved (s.clients k) (kept k)
  server : Pipeline.Delivered s.server
  atMost : (s.server.rows : Multiset Bytes) + ∑ k, statements (kept k) ≤ ∑ k, statements (s.clients k).taken
  settled : Pipeline.Settled s.server →
    (s.server.rows : Multiset Bytes) + ∑ k, statements (kept k) = ∑ k, statements (s.clients k).taken

omit [DecidableEq W] in
theorem Inv.asked [Fintype K] {s : State K W} (h : Inv s) {kept : K → List Taken}
    (hKept : ∀ k, Conserved (s.clients k) (kept k)) :
    ((s.server.sends.filterMap fun e => Pipeline.statement e.2.msg : List Bytes) : Multiset Bytes) +
      ∑ k, statements (kept k) = ∑ k, statements (s.clients k).taken := by
  let log := (s.server.sends.map fun e => (e.1.1, e.2)).filterMap fun e =>
    (Pipeline.statement e.2.msg).map (Prod.mk e.1)
  have hItems : log.map Prod.snd = s.server.sends.filterMap fun e => Pipeline.statement e.2.msg := by
    simp [log, List.map_filterMap, Function.comp_def]
  have hOn : ∀ k, on k log = (s.clients k).delivered.filterMap Pipeline.statement := by
    intro k
    rw [on_filterMap (fun f : ClientFrame => Pipeline.statement f.msg)]
    exact h.agree k
  rw [← hItems, ← sum_on, ← Finset.sum_add_distrib]
  apply Finset.sum_congr rfl
  intro k _
  rw [hOn]
  exact Multiset.coe_eq_coe.mpr (hKept k).rows

/-- From the reports the clients take to the statements the server issues, whatever
the order of the steps of all threads of all machines. -/
theorem accounted_of_clean [Fintype K] {n : Nat} (hn : 0 < n) {s : State K W}
    (h : ReachableUnder (system K W n) Clean s) : ∃ kept, Accounted s kept := by
  have hInv := inv_of_clean hn h
  choose kept hKept using hInv.clients
  refine ⟨kept, hKept, hInv.server.delivered, ?_, ?_⟩
  · rw [← hInv.asked hKept]
    gcongr
    exact Multiset.coe_le.mpr hInv.server.atMost
  · intro hSettled
    rw [← hInv.asked hKept, Multiset.coe_eq_coe.mpr (hInv.server.settled hSettled)]

theorem cpu_mem : (RoundTrip.replayMessage .cpu (cpuTaken.out.str ++ [0x0a])).type ∈ clientTypes := by decide

def cpuFrame : ClientFrame :=
  ⟨RoundTrip.replayMessage .cpu (cpuTaken.out.str ++ [0x0a]), [0, 0, 0, 0], Pipeline.zeros_padding, cpu_mem⟩

def start : State Unit Unit :=
  ⟨fun _ => fresh, fun _ => 0, Pipeline.initial (Unit × ℕ) Unit 2 (fun _ => cleared 0) []⟩

/-- The report fails, is kept, is replayed after the next login, and becomes a row. -/
theorem accounted_once : ∃ s kept, (s : State Unit Unit).server.rows.length = 1 ∧ Accounted s kept := by
  have hKept : ((system Unit Unit 2).step start (.turn () (.report cpuTaken failing) [])).map
      (fun s => Relogin.kinds.all fun kind => ((s.clients ()).client.files kind).isSome) = some true := by decide +kernel
  have hSent : ((system Unit Unit 2).run start [.turn () (.report cpuTaken failing) [],
      .turn () (.relogin Relogin.Attempt.welcomed) [cpuFrame]]).map (fun s =>
        decide (Pipeline.Clean s.server (.recv ((), 1) (.bytes sizeofMsg)))) = some true := by decide +kernel
  have hRun : ((system Unit Unit 2).run start [.turn () (.report cpuTaken failing) [],
      .turn () (.relogin Relogin.Attempt.welcomed) [cpuFrame], .recv ((), 1) (.bytes sizeofMsg), .pop (), .deal ()]).map
      (fun s => s.server.rows.length) = some 1 := by decide +kernel
  obtain ⟨failed, hFail, hFiles⟩ := Option.map_eq_some_iff.mp hKept
  obtain ⟨sent, hReplay, hQueue⟩ := Option.map_eq_some_iff.mp hSent
  obtain ⟨s, hRun, hRows⟩ := Option.map_eq_some_iff.mp hRun
  rw [run_cons, hFail, Option.bind_some, run_cons] at hReplay hRun
  obtain ⟨sent', hLogin, hEq⟩ := Option.bind_eq_some_iff.mp hReplay
  cases hEq
  rw [hLogin, Option.bind_some, run_cons] at hRun
  obtain ⟨queued, hRecv, hRest⟩ := Option.bind_eq_some_iff.mp hRun
  have hStart : ReachableUnder (system Unit Unit 2) Clean start :=
    .start ⟨fun _ => ⟨rfl, fun _ => rfl, rfl, rfl⟩, fun _ => rfl, _, _, rfl⟩
  have hDown : Clean start (.turn () (.report cpuTaken failing) []) := clean_failing fresh
  have hUp : Clean failed (.turn () (.relogin Relogin.Attempt.welcomed) [cpuFrame]) := clean_welcomed hFiles
  have hReplayed := (hStart.step hDown hFail).step hUp hLogin
  have hFree : Clean sent (.recv ((), 1) (.bytes sizeofMsg)) :=
    show Pipeline.Clean sent.server (.recv ((), 1) (.bytes sizeofMsg)) from of_decide_eq_true hQueue
  have hMeets : (system Unit Unit 2).Meets Clean queued [.pop (), .deal ()] := by
    apply System.Meets.of_forall _ hRest
    intro t e he
    simp only [List.mem_cons, List.not_mem_nil, or_false] at he
    obtain rfl | rfl := he <;> trivial
  obtain ⟨kept, hAccounted⟩ := accounted_of_clean (by decide) ((hReplayed.step hFree hRecv).of_run hMeets hRest)
  exact ⟨s, kept, hRows, hAccounted⟩

end MonitorSystem.EndToEnd
