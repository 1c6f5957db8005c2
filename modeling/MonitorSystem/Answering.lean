import MonitorSystem.Framing
import MonitorSystem.Alarms

/-! # Heartbeats and their answers

At every alarm the server sends a heartbeat on each connection in the table. The
main loop of a client reads them one after the other and answers each; the
dispatcher reads an answer behind the messages that were sent before it. Both
directions keep the order, but an answer may be late by any number of steps.
Each turn is atomic here, and messages are read whole.
-/

namespace MonitorSystem.Answering

open Msg Dispatch Framing ServerFunc Lib.CString Lib.Transition

/-- What is under way on each connection, to the client and to the server. -/
structure State where
  server : Server
  down : ℕ → List MonitorMsgDs
  up : ℕ → List ClientFrame

inductive Event
  | login (sockfd : Fd) (client : SockaddrIn) (ready : Bool) (r : Recv) (sent added : Bool)
  | tick (msg : MonitorMsgDs)
  | recv (conn : ℕ) (f : ClientFrame)
  | report (conn : ℕ) (f : ClientFrame)
  | dispatch (sockfd : Fd)

def beatsOn (beats : List Beat) (conn : ℕ) : ℕ := beats.countP fun b => b.target = some (.tcp conn)

def acksOn (acted : List Acted) (conn : ℕ) : ℕ :=
  acted.countP fun a => a.source = .conn conn ∧ classify a.msg = .ack

def answers (frames : List ClientFrame) : ℕ := frames.countP fun f => classify f.msg = .ack

def step (cfg : Config) (s : State) : Event → Option State
  | .login sockfd client ready r sent added =>
    (ServerFunc.step cfg s.server (.login sockfd client ready r sent added)).map fun t => { s with server := t }
  | .tick msg =>
    if msg.type = piHeart then
      (ServerFunc.step cfg s.server .tick).map fun t =>
        { s with
          server := t
          down := fun conn => s.down conn ++
            List.replicate (beatsOn t.beats conn - beatsOn s.server.beats conn) msg }
    else none
  | .recv conn f =>
    match s.down conn with
    | [] => none
    | msg :: rest =>
      let t := { s with down := Function.update s.down conn rest }
      if msg.type &&& piHeart ≠ 0 then
        if f.msg = { msg with type := piAck } then
          some { t with up := Function.update s.up conn (s.up conn ++ [f]) }
        else none
      else some t
  | .report conn f =>
    if classify f.msg = .push then some { s with up := Function.update s.up conn (s.up conn ++ [f]) } else none
  | .dispatch sockfd =>
    match s.server.socks sockfd with
    | some (.tcp conn) =>
      match s.up conn with
      | [] => none
      | f :: rest =>
        (ServerFunc.step cfg s.server (.readable sockfd (.data f.image))).map fun t =>
          { s with server := t, up := Function.update s.up conn rest }
    | _ => none

def system (cfg : Config) : System State Event where
  start s := Initial cfg s.server ∧ s.server.stopped = false ∧ (∀ conn, s.down conn = []) ∧ ∀ conn, s.up conn = []
  step := step cfg

/-- The count of a record and the heartbeats without an answer are at least five
together, and an answer grants no more than four heartbeats. -/
structure Granted (s : Server) : Prop extends Alarms.Inv s where
  running : s.stopped = false
  reactor : ∀ fd, s.epollfd fd = true → fd ∈ s.clients
  apart : ∀ fd fd' client client', s.clients.lookup fd = some client → s.clients.lookup fd' = some client' →
    client.conn = client'.conn → fd = fd'
  aimed : ∀ b ∈ s.beats, b.target = some (.tcp b.conn)
  known : ∀ conn, s.presented.length ≤ conn → beatsOn s.beats conn = 0 ∧ acksOn s.acted conn = 0
  granted : ∀ fd client, s.clients.lookup fd = some client →
    acksOn s.acted client.conn + 5 ≤ client.isonline + beatsOn s.beats client.conn
  bounded : ∀ fd client, s.clients.lookup fd = some client →
    client.isonline + beatsOn s.beats client.conn ≤ 8 + 4 * acksOn s.acted client.conn
  spent : ∀ conn, beatsOn s.beats conn ≤ 8 + 4 * acksOn s.acted conn
  removed : ∀ b ∈ s.beats, b.closed = true → acksOn s.acted b.conn + 5 ≤ beatsOn s.beats b.conn ∧
    ∀ fd client, s.clients.lookup fd = some client → client.conn ≠ b.conn
  kept : ∀ conn ∈ s.loggedIn, (∃ fd client, s.clients.lookup fd = some client ∧ client.conn = conn) ∨
    ∃ b ∈ s.beats, b.conn = conn ∧ b.closed = true

theorem beatsOn_concat (beats : List Beat) (b : Beat) (conn : ℕ) :
    beatsOn (beats ++ [b]) conn = beatsOn beats conn + if b.target = some (.tcp conn) then 1 else 0 := by
  rw [beatsOn, List.countP_append, List.countP_singleton]
  simp [beatsOn]

theorem acksOn_concat (acted : List Acted) (a : Acted) (conn : ℕ) :
    acksOn (acted ++ [a]) conn =
      acksOn acted conn + if a.source = .conn conn ∧ classify a.msg = .ack then 1 else 0 := by
  rw [acksOn, List.countP_append, List.countP_singleton]
  simp [acksOn]

theorem beatsOn_pos {beats : List Beat} {b : Beat} (h : b ∈ beats) {conn : ℕ} (hTarget : b.target = some (.tcp conn)) :
    0 < beatsOn beats conn :=
  List.countP_pos_iff.mpr ⟨b, h, decide_eq_true hTarget⟩

theorem Granted.old {s : Server} (h : Granted s) {b : Beat} (hb : b ∈ s.beats) : b.conn < s.presented.length := by
  by_contra hNew
  obtain ⟨hNone, _⟩ := h.known b.conn (Nat.le_of_not_lt hNew)
  have hPos := beatsOn_pos hb (h.aimed b hb)
  omega

theorem beatsOn_append_ne {beats more : List Beat} {conn conn' : ℕ} (hMore : ∀ b ∈ more, b.target = some (.tcp conn'))
    (hNe : conn ≠ conn') : beatsOn (beats ++ more) conn = beatsOn beats conn := by
  have hNone : more.countP (fun b => b.target = some (.tcp conn)) = 0 := by
    rw [List.countP_eq_zero]
    intro b hb
    rw [hMore b hb]
    simp [hNe.symm]
  rw [beatsOn, List.countP_append, hNone, Nat.add_zero]
  rfl

theorem acksOn_append_ne {acted more : List Acted} {conn conn' : ℕ} (hMore : ∀ a ∈ more, a.source = .conn conn')
    (hNe : conn ≠ conn') : acksOn (acted ++ more) conn = acksOn acted conn := by
  have hNone : more.countP (fun a => a.source = .conn conn ∧ classify a.msg = .ack) = 0 := by
    rw [List.countP_eq_zero]
    intro a ha
    rw [hMore a ha]
    simp [hNe.symm]
  rw [acksOn, List.countP_append, hNone, Nat.add_zero]
  rfl

/-- A step that concerns one client in the table: its record gets a new count, and
what is noted of heartbeats and answers is about its connection. -/
structure Concerns (s t : Server) (fd : Fd) (client : ClientDs) (isonline : Int) : Prop where
  lookup : s.clients.lookup fd = some client
  clients : t.clients = s.clients.insert fd { client with isonline := isonline }
  presented : t.presented = s.presented
  loggedIn : t.loggedIn = s.loggedIn
  stopped : t.stopped = s.stopped
  epollfd : t.epollfd = s.epollfd
  beats : ∃ more, t.beats = s.beats ++ more ∧
    ∀ b ∈ more, b.target = some (.tcp client.conn) ∧ b.conn = client.conn ∧ b.closed = false
  acted : ∃ more, t.acted = s.acted ++ more ∧ ∀ a ∈ more, a.source = .conn client.conn

theorem Concerns.other {s t : Server} {fd : Fd} {client : ClientDs} {isonline : Int}
    (h : Concerns s t fd client isonline) {conn : ℕ} (hNe : conn ≠ client.conn) :
    beatsOn t.beats conn = beatsOn s.beats conn ∧ acksOn t.acted conn = acksOn s.acted conn := by
  obtain ⟨beats, hBeats, hMore⟩ := h.beats
  obtain ⟨acted, hActed, hSource⟩ := h.acted
  rw [hBeats, hActed]
  exact ⟨beatsOn_append_ne (fun b hb => (hMore b hb).1) hNe, acksOn_append_ne hSource hNe⟩

theorem Concerns.lookup_cases {s t : Server} {fd fd' : Fd} {client client' : ClientDs} {isonline : Int}
    (h : Concerns s t fd client isonline) (hLookup : t.clients.lookup fd' = some client') :
    (fd' = fd ∧ client' = { client with isonline := isonline }) ∨ (fd' ≠ fd ∧ s.clients.lookup fd' = some client') := by
  rw [h.clients] at hLookup
  exact lookup_insert_cases hLookup

theorem Concerns.conn {s t : Server} {fd fd' : Fd} {client client' : ClientDs} {isonline : Int}
    (h : Concerns s t fd client isonline) (hLookup : t.clients.lookup fd' = some client') :
    ∃ old, s.clients.lookup fd' = some old ∧ old.conn = client'.conn := by
  obtain ⟨rfl, rfl⟩ | ⟨_, hOld⟩ := h.lookup_cases hLookup
  · exact ⟨client, h.lookup, rfl⟩
  · exact ⟨client', hOld, rfl⟩

theorem Granted.refresh {s t : Server} (h : Granted s) {fd : Fd} {client : ClientDs} {isonline : Int}
    (hStep : Concerns s t fd client isonline) (hInv : Alarms.Inv t)
    (hGranted : acksOn t.acted client.conn + 5 ≤ isonline + beatsOn t.beats client.conn)
    (hBounded : isonline + beatsOn t.beats client.conn ≤ 8 + 4 * acksOn t.acted client.conn) : Granted t := by
  obtain ⟨more, hBeats, hMore⟩ := hStep.beats
  refine { hInv with
    running := hStep.stopped.trans h.running, reactor := ?_, apart := ?_, aimed := ?_, known := ?_, granted := ?_,
    bounded := ?_, spent := ?_, removed := ?_, kept := ?_ }
  · intro fd' hReg
    rw [hStep.epollfd] at hReg
    rw [hStep.clients, AList.mem_insert]
    exact .inr (h.reactor fd' hReg)
  · intro fd₁ fd₂ client₁ client₂ h₁ h₂ hConn
    obtain ⟨old₁, hOld₁, hConn₁⟩ := hStep.conn h₁
    obtain ⟨old₂, hOld₂, hConn₂⟩ := hStep.conn h₂
    exact h.apart fd₁ fd₂ old₁ old₂ hOld₁ hOld₂ (hConn₁.trans (hConn.trans hConn₂.symm))
  · intro b hb
    rw [hBeats] at hb
    obtain hOld | hNew := List.mem_append.mp hb
    · exact h.aimed b hOld
    · obtain ⟨hTarget, hConn, _⟩ := hMore b hNew
      rw [hTarget, hConn]
  · intro conn hNew
    rw [hStep.presented] at hNew
    have hFresh := h.fresh fd client hStep.lookup
    obtain ⟨hSameBeats, hSameActed⟩ := hStep.other (show conn ≠ client.conn by omega)
    rw [hSameBeats, hSameActed]
    exact h.known conn hNew
  · intro fd' client' hLookup
    obtain ⟨rfl, rfl⟩ | ⟨hNe, hOld⟩ := hStep.lookup_cases hLookup
    · exact hGranted
    · have hOther : client'.conn ≠ client.conn := fun hConn => hNe (h.apart fd' fd _ _ hOld hStep.lookup hConn)
      obtain ⟨hSameBeats, hSameActed⟩ := hStep.other hOther
      rw [hSameBeats, hSameActed]
      exact h.granted fd' client' hOld
  · intro fd' client' hLookup
    obtain ⟨rfl, rfl⟩ | ⟨hNe, hOld⟩ := hStep.lookup_cases hLookup
    · exact hBounded
    · have hOther : client'.conn ≠ client.conn := fun hConn => hNe (h.apart fd' fd _ _ hOld hStep.lookup hConn)
      obtain ⟨hSameBeats, hSameActed⟩ := hStep.other hOther
      rw [hSameBeats, hSameActed]
      exact h.bounded fd' client' hOld
  · intro conn
    obtain rfl | hNe := eq_or_ne conn client.conn
    · have hRange := hInv.range fd { client with isonline := isonline } (by rw [hStep.clients, AList.lookup_insert])
      dsimp only at hRange
      omega
    · obtain ⟨hSameBeats, hSameActed⟩ := hStep.other hNe
      rw [hSameBeats, hSameActed]
      exact h.spent conn
  · intro b hb hClosed
    rw [hBeats] at hb
    obtain hOld | hNew := List.mem_append.mp hb
    · obtain ⟨hRemoved, hGone⟩ := h.removed b hOld hClosed
      obtain ⟨hSameBeats, hSameActed⟩ := hStep.other (hGone fd client hStep.lookup).symm
      rw [hSameBeats, hSameActed]
      refine ⟨hRemoved, ?_⟩
      intro fd' client' hLookup
      obtain ⟨old, hLookup', hConn⟩ := hStep.conn hLookup
      rw [← hConn]
      exact hGone fd' old hLookup'
    · obtain ⟨_, _, hOpen⟩ := hMore b hNew
      rw [hOpen] at hClosed
      cases hClosed
  · intro conn hLogged
    rw [hStep.loggedIn] at hLogged
    obtain ⟨fd', client', hLookup, hConn⟩ | ⟨b, hb, hConn, hClosed⟩ := h.kept conn hLogged
    · left
      obtain rfl | hNe := eq_or_ne fd' fd
      · rw [hStep.clients]
        cases hLookup.symm.trans hStep.lookup
        exact ⟨fd', _, AList.lookup_insert .., hConn⟩
      · refine ⟨fd', client', ?_, hConn⟩
        rw [hStep.clients, AList.lookup_insert_ne hNe]
        exact hLookup
    · right
      rw [hBeats]
      exact ⟨b, List.mem_append_left _ hb, hConn, hClosed⟩

theorem Granted.heartBeatOne {s : Server} (h : Granted s) (fd : Fd) : Granted (heartBeatOne s fd) := by
  have hInv := h.toInv.heartBeatOne fd
  obtain hSame | ⟨client, hLookup, ⟨hOne, hLast⟩ | ⟨hMore, hCounted⟩⟩ := heartBeatOne_cases s fd
  · rw [hSame]
    exact h
  · rw [hLast] at hInv ⊢
    have hOwn := h.own fd client hLookup
    have hOther : ∀ conn, conn ≠ client.conn →
        beatsOn (s.beats ++ [⟨s.socks fd, client.conn, true⟩]) conn = beatsOn s.beats conn := by
      intro conn hNe
      rw [beatsOn_concat, hOwn]
      simp [hNe.symm]
    refine { hInv with
      running := h.running, reactor := ?_, apart := ?_, aimed := ?_, known := ?_, granted := ?_, bounded := ?_,
      spent := ?_, removed := ?_, kept := ?_ }
    · intro fd' hReg
      obtain rfl | hNe := eq_or_ne fd' fd
      · cases (Function.update_self ..).symm.trans hReg
      · rw [AList.mem_erase]
        exact ⟨hNe, h.reactor fd' ((Function.update_of_ne hNe ..).symm.trans hReg)⟩
    · intro fd₁ fd₂ client₁ client₂ h₁ h₂
      exact h.apart fd₁ fd₂ client₁ client₂ (lookup_erase_some h₁).2 (lookup_erase_some h₂).2
    · intro b hb
      obtain hOld | hNew := List.mem_append.mp hb
      · exact h.aimed b hOld
      · rw [List.mem_singleton.mp hNew]
        exact hOwn
    · intro conn hNew
      have hFresh := h.fresh fd client hLookup
      have hNe : conn ≠ client.conn := Nat.ne_of_gt (Nat.lt_of_lt_of_le hFresh hNew)
      obtain ⟨hBeats, hActed⟩ := h.known conn hNew
      exact ⟨(hOther conn hNe).trans hBeats, hActed⟩
    · intro fd' client' hAfter
      obtain ⟨hNe, hOld⟩ := lookup_erase_some hAfter
      have hApart : client'.conn ≠ client.conn := fun hConn => hNe (h.apart fd' fd _ _ hOld hLookup hConn)
      dsimp only
      rw [hOther client'.conn hApart]
      exact h.granted fd' client' hOld
    · intro fd' client' hAfter
      obtain ⟨hNe, hOld⟩ := lookup_erase_some hAfter
      have hApart : client'.conn ≠ client.conn := fun hConn => hNe (h.apart fd' fd _ _ hOld hLookup hConn)
      dsimp only
      rw [hOther client'.conn hApart]
      exact h.bounded fd' client' hOld
    · intro conn
      change _ ≤ 8 + 4 * acksOn s.acted conn
      obtain rfl | hNe := eq_or_ne conn client.conn
      · have hBounded := h.bounded fd client hLookup
        rw [beatsOn_concat, if_pos hOwn]
        omega
      · rw [hOther conn hNe]
        exact h.spent conn
    · intro b hb hClosed
      obtain hOld | hNew := List.mem_append.mp hb
      · obtain ⟨hRemoved, hGone⟩ := h.removed b hOld hClosed
        dsimp only
        rw [hOther b.conn (hGone fd client hLookup).symm]
        exact ⟨hRemoved, fun fd' client' hAfter => hGone fd' client' (lookup_erase_some hAfter).2⟩
      · rw [List.mem_singleton.mp hNew]
        dsimp only
        refine ⟨?_, ?_⟩
        · have hGranted := h.granted fd client hLookup
          change acksOn s.acted client.conn + 5 ≤ _
          rw [beatsOn_concat, if_pos hOwn]
          omega
        · intro fd' client' hAfter hConn
          obtain ⟨hNe, hOld⟩ := lookup_erase_some hAfter
          exact hNe (h.apart fd' fd _ _ hOld hLookup hConn)
    · intro conn hLogged
      obtain ⟨fd', client', hLookup', hConn⟩ | ⟨b, hb, hConn, hClosed⟩ := h.kept conn hLogged
      · obtain rfl | hNe := eq_or_ne fd' fd
        · cases hLookup.symm.trans hLookup'
          exact .inr ⟨_, List.mem_append_right _ List.mem_cons_self, hConn, rfl⟩
        · exact .inl ⟨fd', client', (AList.lookup_erase_ne hNe).trans hLookup', hConn⟩
      · exact .inr ⟨b, List.mem_append_left _ hb, hConn, hClosed⟩
  · rw [hCounted] at hInv ⊢
    have hOwn := h.own fd client hLookup
    have hGranted := h.granted fd client hLookup
    have hBounded := h.bounded fd client hLookup
    refine h.refresh ⟨hLookup, rfl, rfl, rfl, rfl, rfl, ⟨_, rfl, ?_⟩, [], (List.append_nil _).symm, ?_⟩ hInv ?_ ?_
    · intro b hb
      rw [List.mem_singleton.mp hb]
      exact ⟨hOwn, rfl, rfl⟩
    · intro a ha
      cases ha
    · dsimp only
      rw [beatsOn_concat, if_pos hOwn]
      omega
    · dsimp only
      rw [beatsOn_concat, if_pos hOwn]
      omega

theorem Granted.tick {s : Server} (h : Granted s) : Granted (heartBeat s) :=
  @heartBeat_invariant Granted (fun _ fd hInv => hInv.heartBeatOne fd) s h

theorem Granted.login {cfg : Config} {s : Server} (h : Granted s) {sockfd : Fd} {client : SockaddrIn} {ready : Bool}
    {r : Recv} {sent added : Bool} (hFree : s.socks sockfd = none) :
    Granted (doLogin cfg s sockfd client ready r sent added) := by
  have hInv := @Alarms.Inv.login cfg s h.toInv sockfd client ready r sent added hFree
  have hAbsent : ∀ client', s.clients.lookup sockfd ≠ some client' := by
    intro client' hLookup
    cases hFree.symm.trans (h.own sockfd client' hLookup)
  have hKnown : ∀ conn, s.presented.length + 1 ≤ conn → beatsOn s.beats conn = 0 ∧ acksOn s.acted conn = 0 := by
    intro conn hNew
    exact h.known conn (by omega)
  obtain hEq | ⟨_, hEq⟩ := doLogin_cases cfg s sockfd client ready r sent added
  · rw [hEq] at hInv ⊢
    refine { hInv with
      running := h.running, reactor := ?_, apart := h.apart, aimed := h.aimed, known := ?_, granted := h.granted,
      bounded := h.bounded, spent := h.spent, removed := h.removed, kept := h.kept }
    · intro fd' hReg
      obtain rfl | hNe := eq_or_ne fd' sockfd
      · cases (Function.update_self ..).symm.trans hReg
      · exact h.reactor fd' ((Function.update_of_ne hNe ..).symm.trans hReg)
    · intro conn hNew
      rw [List.length_append] at hNew
      exact hKnown conn hNew
  · rw [hEq] at hInv ⊢
    have hCases : ∀ fd' client', (s.clients.insert sockfd ⟨8, client, s.presented.length⟩).lookup fd' = some client' →
        (fd' = sockfd ∧ client' = ⟨8, client, s.presented.length⟩) ∨
          (s.clients.lookup fd' = some client' ∧ client'.conn < s.presented.length) := by
      intro fd' client' hLookup
      obtain hNew | ⟨_, hOld⟩ := lookup_insert_cases hLookup
      · exact .inl hNew
      · exact .inr ⟨hOld, h.fresh fd' client' hOld⟩
    refine { hInv with
      running := h.running, reactor := ?_, apart := ?_, aimed := h.aimed, known := ?_, granted := ?_, bounded := ?_,
      spent := h.spent, removed := ?_, kept := ?_ }
    · intro fd' hReg
      rw [AList.mem_insert]
      obtain rfl | hNe := eq_or_ne fd' sockfd
      · exact .inl rfl
      · exact .inr (h.reactor fd' ((Function.update_of_ne hNe ..).symm.trans hReg))
    · intro fd₁ fd₂ client₁ client₂ h₁ h₂ hConn
      obtain ⟨rfl, rfl⟩ | ⟨hOld₁, hLt₁⟩ := hCases fd₁ client₁ h₁ <;>
        obtain ⟨rfl, rfl⟩ | ⟨hOld₂, hLt₂⟩ := hCases fd₂ client₂ h₂
      · rfl
      · exact absurd hConn.symm (Nat.ne_of_lt hLt₂)
      · exact absurd hConn (Nat.ne_of_lt hLt₁)
      · exact h.apart fd₁ fd₂ client₁ client₂ hOld₁ hOld₂ hConn
    · intro conn hNew
      rw [List.length_append] at hNew
      exact hKnown conn hNew
    · intro fd' client' hLookup
      obtain ⟨rfl, rfl⟩ | ⟨hOld, _⟩ := hCases fd' client' hLookup
      · obtain ⟨hBeats, hActed⟩ := h.known s.presented.length le_rfl
        dsimp only
        rw [hBeats, hActed]
        decide
      · exact h.granted fd' client' hOld
    · intro fd' client' hLookup
      obtain ⟨rfl, rfl⟩ | ⟨hOld, _⟩ := hCases fd' client' hLookup
      · obtain ⟨hBeats, hActed⟩ := h.known s.presented.length le_rfl
        dsimp only
        rw [hBeats, hActed]
        decide
      · exact h.bounded fd' client' hOld
    · intro b hb hClosed
      obtain ⟨hRemoved, hGone⟩ := h.removed b hb hClosed
      refine ⟨hRemoved, ?_⟩
      intro fd' client' hLookup
      obtain ⟨rfl, rfl⟩ | ⟨hOld, _⟩ := hCases fd' client' hLookup
      · exact Nat.ne_of_gt (h.old hb)
      · exact hGone fd' client' hOld
    · intro conn hLogged
      obtain hOld | hNew := List.mem_append.mp hLogged
      · obtain ⟨fd', client', hLookup, hConn⟩ | hRemoved := h.kept conn hOld
        · refine .inl ⟨fd', client', ?_, hConn⟩
          rw [AList.lookup_insert_ne]
          · exact hLookup
          · rintro rfl
            exact hAbsent client' hLookup
        · exact .inr hRemoved
      · rw [List.mem_singleton.mp hNew]
        exact .inl ⟨sockfd, _, AList.lookup_insert .., rfl⟩

theorem Granted.pushed {s : Server} (h : Granted s) (msg : Bytes) (source : Source) {acted : List Acted}
    (hActed : ∀ conn, acksOn acted conn = acksOn s.acted conn) :
    Granted { s with msg := msg, msgFrom := source, acted := acted } := by
  refine {
    own := h.own, range := h.range, fresh := h.fresh, running := h.running, reactor := h.reactor, apart := h.apart,
    aimed := h.aimed, known := ?_, granted := ?_, bounded := ?_, spent := ?_, removed := ?_, kept := h.kept }
  · intro conn hNew
    rw [hActed]
    exact h.known conn hNew
  · intro fd client hLookup
    rw [hActed]
    exact h.granted fd client hLookup
  · intro fd client hLookup
    rw [hActed]
    exact h.bounded fd client hLookup
  · intro conn
    dsimp only
    rw [hActed]
    exact h.spent conn
  · intro b hb hClosed
    rw [hActed]
    exact h.removed b hb hClosed

theorem Granted.dispatch {s : Server} (h : Granted s) {sockfd : Fd} {conn : ℕ} (hReg : s.epollfd sockfd = true)
    (hSock : s.socks sockfd = some (.tcp conn)) (f : ClientFrame)
    (hSent : classify f.msg = .ack → acksOn s.acted conn < beatsOn s.beats conn) :
    Granted (doDispatch s sockfd (.data f.image)) ∧
      (doDispatch s sockfd (.data f.image)).beats = s.beats ∧
      ∀ conn', acksOn (doDispatch s sockfd (.data f.image)).acted conn' =
        acksOn s.acted conn' + if conn' = conn ∧ classify f.msg = .ack then 1 else 0 := by
  have hMsg : ofStorage (recvInto s.msg (.data f.image)) = f.msg := ofStorage_recvInto s.msg f.msg f.pad
  obtain ⟨client, hLookup⟩ := Option.isSome_iff_exists.mp (AList.lookup_isSome.mpr (h.reactor sockfd hReg))
  have hConn : client.conn = conn := by
    cases (h.own sockfd client hLookup).symm.trans hSock
    rfl
  have hConcat : ∀ conn', acksOn (s.acted ++ [⟨.conn conn, f.msg⟩]) conn' =
      acksOn s.acted conn' + if conn' = conn ∧ classify f.msg = .ack then 1 else 0 := by
    intro conn'
    rw [acksOn_concat]
    simp [eq_comm]
  cases hKind : classify f.msg with
  | ack =>
    have hEq : doDispatch s sockfd (.data f.image) = { s with
        msg := recvInto s.msg (.data f.image)
        msgFrom := .conn conn
        clients := s.clients.insert sockfd { client with isonline := 5 }
        acted := s.acted ++ [⟨.conn conn, f.msg⟩] } := by
      rw [doDispatch, Recv.failed, if_neg Bool.false_ne_true, hSock]
      simp only [connOf, hMsg, hLookup, hKind]
    have hSent := hSent hKind
    have hRange := h.range sockfd client hLookup
    have hBounded := h.bounded sockfd client hLookup
    rw [hKind] at hConcat
    rw [hEq]
    refine ⟨?_, rfl, hConcat⟩
    refine h.refresh ⟨hLookup, rfl, rfl, rfl, rfl, rfl, ⟨[], (List.append_nil _).symm, by simp⟩, _, rfl, ?_⟩
      (h.toInv.refresh hLookup (by decide) rfl rfl rfl) ?_ ?_
    · intro a ha
      rw [List.mem_singleton.mp ha, hConn]
    · dsimp only
      rw [hConn, hConcat, if_pos ⟨rfl, rfl⟩]
      omega
    · dsimp only
      rw [hConn] at hBounded
      rw [hConn, hConcat, if_pos ⟨rfl, rfl⟩]
      omega
  | push =>
    have hEq : doDispatch s sockfd (.data f.image) = { s with
        msg := recvInto s.msg (.data f.image)
        msgFrom := .conn conn
        acted := s.acted ++ [⟨.conn conn, f.msg⟩] } := by
      rw [doDispatch, Recv.failed, if_neg Bool.false_ne_true, hSock]
      simp only [connOf, hMsg, hKind]
    have hSame : ∀ conn', acksOn (s.acted ++ [⟨.conn conn, f.msg⟩]) conn' = acksOn s.acted conn' := by
      intro conn'
      rw [hConcat, if_neg (by simp [hKind]), Nat.add_zero]
    rw [hKind] at hConcat
    rw [hEq]
    exact ⟨h.pushed _ _ hSame, rfl, hConcat⟩
  | ignored =>
    have hEq : doDispatch s sockfd (.data f.image) =
        { s with msg := recvInto s.msg (.data f.image), msgFrom := .conn conn } := by
      rw [doDispatch, Recv.failed, if_neg Bool.false_ne_true, hSock]
      simp only [connOf, hMsg, hKind]
    rw [hEq]
    refine ⟨h.pushed _ _ fun _ => rfl, rfl, ?_⟩
    intro conn'
    rw [if_neg (by simp)]
    rfl

/-- Every heartbeat of a connection is not read yet, or its answer is under way or was
acted upon; and there are no other answers. -/
structure Balanced (s : State) : Prop where
  heartbeats : ∀ conn, ∀ msg ∈ s.down conn, msg.type = piHeart
  balance : ∀ conn, beatsOn s.server.beats conn =
    (s.down conn).length + answers (s.up conn) + acksOn s.server.acted conn

structure Inv (s : State) : Prop where
  server : Granted s.server
  balanced : Balanced s

theorem answers_concat (frames : List ClientFrame) (f : ClientFrame) :
    answers (frames ++ [f]) = answers frames + if classify f.msg = .ack then 1 else 0 := by
  rw [answers, List.countP_append, List.countP_singleton]
  simp [answers]

theorem answers_cons (f : ClientFrame) (frames : List ClientFrame) :
    answers (f :: frames) = answers frames + if classify f.msg = .ack then 1 else 0 := by
  rw [answers, List.countP_cons]
  simp [answers]

theorem heartBeat_acted (s : Server) : (heartBeat s).acted = s.acted := by
  obtain ⟨socks, clients, epollfd, udpEpollfd, beats, hEq⟩ := heartBeat_frame s
  rw [hEq]

theorem beatsOn_heartBeat (s : Server) (conn : ℕ) : beatsOn s.beats conn ≤ beatsOn (heartBeat s).beats conn := by
  apply @heartBeat_invariant fun t => beatsOn s.beats conn ≤ beatsOn t.beats conn
  · intro t fd hLe
    obtain hSame | ⟨client, _, ⟨_, hLast⟩ | ⟨_, hCounted⟩⟩ := heartBeatOne_cases t fd
    · rw [hSame]
      exact hLe
    · rw [hLast, beatsOn_concat]
      exact hLe.trans (Nat.le_add_right _ _)
    · rw [hCounted, beatsOn_concat]
      exact hLe.trans (Nat.le_add_right _ _)
  · exact le_rfl

theorem running_step {cfg : Config} {s t : Server} {e : ServerFunc.Event} (h : ServerFunc.step cfg s e = some t) :
    handle cfg s e = some t := by
  rw [ServerFunc.step] at h
  split at h
  · cases h
  · exact h

theorem inv_login {cfg : Config} {s t : State} {sockfd : Fd} {client : SockaddrIn} {ready : Bool} {r : Recv}
    {sent added : Bool} (h : Inv s) (hStep : step cfg s (.login sockfd client ready r sent added) = some t) : Inv t := by
  obtain ⟨server, hServer, rfl⟩ := Option.map_eq_some_iff.mp hStep
  obtain ⟨⟨hFree, _⟩, hEq⟩ := Option.ite_none_right_eq_some.mp (running_step hServer)
  rw [← Option.some.inj hEq]
  refine ⟨h.server.login hFree, h.balanced.heartbeats, ?_⟩
  intro conn
  dsimp only
  obtain hEq | ⟨_, hEq⟩ := doLogin_cases cfg s.server sockfd client ready r sent added
  · rw [hEq]
    exact h.balanced.balance conn
  · rw [hEq]
    exact h.balanced.balance conn

theorem inv_tick {cfg : Config} {s t : State} {msg : MonitorMsgDs} (h : Inv s)
    (hStep : step cfg s (.tick msg) = some t) : Inv t := by
  obtain ⟨hType, hStep⟩ := Option.ite_none_right_eq_some.mp hStep
  obtain ⟨server, hServer, rfl⟩ := Option.map_eq_some_iff.mp hStep
  have hEq : server = heartBeat s.server := (Option.some.inj (running_step hServer)).symm
  rw [hEq]
  refine ⟨h.server.tick, ?_, ?_⟩
  · intro conn msg' hMsg
    obtain hOld | hNew := List.mem_append.mp hMsg
    · exact h.balanced.heartbeats conn msg' hOld
    · rw [List.eq_of_mem_replicate hNew]
      exact hType
  · intro conn
    have hBalance := h.balanced.balance conn
    have hMore := beatsOn_heartBeat s.server conn
    dsimp only
    rw [heartBeat_acted, List.length_append, List.length_replicate]
    omega

theorem inv_recv {cfg : Config} {s t : State} {conn : ℕ} {f : ClientFrame} (h : Inv s)
    (hStep : step cfg s (.recv conn f) = some t) : Inv t := by
  simp only [step] at hStep
  cases hDown : s.down conn with
  | nil =>
    rw [hDown] at hStep
    cases hStep
  | cons msg rest =>
    have hHeart := h.balanced.heartbeats conn msg (hDown ▸ List.mem_cons_self)
    rw [hDown] at hStep
    dsimp only at hStep
    rw [if_pos (by rw [hHeart]; decide)] at hStep
    obtain ⟨hAnswer, hEq⟩ := Option.ite_none_right_eq_some.mp hStep
    have hAck : classify f.msg = .ack := by
      rw [hAnswer, classify, if_pos (by dsimp only; decide)]
    rw [← Option.some.inj hEq]
    refine ⟨h.server, ?_, ?_⟩
    · intro conn' msg' hMsg
      dsimp only at hMsg
      obtain rfl | hNe := eq_or_ne conn' conn
      · rw [Function.update_self] at hMsg
        exact h.balanced.heartbeats conn' msg' (hDown ▸ List.mem_cons_of_mem _ hMsg)
      · rw [Function.update_of_ne hNe] at hMsg
        exact h.balanced.heartbeats conn' msg' hMsg
    · intro conn'
      have hBalance := h.balanced.balance conn'
      dsimp only
      obtain rfl | hNe := eq_or_ne conn' conn
      · rw [hDown, List.length_cons] at hBalance
        rw [Function.update_self, Function.update_self, answers_concat, if_pos hAck]
        omega
      · rw [Function.update_of_ne hNe, Function.update_of_ne hNe]
        exact hBalance

theorem inv_report {cfg : Config} {s t : State} {conn : ℕ} {f : ClientFrame} (h : Inv s)
    (hStep : step cfg s (.report conn f) = some t) : Inv t := by
  obtain ⟨hPush, hEq⟩ := Option.ite_none_right_eq_some.mp hStep
  rw [← Option.some.inj hEq]
  refine ⟨h.server, h.balanced.heartbeats, ?_⟩
  intro conn'
  dsimp only
  obtain rfl | hNe := eq_or_ne conn' conn
  · rw [Function.update_self, answers_concat, if_neg (by simp [hPush])]
    exact h.balanced.balance conn'
  · rw [Function.update_of_ne hNe]
    exact h.balanced.balance conn'

theorem inv_dispatch {cfg : Config} {s t : State} {sockfd : Fd} (h : Inv s)
    (hStep : step cfg s (.dispatch sockfd) = some t) : Inv t := by
  simp only [step] at hStep
  split at hStep
  · rename_i conn hSock
    cases hUp : s.up conn with
    | nil =>
      rw [hUp] at hStep
      cases hStep
    | cons f rest =>
      rw [hUp] at hStep
      obtain ⟨server, hServer, rfl⟩ := Option.map_eq_some_iff.mp hStep
      obtain ⟨⟨hReg, _⟩, hEq⟩ := Option.ite_none_right_eq_some.mp (running_step hServer)
      have hOwn := h.balanced.balance conn
      rw [hUp, answers_cons] at hOwn
      have hSent : classify f.msg = .ack → acksOn s.server.acted conn < beatsOn s.server.beats conn := by
        intro hAck
        rw [if_pos hAck] at hOwn
        omega
      obtain ⟨hGranted, hBeats, hActed⟩ := h.server.dispatch hReg hSock f hSent
      rw [← Option.some.inj hEq]
      refine ⟨hGranted, h.balanced.heartbeats, ?_⟩
      intro conn'
      dsimp only
      rw [hBeats, hActed]
      obtain rfl | hNe := eq_or_ne conn' conn
      · rw [Function.update_self, hOwn]
        simp only [true_and]
        omega
      · rw [Function.update_of_ne hNe, if_neg (fun hBoth => hNe hBoth.1)]
        exact h.balanced.balance conn'
  · cases hStep

theorem inv_step {cfg : Config} {s t : State} {e : Event} (h : Inv s) (hStep : step cfg s e = some t) : Inv t := by
  cases e with
  | login sockfd client ready r sent added => exact inv_login h hStep
  | tick msg => exact inv_tick h hStep
  | recv conn f => exact inv_recv h hStep
  | report conn f => exact inv_report h hStep
  | dispatch sockfd => exact inv_dispatch h hStep

theorem granted_start {cfg : Config} {s : Server} (h : Initial cfg s) (hRunning : s.stopped = false) : Granted s := by
  have hNone : ∀ fd client, s.clients.lookup fd ≠ some client := by
    intro fd client
    rw [h.clients, AList.lookup_empty]
    simp
  refine { Alarms.inv_start h with
    running := hRunning, reactor := ?_, apart := ?_, aimed := ?_, known := ?_, granted := ?_, bounded := ?_,
    spent := ?_, removed := ?_, kept := ?_ }
  · intro fd hReg
    rw [h.epollfd] at hReg
    cases hReg
  · intro fd _ client _ hLookup
    exact absurd hLookup (hNone fd client)
  · intro b hb
    rw [h.beats] at hb
    cases hb
  · intro conn _
    rw [h.beats, h.acted]
    exact ⟨rfl, rfl⟩
  · intro fd client hLookup
    exact absurd hLookup (hNone fd client)
  · intro fd client hLookup
    exact absurd hLookup (hNone fd client)
  · intro conn
    rw [h.beats]
    exact Nat.zero_le _
  · intro b hb
    rw [h.beats] at hb
    cases hb
  · intro conn hLogged
    rw [h.loggedIn] at hLogged
    cases hLogged

theorem inv_of_reachable {cfg : Config} {s : State} (h : Reachable (system cfg) s) : Inv s := by
  refine Reachable.invariant ?_ (fun s e t => inv_step) h
  rintro s ⟨hInitial, hRunning, hDown, hUp⟩
  refine ⟨granted_start hInitial hRunning, ?_, ?_⟩
  · intro conn msg hMsg
    rw [hDown] at hMsg
    cases hMsg
  · intro conn
    rw [hInitial.beats, hInitial.acted, hDown, hUp]
    rfl

/-- How many heartbeats of a connection have no answer that the server has acted upon. -/
def unanswered (s : State) (conn : ℕ) : ℕ := (s.down conn).length + answers (s.up conn)

/-- What the two sides know of each other: every heartbeat is answered at most once and
nothing else is; the server never meets an answer of a connection it has no record
of; it closes a connection only over five heartbeats without an answer, so a client
that never leaves as many stays in the table; and it sends no more than eight of them
and four for each answer. -/
structure Attentive (s : State) : Prop extends Balanced s where
  running : s.server.stopped = false
  spent : ∀ conn, beatsOn s.server.beats conn ≤ 8 + 4 * acksOn s.server.acted conn
  closed : ∀ b ∈ s.server.beats, b.closed = true → 5 ≤ unanswered s b.conn
  online : ∀ conn ∈ s.server.loggedIn, unanswered s conn < 5 →
    ∃ fd client, s.server.clients.lookup fd = some client ∧ client.conn = conn ∧
      5 ≤ client.isonline + unanswered s conn

theorem attentive_of_reachable {cfg : Config} {s : State} (h : Reachable (system cfg) s) : Attentive s := by
  have hInv := inv_of_reachable h
  have hClosed : ∀ b ∈ s.server.beats, b.closed = true → 5 ≤ unanswered s b.conn := by
    intro b hb hClosed
    have hBalance := hInv.balanced.balance b.conn
    obtain ⟨hRemoved, _⟩ := hInv.server.removed b hb hClosed
    rw [unanswered]
    omega
  refine { hInv.balanced with
    running := hInv.server.running, spent := hInv.server.spent, closed := hClosed, online := ?_ }
  intro conn hLogged hFew
  obtain ⟨fd, client, hLookup, rfl⟩ | ⟨b, hb, rfl, hGone⟩ := hInv.server.kept conn hLogged
  · refine ⟨fd, client, hLookup, rfl, ?_⟩
    have hBalance := hInv.balanced.balance client.conn
    have hGranted := hInv.server.granted fd client hLookup
    rw [unanswered]
    omega
  · exact absurd (hClosed b hb hGone) (Nat.not_le.mpr hFew)

def answered : ClientFrame := ⟨cleared piAck, [0, 0, 0, 0], rfl, by decide⟩

theorem attentive_answered : ∃ s : State, Attentive s ∧ unanswered s 0 = 1 ∧ acksOn s.server.acted 0 = 1 := by
  have hStart : (system config).start ⟨justStarted config, fun _ => [], fun _ => []⟩ :=
    ⟨initial_justStarted config, rfl, fun _ => rfl, fun _ => rfl⟩
  have hRun : ((system config).run ⟨justStarted config, fun _ => [], fun _ => []⟩
      [.login 5 urgent true (.data (lit "token")) true true, .tick (cleared piHeart), .tick (cleared piHeart),
        .recv 0 answered, .dispatch 5]).map (fun s => (unanswered s 0, acksOn s.server.acted 0)) = some (1, 1) := by
    decide +kernel
  obtain ⟨s, hReach, hSeen⟩ := Reachable.of_observed hStart hRun
  obtain ⟨hUnanswered, hActed⟩ := Prod.mk.inj hSeen
  exact ⟨s, attentive_of_reachable hReach, hUnanswered, hActed⟩

end MonitorSystem.Answering
