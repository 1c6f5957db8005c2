import MonitorSystem.Lib.Traverse
import MonitorSystem.Lifetime

/-! # How long a client stays in the table

A login grants eight alarms and every acknowledgement five. The alarm that
uses up the last one removes the client.
-/

namespace MonitorSystem.Alarms

open Msg Dispatch ServerFunc Lib.CString Lib.Transition Lib.Traverse
open Lifetime (dispatchRecv dispatchClassify)

/-- Logins, alarms and acknowledgements of clients in the table. -/
def Counted (s : Server) : Event → Prop
  | .login _ _ _ _ _ _ | .tick => True
  | .readable sockfd r =>
    r.failed = false ∧ classify (ofStorage (recvInto s.msg r)) = .ack ∧ sockfd ∈ s.clients
  | _ => False

def isTick : Event → Bool
  | .tick => true
  | _ => false

def isAck (fd : Fd) : Event → Bool
  | .readable sockfd _ => sockfd = fd
  | _ => false

def ticks (events : List Event) : Nat := events.countP isTick

/-- After these events since the login the next alarm removes the client: it is the eighth
without an acknowledgement or the fifth after the last one. -/
def Due (fd : Fd) (events : List Event) : Prop :=
  ((∀ e ∈ events, isAck fd e = false) ∧ ticks events = 7) ∨
    ∃ before e after, events = before ++ e :: after ∧ isAck fd e = true ∧ (∀ x ∈ after, isAck fd x = false) ∧
      ticks after = 4

def Expired (fd : Fd) (events : List Event) : Prop :=
  ∃ before after, events = before ++ .tick :: after ∧ Due fd before

/-- The first acknowledgement comes before the eighth alarm, and at most four alarms pass
between an acknowledgement and the next. -/
structure Prompt (fd : Fd) (events : List Event) : Prop where
  first : ∀ before after, events = before ++ after → (∀ e ∈ before, isAck fd e = false) → ticks before ≤ 7
  again : ∀ before e between after, events = before ++ e :: (between ++ after) → isAck fd e = true →
    (∀ x ∈ between, isAck fd x = false) → ticks between ≤ 4

def count (fd : Fd) (left : Int) (e : Event) : Int :=
  if isAck fd e then 5 else if isTick e then left - 1 else left

def left (fd : Fd) (events : List Event) : Int := events.foldl (count fd) 8

def countDown (client : ClientDs) : Option ClientDs :=
  if client.isonline > 0 then
    if client.isonline - 1 ≤ 0 then none else some { client with isonline := client.isonline - 1 }
  else some client

theorem foldl_count {fd : Fd} {events : List Event} (hQuiet : ∀ e ∈ events, isAck fd e = false) (n : Int) :
    events.foldl (count fd) n = n - ticks events := by
  induction events generalizing n with
  | nil => simp [ticks]
  | cons e events ih =>
    have hHead : isAck fd e = false := hQuiet e List.mem_cons_self
    rw [List.foldl_cons, ih fun x hx => hQuiet x (List.mem_cons_of_mem e hx), count, hHead, ticks, ticks,
      List.countP_cons]
    cases isTick e with
    | false => simp
    | true =>
      simp only [Bool.false_eq_true, if_false, if_true]
      omega

theorem left_quiet {fd : Fd} {events : List Event} (hQuiet : ∀ e ∈ events, isAck fd e = false) :
    left fd events = 8 - ticks events := foldl_count hQuiet 8

theorem left_answered {fd : Fd} {before after : List Event} {e : Event} (hAck : isAck fd e = true)
    (hQuiet : ∀ x ∈ after, isAck fd x = false) : left fd (before ++ e :: after) = 5 - ticks after := by
  rw [left, List.foldl_append, List.foldl_cons, foldl_count hQuiet, count, if_pos hAck]

theorem last_ack (fd : Fd) (events : List Event) : (∀ e ∈ events, isAck fd e = false) ∨
    ∃ before e after, events = before ++ e :: after ∧ isAck fd e = true ∧ ∀ x ∈ after, isAck fd x = false := by
  induction events with
  | nil =>
    left
    intro e hMem
    cases hMem
  | cons e events ih =>
    obtain hQuiet | ⟨before, x, after, hEq, hAck, hQuiet⟩ := ih
    · cases hHead : isAck fd e with
      | true => exact .inr ⟨[], e, events, rfl, hHead, hQuiet⟩
      | false =>
        left
        intro x hMem
        obtain rfl | hMem := List.mem_cons.mp hMem
        · exact hHead
        · exact hQuiet x hMem
    · exact .inr ⟨e :: before, x, after, by rw [hEq]; rfl, hAck, hQuiet⟩

theorem due_iff (fd : Fd) (events : List Event) : Due fd events ↔ left fd events = 1 := by
  constructor
  · rintro (⟨hQuiet, hTicks⟩ | ⟨before, e, after, rfl, hAck, hQuiet, hTicks⟩)
    · rw [left_quiet hQuiet, hTicks]
      rfl
    · rw [left_answered hAck hQuiet, hTicks]
      rfl
  · intro hLeft
    obtain hQuiet | ⟨before, e, after, rfl, hAck, hQuiet⟩ := last_ack fd events
    · rw [left_quiet hQuiet] at hLeft
      exact .inl ⟨hQuiet, by omega⟩
    · rw [left_answered hAck hQuiet] at hLeft
      exact .inr ⟨before, e, after, rfl, hAck, hQuiet, by omega⟩

theorem expired_concat (fd : Fd) (events : List Event) (e : Event) :
    Expired fd (events ++ [e]) ↔ Expired fd events ∨ (e = .tick ∧ Due fd events) := by
  constructor
  · rintro ⟨before, after, hEq, hDue⟩
    obtain rfl | ⟨after, x, rfl⟩ := List.eq_nil_or_concat' after
    · obtain ⟨rfl, hTick⟩ := List.append_inj' hEq rfl
      exact .inr ⟨List.singleton_inj.mp hTick, hDue⟩
    · rw [← List.cons_append, ← List.append_assoc] at hEq
      exact .inl ⟨before, after, (List.append_inj' hEq rfl).1, hDue⟩
  · rintro (⟨before, after, rfl, hDue⟩ | ⟨rfl, hDue⟩)
    · exact ⟨before, after ++ [e], by simp, hDue⟩
    · exact ⟨events, [], rfl, hDue⟩

theorem quiet_tick {fd : Fd} {events : List Event} (hQuiet : ∀ e ∈ events, isAck fd e = false) :
    ∀ e ∈ events ++ [.tick], isAck fd e = false := by
  intro e hMem
  obtain hMem | hMem := List.mem_append.mp hMem
  · exact hQuiet e hMem
  · rw [List.mem_singleton.mp hMem]
    rfl

theorem ticks_tick (events : List Event) : ticks (events ++ [.tick]) = ticks events + 1 := by
  simp [ticks, isTick]

theorem not_expired_of_prompt {fd : Fd} {events : List Event} (h : Prompt fd events) : ¬ Expired fd events := by
  rintro ⟨before, after, rfl, ⟨hQuiet, hTicks⟩ | ⟨first, e, between, rfl, hAck, hQuiet, hTicks⟩⟩
  · have hFirst := h.first (before ++ [.tick]) after (by simp) (quiet_tick hQuiet)
    rw [ticks_tick] at hFirst
    omega
  · have hAgain := h.again first e (between ++ [.tick]) after (by simp) hAck (quiet_tick hQuiet)
    rw [ticks_tick] at hAgain
    omega

theorem lookup_heartBeatOne (s : Server) (fd : Fd) :
    (heartBeatOne s fd).clients.lookup fd = (s.clients.lookup fd).bind countDown := by
  rw [heartBeatOne]
  cases hLookup : s.clients.lookup fd with
  | none => exact hLookup
  | some client =>
    rw [Option.bind_some, countDown]
    dsimp only
    split
    · split
      · exact AList.lookup_erase ..
      · exact AList.lookup_insert s.clients
    · exact hLookup

theorem lookup_heartBeat (s : Server) (fd : Fd) :
    (heartBeat s).clients.lookup fd = (s.clients.lookup fd).bind countDown := by
  have hOther : ∀ (t : Server) (fd' : Fd) (c : Option ClientDs), fd' ≠ fd → t.clients.lookup fd = c →
      (heartBeatOne t fd').clients.lookup fd = c := by
    intro t fd' c hNe hLookup
    rw [(Lifetime.heartBeatOne_other hNe.symm).1, hLookup]
  rw [heartBeat]
  by_cases hMem : fd ∈ s.clients
  · apply @foldl_visit _ _ heartBeatOne (fun t => t.clients.lookup fd = s.clients.lookup fd)
      (fun t => t.clients.lookup fd = (s.clients.lookup fd).bind countDown) fd
    · intro t fd' hNe hLookup
      exact hOther t fd' _ hNe hLookup
    · intro t hLookup
      rw [lookup_heartBeatOne, hLookup]
    · intro t fd' hNe hLookup
      exact hOther t fd' _ hNe hLookup
    · exact (List.perm_insertionSort (· ≤ ·) s.clients.keys).nodup_iff.mpr s.clients.nodupKeys
    · rw [List.mem_insertionSort, ← AList.mem_keys]
      exact hMem
    · rfl
  · rw [AList.lookup_eq_none.mpr hMem, Option.bind_none]
    apply @foldl_others _ _ heartBeatOne (fun t => t.clients.lookup fd = none) fd
    · intro t fd' hNe hLookup
      exact hOther t fd' none hNe hLookup
    · rw [List.mem_insertionSort, ← AList.mem_keys]
      exact hMem
    · exact AList.lookup_eq_none.mpr hMem

theorem doDispatch_ack {s : Server} {sockfd : Fd} {r : Recv} {client : ClientDs} (hData : r.failed = false)
    (hAck : classify (ofStorage (recvInto s.msg r)) = .ack) (hLookup : s.clients.lookup sockfd = some client) :
    (doDispatch s sockfd r).clients = s.clients.insert sockfd { client with isonline := 5 } ∧
      (doDispatch s sockfd r).socks = s.socks ∧ (doDispatch s sockfd r).presented = s.presented := by
  rw [Lifetime.doDispatch_eq, dispatchRecv, if_neg (by rw [hData]; decide), dispatchClassify]
  dsimp only
  rw [hAck, hLookup]
  exact ⟨rfl, rfl, rfl⟩

structure Inv (s : Server) : Prop where
  own : ∀ fd client, s.clients.lookup fd = some client → s.socks fd = some (.tcp client.conn)
  range : ∀ fd client, s.clients.lookup fd = some client → 1 ≤ client.isonline ∧ client.isonline ≤ 8
  fresh : ∀ fd client, s.clients.lookup fd = some client → client.conn < s.presented.length

theorem countDown_some {client left : ClientDs} (h : countDown client = some left) (hRange : 1 ≤ client.isonline) :
    left = { client with isonline := client.isonline - 1 } ∧ 1 ≤ left.isonline := by
  rw [countDown, if_pos (by omega)] at h
  split at h
  · cases h
  · cases h
    exact ⟨rfl, by dsimp only; omega⟩

theorem countDown_none_iff {client : ClientDs} (hRange : 1 ≤ client.isonline) :
    countDown client = none ↔ client.isonline = 1 := by
  rw [countDown, if_pos (by omega)]
  split
  · exact iff_of_true rfl (by omega)
  · exact iff_of_false (by simp) (by omega)

theorem Inv.refresh {s t : Server} (h : Inv s) {fd : Fd} {client : ClientDs}
    (hLookup : s.clients.lookup fd = some client) {isonline : Int} (hRange : 1 ≤ isonline ∧ isonline ≤ 8)
    (hClients : t.clients = s.clients.insert fd { client with isonline := isonline }) (hSocks : t.socks = s.socks)
    (hPresented : t.presented = s.presented) : Inv t := by
  have hCases : ∀ fd' client', t.clients.lookup fd' = some client' →
      (fd' = fd ∧ client' = { client with isonline := isonline }) ∨ s.clients.lookup fd' = some client' := by
    intro fd' client' hAfter
    rw [hClients] at hAfter
    exact (lookup_insert_cases hAfter).imp_right And.right
  constructor
  · intro fd' client' hAfter
    rw [hSocks]
    obtain ⟨rfl, rfl⟩ | hOld := hCases fd' client' hAfter
    · exact h.own fd' client hLookup
    · exact h.own fd' client' hOld
  · intro fd' client' hAfter
    obtain ⟨rfl, rfl⟩ | hOld := hCases fd' client' hAfter
    · exact hRange
    · exact h.range fd' client' hOld
  · intro fd' client' hAfter
    rw [hPresented]
    obtain ⟨rfl, rfl⟩ | hOld := hCases fd' client' hAfter
    · exact h.fresh fd' client hLookup
    · exact h.fresh fd' client' hOld

theorem Inv.heartBeatOne {s : Server} (h : Inv s) (fd : Fd) : Inv (heartBeatOne s fd) := by
  obtain hSame | ⟨client, hLookup, ⟨_, hLast⟩ | ⟨hMore, hCounted⟩⟩ := heartBeatOne_cases s fd
  · rw [hSame]
    exact h
  · rw [hLast]
    constructor
    · intro fd' client' hAfter
      obtain ⟨hNe, hOld⟩ := lookup_erase_some hAfter
      exact (Function.update_of_ne hNe ..).trans (h.own fd' client' hOld)
    · intro fd' client' hAfter
      exact h.range fd' client' (lookup_erase_some hAfter).2
    · intro fd' client' hAfter
      exact h.fresh fd' client' (lookup_erase_some hAfter).2
  · rw [hCounted]
    have hRange := h.range fd client hLookup
    exact h.refresh hLookup (by omega) rfl rfl rfl

theorem presented_heartBeat (s : Server) : (heartBeat s).presented = s.presented := by
  obtain ⟨socks, clients, epollfd, udpEpollfd, beats, hEq⟩ := heartBeat_frame s
  rw [hEq]

theorem doLogin_clients {cfg : Config} {s : Server} (h : Inv s) {sockfd : Fd} {client : SockaddrIn} {ready : Bool}
    {r : Recv} {sent added : Bool} (hFree : s.socks sockfd = none) :
    (doLogin cfg s sockfd client ready r sent added).presented.length = s.presented.length + 1 ∧
      sockfd ∉ s.clients ∧
      (((doLogin cfg s sockfd client ready r sent added).clients = s.clients ∧
          (doLogin cfg s sockfd client ready r sent added).socks = s.socks) ∨
        ((doLogin cfg s sockfd client ready r sent added).clients =
            s.clients.insert sockfd ⟨8, client, s.presented.length⟩ ∧
          (doLogin cfg s sockfd client ready r sent added).socks =
            Function.update s.socks sockfd (some (.tcp s.presented.length)))) := by
  have hAbsent : sockfd ∉ s.clients := by
    rw [← AList.lookup_eq_none, Option.eq_none_iff_forall_not_mem]
    intro client' hLookup
    cases hFree.symm.trans (h.own sockfd client' hLookup)
  obtain hEq | ⟨_, hEq⟩ := doLogin_cases cfg s sockfd client ready r sent added
  · rw [hEq]
    refine ⟨List.length_append, hAbsent, .inl ⟨rfl, ?_⟩⟩
    rw [← hFree]
    exact Function.update_eq_self sockfd s.socks
  · rw [hEq]
    exact ⟨List.length_append, hAbsent, .inr ⟨rfl, rfl⟩⟩

theorem Inv.login {cfg : Config} {s : Server} (h : Inv s) {sockfd : Fd} {client : SockaddrIn} {ready : Bool}
    {r : Recv} {sent added : Bool} (hFree : s.socks sockfd = none) :
    Inv (doLogin cfg s sockfd client ready r sent added) := by
  obtain ⟨hLength, _, ⟨hClients, hSocks⟩ | ⟨hClients, hSocks⟩⟩ :=
    @doLogin_clients cfg s h sockfd client ready r sent added hFree
  · constructor
    · rw [hClients, hSocks]
      exact h.own
    · rw [hClients]
      exact h.range
    · rw [hClients, hLength]
      intro fd' client' hLookup
      exact Nat.lt_succ_of_lt (h.fresh fd' client' hLookup)
  · constructor
    · rw [hClients, hSocks]
      intro fd' client' hAfter
      obtain ⟨rfl, rfl⟩ | ⟨hNe, hOld⟩ := lookup_insert_cases hAfter
      · exact Function.update_self ..
      · rw [Function.update_of_ne hNe]
        exact h.own fd' client' hOld
    · rw [hClients]
      intro fd' client' hAfter
      obtain ⟨rfl, rfl⟩ | ⟨_, hOld⟩ := lookup_insert_cases hAfter
      · exact ⟨by dsimp only; omega, by dsimp only; omega⟩
      · exact h.range fd' client' hOld
    · rw [hClients, hLength]
      intro fd' client' hAfter
      obtain ⟨rfl, rfl⟩ | ⟨_, hOld⟩ := lookup_insert_cases hAfter
      · exact Nat.lt_succ_self _
      · exact Nat.lt_succ_of_lt (h.fresh fd' client' hOld)

theorem counted_cases {cfg : Config} {s t : Server} {e : Event} (hCounted : Counted s e)
    (hStep : step cfg s e = some t) :
    (∃ sockfd client ready r sent added, e = .login sockfd client ready r sent added ∧ s.socks sockfd = none ∧
      t = doLogin cfg s sockfd client ready r sent added) ∨
    (e = .tick ∧ t = heartBeat s) ∨
    ∃ sockfd r client, e = .readable sockfd r ∧ s.clients.lookup sockfd = some client ∧
      t.clients = s.clients.insert sockfd { client with isonline := 5 } ∧ t.socks = s.socks ∧
      t.presented = s.presented := by
  rw [step] at hStep
  split at hStep
  · cases hStep
  · cases e with
    | login sockfd client ready r sent added =>
      obtain ⟨⟨hFree, _⟩, hEq⟩ := Option.ite_none_right_eq_some.mp hStep
      exact .inl ⟨sockfd, client, ready, r, sent, added, rfl, hFree, (Option.some.inj hEq).symm⟩
    | tick => exact .inr (.inl ⟨rfl, (Option.some.inj hStep).symm⟩)
    | readable sockfd r =>
      obtain ⟨_, hEq⟩ := Option.ite_none_right_eq_some.mp hStep
      obtain ⟨hData, hAck, hMem⟩ := hCounted
      obtain ⟨client, hLookup⟩ := Option.isSome_iff_exists.mp (AList.lookup_isSome.mpr hMem)
      rw [← Option.some.inj hEq]
      exact .inr (.inr ⟨sockfd, r, client, rfl, hLookup, doDispatch_ack hData hAck hLookup⟩)
    | datagram => cases hCounted
    | udpLogin => cases hCounted
    | udpConnect => cases hCounted
    | udpReadable => cases hCounted
    | udpStream => cases hCounted
    | udpError => cases hCounted

theorem inv_step {cfg : Config} {s t : Server} {e : Event} (h : Inv s) (hCounted : Counted s e)
    (hStep : step cfg s e = some t) : Inv t := by
  obtain ⟨sockfd, client, ready, r, sent, added, _, hFree, rfl⟩ | ⟨_, rfl⟩ |
    ⟨sockfd, r, client, _, hLookup, hClients, hSocks, hPresented⟩ := counted_cases hCounted hStep
  · exact h.login hFree
  · exact @heartBeat_invariant Inv (fun _ fd hInv => hInv.heartBeatOne fd) s h
  · exact h.refresh hLookup (by decide) hClients hSocks hPresented

theorem inv_start {cfg : Config} {s : Server} (h : Initial cfg s) : Inv s := by
  have hNone : ∀ fd client, s.clients.lookup fd ≠ some client := by
    intro fd client
    rw [h.clients, AList.lookup_empty]
    simp
  constructor
  · intro fd client hLookup
    exact absurd hLookup (hNone fd client)
  · intro fd client hLookup
    exact absurd hLookup (hNone fd client)
  · intro fd client hLookup
    exact absurd hLookup (hNone fd client)

def Online (s : Server) (fd : Fd) (conn : Nat) : Prop :=
  ∃ client, s.clients.lookup fd = some client ∧ client.conn = conn

/-- What has become of a client, given what happened since its login. -/
structure Tracks (s : Server) (fd : Fd) (conn : Nat) (events : List Event) : Prop extends Inv s where
  old : conn < s.presented.length
  alive : ¬ Expired fd events →
    ∃ client, s.clients.lookup fd = some client ∧ client.conn = conn ∧ client.isonline = left fd events
  dead : Expired fd events → ∀ client, s.clients.lookup fd = some client → client.conn ≠ conn

theorem left_concat (fd : Fd) (events : List Event) (e : Event) :
    left fd (events ++ [e]) = count fd (left fd events) e := by
  rw [left, List.foldl_append]
  rfl

theorem Tracks.login {cfg : Config} {s : Server} {fd : Fd} {conn : Nat} {events : List Event}
    (h : Tracks s fd conn events) {sockfd : Fd} {client : SockaddrIn} {ready : Bool} {r : Recv} {sent added : Bool}
    (hFree : s.socks sockfd = none) : Tracks (doLogin cfg s sockfd client ready r sent added) fd conn
      (events ++ [.login sockfd client ready r sent added]) := by
  have hExpired : Expired fd (events ++ [.login sockfd client ready r sent added]) ↔ Expired fd events := by
    rw [expired_concat]
    simp
  obtain ⟨hLength, hAbsent, hClients⟩ := @doLogin_clients cfg s h.toInv sockfd client ready r sent added hFree
  refine { h.toInv.login hFree with old := ?_, alive := ?_, dead := ?_ }
  · rw [hLength]
    exact Nat.lt_succ_of_lt h.old
  · intro hNot
    rw [hExpired] at hNot
    obtain ⟨client', hLookup, hConn, hLeft⟩ := h.alive hNot
    refine ⟨client', ?_, hConn, by rw [left_concat]; exact hLeft⟩
    obtain ⟨hSame, _⟩ | ⟨hInsert, _⟩ := hClients
    · rw [hSame]
      exact hLookup
    · have hNe : fd ≠ sockfd := by
        rintro rfl
        exact hAbsent (AList.lookup_isSome.mp (by rw [hLookup]; rfl))
      rw [hInsert, AList.lookup_insert_ne hNe]
      exact hLookup
  · intro hDead client' hLookup
    rw [hExpired] at hDead
    obtain ⟨hSame, _⟩ | ⟨hInsert, _⟩ := hClients
    · rw [hSame] at hLookup
      exact h.dead hDead client' hLookup
    · rw [hInsert] at hLookup
      obtain ⟨rfl, rfl⟩ | ⟨_, hOld⟩ := lookup_insert_cases hLookup
      · exact Nat.ne_of_gt h.old
      · exact h.dead hDead client' hOld

theorem Tracks.tick {s : Server} {fd : Fd} {conn : Nat} {events : List Event} (h : Tracks s fd conn events) :
    Tracks (heartBeat s) fd conn (events ++ [.tick]) := by
  have hInv : Inv (heartBeat s) := @heartBeat_invariant Inv (fun _ fd hInv => hInv.heartBeatOne fd) s h.toInv
  have hExpired : Expired fd (events ++ [.tick]) ↔ Expired fd events ∨ Due fd events := by
    rw [expired_concat]
    simp
  refine { hInv with old := ?_, alive := ?_, dead := ?_ }
  · rw [presented_heartBeat]
    exact h.old
  · intro hNot
    rw [hExpired, not_or, due_iff] at hNot
    obtain ⟨client, hLookup, hConn, hLeft⟩ := h.alive hNot.1
    have hRange := h.range fd client hLookup
    cases hCount : countDown client with
    | none => exact absurd (hLeft.symm.trans ((countDown_none_iff hRange.1).mp hCount)) hNot.2
    | some rest =>
      obtain ⟨rfl, _⟩ := countDown_some hCount hRange.1
      refine ⟨{ client with isonline := client.isonline - 1 }, ?_, hConn, ?_⟩
      · rw [lookup_heartBeat, hLookup]
        exact hCount
      · rw [left_concat, ← hLeft]
        rfl
  · intro hDead client hLookup
    rw [lookup_heartBeat] at hLookup
    obtain ⟨before, hBefore, hCount⟩ := Option.bind_eq_some_iff.mp hLookup
    have hRange := h.range fd before hBefore
    obtain ⟨rfl, _⟩ := countDown_some hCount hRange.1
    by_cases hOld : Expired fd events
    · exact h.dead hOld before hBefore
    · have hDue := ((hExpired.mp hDead).resolve_left hOld)
      obtain ⟨client', hLookup', _, hLeft⟩ := h.alive hOld
      cases hBefore.symm.trans hLookup'
      rw [(countDown_none_iff hRange.1).mpr (hLeft.trans ((due_iff fd events).mp hDue))] at hCount
      cases hCount

theorem Tracks.ack {s t : Server} {fd : Fd} {conn : Nat} {events : List Event} (h : Tracks s fd conn events)
    (hInv : Inv t) {sockfd : Fd} {r : Recv} {client : ClientDs} (hLookup : s.clients.lookup sockfd = some client)
    (hClients : t.clients = s.clients.insert sockfd { client with isonline := 5 })
    (hPresented : t.presented = s.presented) : Tracks t fd conn (events ++ [.readable sockfd r]) := by
  have hExpired : Expired fd (events ++ [.readable sockfd r]) ↔ Expired fd events := by
    rw [expired_concat]
    simp
  refine { hInv with old := ?_, alive := ?_, dead := ?_ }
  · rw [hPresented]
    exact h.old
  · intro hNot
    rw [hExpired] at hNot
    obtain ⟨client', hLookup', hConn, hLeft⟩ := h.alive hNot
    rw [hClients, left_concat, count, isAck]
    obtain rfl | hNe := eq_or_ne fd sockfd
    · cases hLookup.symm.trans hLookup'
      exact ⟨_, AList.lookup_insert .., hConn, by simp⟩
    · refine ⟨client', ?_, hConn, ?_⟩
      · rw [AList.lookup_insert_ne hNe]
        exact hLookup'
      · rw [hLeft]
        simp [hNe.symm, isTick]
  · intro hDead client' hAfter
    rw [hExpired] at hDead
    rw [hClients] at hAfter
    obtain ⟨rfl, rfl⟩ | ⟨_, hOld⟩ := lookup_insert_cases hAfter
    · exact h.dead hDead client hLookup
    · exact h.dead hDead client' hOld

theorem Tracks.step {cfg : Config} {s t : Server} {fd : Fd} {conn : Nat} {events : List Event} {e : Event}
    (h : Tracks s fd conn events) (hCounted : Counted s e) (hStep : step cfg s e = some t) :
    Tracks t fd conn (events ++ [e]) := by
  have hInv := inv_step h.toInv hCounted hStep
  obtain ⟨sockfd, client, ready, r, sent, added, rfl, hFree, rfl⟩ | ⟨rfl, rfl⟩ |
    ⟨sockfd, r, client, rfl, hLookup, hClients, _, hPresented⟩ := counted_cases hCounted hStep
  · exact h.login hFree
  · exact h.tick
  · exact h.ack hInv hLookup hClients hPresented

theorem Tracks.run {cfg : Config} {s t : Server} {fd : Fd} {conn : Nat} {events rest : List Event}
    (h : Tracks s fd conn events) (hMeets : (system cfg).Meets Counted s rest)
    (hRun : (system cfg).run s rest = some t) : Tracks t fd conn (events ++ rest) := by
  induction rest generalizing s events with
  | nil =>
    cases hRun
    rw [List.append_nil]
    exact h
  | cons e rest ih =>
    rw [run_cons] at hRun
    obtain ⟨next, hStep, hRest⟩ := Option.bind_eq_some_iff.mp hRun
    rw [System.Meets, hStep] at hMeets
    have hAfter := ih (h.step hMeets.1 hStep) hMeets.2 hRest
    rw [List.append_assoc] at hAfter
    exact hAfter

theorem Tracks.online_iff {s : Server} {fd : Fd} {conn : Nat} {events : List Event} (h : Tracks s fd conn events) :
    Online s fd conn ↔ ¬ Expired fd events := by
  constructor
  · rintro ⟨client, hLookup, hConn⟩ hDead
    exact h.dead hDead client hLookup hConn
  · intro hAlive
    obtain ⟨client, hLookup, hConn, _⟩ := h.alive hAlive
    exact ⟨client, hLookup, hConn⟩

theorem Tracks.evicts {s : Server} {fd : Fd} {conn : Nat} {events : List Event} (h : Tracks s fd conn events)
    (hOnline : Online s fd conn) : (heartBeat s).clients.lookup fd = none ↔ Due fd events := by
  obtain ⟨client, hLookup, hConn, hLeft⟩ := h.alive (h.online_iff.mp hOnline)
  rw [lookup_heartBeat, hLookup, due_iff, ← hLeft]
  exact countDown_none_iff (h.range fd client hLookup).1

/-- What holds of a client and of all others after some events since its login. -/
structure KeptAlive (cfg : Config) (s : Server) (fd : Fd) (conn : Nat) (events : List Event) : Prop where
  range : ∀ fd' client, s.clients.lookup fd' = some client → 1 ≤ client.isonline ∧ client.isonline ≤ 8
  online : Online s fd conn ↔ ¬ Expired fd events
  evicts : Online s fd conn → ((heartBeat s).clients.lookup fd = none ↔ Due fd events)
  prompt : Prompt fd events → Online s fd conn
  alarm : ∀ fd', (heartBeat s).clients.lookup fd' = (s.clients.lookup fd').bind countDown
  answer : ∀ sockfd r t, Counted s (.readable sockfd r) → step cfg s (.readable sockfd r) = some t →
    ∀ fd', fd' ≠ sockfd → t.clients.lookup fd' = s.clients.lookup fd'

theorem kept_alive {cfg : Config} {s t u : Server} {fd : Fd} {client : SockaddrIn} {ready : Bool} {r : Recv}
    {sent added : Bool} {events : List Event} (hReach : ReachableUnder (system cfg) Counted s)
    (hLogin : step cfg s (.login fd client ready r sent added) = some t) (hIn : fd ∈ t.clients)
    (hMeets : (system cfg).Meets Counted t events) (hRun : (system cfg).run t events = some u) :
    KeptAlive cfg u fd s.presented.length events := by
  have hInv : Inv s := ReachableUnder.invariant (fun _ => inv_start) (fun _ _ _ => inv_step) hReach
  have hStart : Tracks t fd s.presented.length [] := by
    have hCounted : Counted s (.login fd client ready r sent added) := trivial
    have hAfter := inv_step hInv hCounted hLogin
    obtain ⟨_, _, _, _, _, _, hEq, hFree, rfl⟩ | ⟨hEq, _⟩ | ⟨_, _, _, hEq, _⟩ := counted_cases hCounted hLogin
    · cases hEq
      obtain ⟨hLength, hAbsent, ⟨hSame, _⟩ | ⟨hInsert, _⟩⟩ :=
        @doLogin_clients cfg s hInv fd client ready r sent added hFree
      · rw [hSame] at hIn
        exact absurd hIn hAbsent
      · refine { hAfter with old := by rw [hLength]; exact Nat.lt_succ_self _, alive := ?_, dead := ?_ }
        · intro _
          rw [hInsert]
          exact ⟨_, AList.lookup_insert .., rfl, rfl⟩
        · rintro ⟨before, after, hNil, _⟩
          simp at hNil
    · cases hEq
    · cases hEq
  have hTracks := hStart.run hMeets hRun
  rw [List.nil_append] at hTracks
  exact {
    range := hTracks.range
    online := hTracks.online_iff
    evicts := hTracks.evicts
    prompt := fun hPrompt => hTracks.online_iff.mpr (not_expired_of_prompt hPrompt)
    alarm := lookup_heartBeat u
    answer := by
      intro sockfd r' v hCounted hStep fd' hNe
      obtain ⟨_, _, _, _, _, _, hEq, _⟩ | ⟨hEq, _⟩ | ⟨_, _, client', hEq, _, hClients, _⟩ :=
        counted_cases hCounted hStep
      · cases hEq
      · cases hEq
      · cases hEq
        rw [hClients, AList.lookup_insert_ne hNe] }

def node : SockaddrIn := ⟨1, 40000⟩

/-- A client that never answers is there after seven alarms, and the eighth removes it. -/
theorem kept_alive_silent : ∃ t u,
    step config (justStarted config) (.login 5 node true (.data (lit "token")) true true) = some t ∧
    (system config).run t (List.replicate 7 .tick) = some u ∧ Online u 5 0 ∧
    (heartBeat u).clients.lookup 5 = none := by
  have hRun : ((step config (justStarted config) (.login 5 node true (.data (lit "token")) true true)).bind fun t =>
      (system config).run t (List.replicate 7 .tick)).isSome = true := by decide +kernel
  obtain ⟨u, hRun⟩ := Option.isSome_iff_exists.mp hRun
  obtain ⟨t, hLogin, hRest⟩ := Option.bind_eq_some_iff.mp hRun
  have hKeys : (step config (justStarted config) (.login 5 node true (.data (lit "token")) true true)).map
      (fun t => t.clients.keys) = some [5] := by decide +kernel
  rw [hLogin, Option.map_some, Option.some.injEq] at hKeys
  have hIn : (5 : Fd) ∈ t.clients := by
    rw [AList.mem_keys, hKeys]
    exact List.mem_singleton_self 5
  have hMeets : (system config).Meets Counted t (List.replicate 7 .tick) := by
    apply System.Meets.of_forall _ hRest
    intro s e hMem
    rw [List.eq_of_mem_replicate hMem]
    trivial
  have hKept := kept_alive (.start (initial_justStarted config)) hLogin hIn hMeets hRest
  have hAlive : Prompt 5 (List.replicate 7 .tick) := by
    constructor
    · intro before after hEq _
      have hLength := congrArg List.length hEq
      have hTicks : ticks before ≤ before.length := List.countP_le_length
      simp at hLength
      omega
    · intro before e between after hEq hAck
      have hMem : e ∈ List.replicate 7 Event.tick := by
        rw [hEq]
        simp
      rw [List.eq_of_mem_replicate hMem] at hAck
      cases hAck
  have hDue : Due 5 (List.replicate 7 .tick) := .inl ⟨by decide, by decide⟩
  have hOnline := hKept.prompt hAlive
  exact ⟨t, u, hLogin, hRest, hOnline, (hKept.evicts hOnline).mpr hDue⟩

end MonitorSystem.Alarms
