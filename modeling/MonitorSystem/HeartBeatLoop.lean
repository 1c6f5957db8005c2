import MonitorSystem.ClientTable
import MonitorSystem.Alarms
import MonitorSystem.Lib.Cursor

/-! # The loop of heart_beat and its iterator

The body erases the element the hidden iterator of the range-based for stands
on, and its trace line reads the record it has just deleted. Without an
eviction the loop does what one visit per entry does.
-/

namespace MonitorSystem.HeartBeatLoop

open ServerFunc ClientTable Lib.Cursor Lib.Traverse
open Alarms (countDown)

/-- The body for the pair the iterator stands on. The trace line of the default build
reads client.second->addr. -/
def body (debug : Bool) (s : Store) (fd : Fd) : Option Store :=
  match s.clients.lookup fd with
  | none | some none => none
  | some (some conn) =>
    match s.records conn with
    | none => none
    | some r =>
      if r.isonline > 0 then
        let t := (s.send fd).setIsonline conn r (r.isonline - 1)
        if r.isonline - 1 ≤ 0 then
          let u := t.evict fd conn
          if debug = true ∧ u.records conn = none then none else some u
        else some t
      else some s

def heartBeat (debug : Bool) (s : Store) : Outcome Store := rangeFor Store.keys (body debug) s.keys.length s

structure Filled (s : Store) : Prop extends Linked s where
  online : ∀ fd conn r, s.clients.lookup fd = some (some conn) → s.records conn = some r → 1 ≤ r.isonline

/-- One heartbeat to every entry, and every record counted down, the used up ones erased. -/
structure Expected (s t : Store) : Prop extends Linked t where
  sent : t.sent = s.sent ++ s.keys
  clients : ∀ fd, t.client fd = (s.client fd).bind countDown

/-- The entries that are still to be visited have more than one alarm left. -/
structure Waiting (fds : List Fd) (s : Store) : Prop extends Linked s where
  nodup : fds.Nodup
  left : ∀ fd ∈ fds, ∃ conn r, s.clients.lookup fd = some (some conn) ∧ s.records conn = some r ∧ 1 < r.isonline

theorem body_counted {s : Store} {fd : Fd} {conn : Nat} {r : Record}
    (hLookup : s.clients.lookup fd = some (some conn)) (hRecord : s.records conn = some r) (hLeft : 1 < r.isonline)
    (debug : Bool) : body debug s fd = some (visit s fd) := by
  rw [visit_counted hLookup hRecord hLeft, body, hLookup]
  simp only [hRecord]
  rw [if_pos (by omega), if_neg (by omega)]

theorem Waiting.step {debug : Bool} {fd : Fd} {rest : List Fd} {s : Store} (h : Waiting (fd :: rest) s) :
    body debug s fd = some (visit s fd) ∧ Waiting rest (visit s fd) ∧ (visit s fd).keys = s.keys ∧
      (visit s fd).sent = s.sent ++ [fd] := by
  obtain ⟨conn, r, hLookup, hRecord, hLeft⟩ := h.left fd List.mem_cons_self
  obtain ⟨hFresh, hRest⟩ := List.nodup_cons.mp h.nodup
  refine ⟨body_counted hLookup hRecord hLeft debug, ?_, ?_, ?_⟩
  · refine { h.toLinked.visit fd with nodup := hRest, left := ?_ }
    intro fd' hMem
    obtain ⟨conn', r', hLookup', hRecord', hLeft'⟩ := h.left fd' (List.mem_cons_of_mem fd hMem)
    have hNe : fd ≠ fd' := by
      rintro rfl
      exact hFresh hMem
    have hEntry : Entry s fd' conn' r' := { h.toLinked with lookup := hLookup', record := hRecord' }
    have hAfter := hEntry.visitOther hNe
    exact ⟨conn', r', hAfter.lookup, hAfter.record, hLeft'⟩
  · rw [visit_counted hLookup hRecord hLeft]
    rfl
  · rw [visit_counted hLookup hRecord hLeft]
    rfl

theorem sent_foldl {fds : List Fd} {s : Store} (h : Waiting fds s) : (fds.foldl visit s).sent = s.sent ++ fds := by
  induction fds generalizing s with
  | nil => exact (List.append_nil _).symm
  | cons fd fds ih =>
    obtain ⟨_, hRest, _, hSent⟩ := @Waiting.step false fd fds s h
    rw [List.foldl_cons, ih hRest, hSent, List.append_assoc]
    rfl

theorem body_due {s : Store} {fd : Fd} {conn : Nat} {r : Record}
    (hLookup : s.clients.lookup fd = some (some conn)) (hRecord : s.records conn = some r) (hDue : r.isonline = 1)
    {debug : Bool} {t : Store} (hBody : body debug s fd = some t) : fd ∉ t.keys := by
  rw [body, hLookup] at hBody
  simp only [hRecord] at hBody
  rw [if_pos (by omega), if_pos (by omega)] at hBody
  split at hBody
  · cases hBody
  · cases hBody
    rw [mem_keys, clients_evict, AList.mem_erase]
    simp

theorem sorted_keys (s : Store) : s.keys.Pairwise (· < ·) := by
  have hLe : s.keys.Pairwise (· ≤ ·) := List.pairwise_insertionSort (· ≤ ·) s.clients.keys
  exact (hLe.and (nodup_keys s)).imp fun hBoth => lt_of_le_of_ne hBoth.1 hBoth.2

def due (s : Store) (fd : Fd) : Bool := (s.client fd).any fun client => client.isonline = 1

theorem due_iff {s : Store} {fd : Fd} {conn : Nat} {r : Record} (hLookup : s.clients.lookup fd = some (some conn))
    (hRecord : s.records conn = some r) : due s fd = true ↔ r.isonline = 1 := by
  rw [due, client_of_entry hLookup hRecord]
  simp

theorem Filled.record {s : Store} (h : Filled s) {fd : Fd} (hMem : fd ∈ s.keys) :
    ∃ conn r, s.clients.lookup fd = some (some conn) ∧ s.records conn = some r ∧ 1 ≤ r.isonline := by
  rw [mem_keys, ← AList.lookup_isSome] at hMem
  obtain ⟨client, hLookup⟩ := Option.isSome_iff_exists.mp hMem
  obtain ⟨conn, rfl, hLive⟩ := h.entries fd client hLookup
  obtain ⟨r, hRecord⟩ := Option.isSome_iff_exists.mp hLive
  exact ⟨conn, r, hLookup, hRecord, h.online fd conn r hLookup hRecord⟩

theorem Filled.waiting {s : Store} (h : Filled s) {fds : List Fd} (hNodup : fds.Nodup) (hSub : ∀ fd ∈ fds, fd ∈ s.keys)
    (hLeft : ∀ fd ∈ fds, due s fd = false) : Waiting fds s := by
  refine { h.toLinked with nodup := hNodup, left := ?_ }
  intro fd hMem
  obtain ⟨conn, r, hLookup, hRecord, hOnline⟩ := h.record (hSub fd hMem)
  have hNotDue : r.isonline ≠ 1 := by
    intro hDue
    cases (hLeft fd hMem).symm.trans ((due_iff hLookup hRecord).mpr hDue)
  exact ⟨conn, r, hLookup, hRecord, by omega⟩

theorem client_tick {s : Store} (h : Waiting s.keys s) (fd : Fd) :
    (tick s).client fd = (s.client fd).bind countDown := by
  cases hLookup : s.clients.lookup fd with
  | none =>
    have hFresh : fd ∉ s.keys := by
      rw [mem_keys, ← AList.lookup_eq_none]
      exact hLookup
    have hAfter : Linked (tick s) ∧ (tick s).clients.lookup fd = none := by
      apply @foldl_others _ _ visit (fun t => Linked t ∧ t.clients.lookup fd = none) fd
      · rintro t fd' hNe ⟨hLinked, hNone⟩
        exact ⟨hLinked.visit fd', by rw [lookup_visit hLinked hNe.symm, hNone]⟩
      · exact hFresh
      · exact ⟨h.toLinked, hLookup⟩
    rw [Store.client, hAfter.2, Store.client, hLookup]
    rfl
  | some client =>
    obtain ⟨conn, r, hEntryLookup, hRecord, hLeft⟩ := h.left fd (mem_keys_of_lookup hLookup)
    have hEntry : Entry s fd conn r := { h.toLinked with lookup := hEntryLookup, record := hRecord }
    have hAfter : Entry (tick s) fd conn { r with isonline := r.isonline - 1 } := by
      apply @foldl_visit _ _ visit (fun t => Entry t fd conn r)
        (fun t => Entry t fd conn { r with isonline := r.isonline - 1 }) fd
      · intro t fd' hNe hBefore
        exact hBefore.visitOther hNe
      · intro t hBefore
        exact hBefore.visitCounted hLeft
      · intro t fd' hNe hCounted
        exact hCounted.visitOther hNe
      · exact nodup_keys s
      · exact mem_keys_of_lookup hLookup
      · exact hEntry
    rw [client_of_entry hAfter.lookup hAfter.record, client_of_entry hEntryLookup hRecord, Option.bind_some,
      countDown]
    dsimp only
    rw [if_pos (by omega), if_neg (by omega)]

theorem heartBeat_tick (debug : Bool) {s : Store} (h : Waiting s.keys s) : heartBeat debug s = .done (tick s) := by
  apply rangeFor_kept (I := Waiting)
  · intro fd rest t hWaiting
    obtain ⟨hBody, hRest, hKeys, _⟩ := @Waiting.step debug fd rest t hWaiting
    exact ⟨hBody, hRest, hKeys⟩
  · exact sorted_keys s
  · exact h
  · exact Nat.le_refl _

theorem heartBeat_undefined (debug : Bool) {s : Store} (h : Filled s) {fd : Fd} (hMem : fd ∈ s.keys)
    (hDue : due s fd = true) : heartBeat debug s = .undefined := by
  -- the first due entry; all before it are only counted down
  obtain ⟨first, hFirst⟩ := Option.isSome_iff_exists.mp (List.find?_isSome.mpr ⟨fd, hMem, hDue⟩)
  obtain ⟨hFirstDue, before, after, hKeys, hBefore⟩ := List.find?_eq_some_iff_append.mp hFirst
  have hFirstMem : first ∈ s.keys := by
    rw [hKeys]
    simp
  have hNodup := nodup_keys s
  rw [hKeys, List.nodup_append] at hNodup
  have hWaiting : Waiting before s := by
    apply h.waiting hNodup.1
    · intro fd' hMem'
      rw [hKeys]
      exact List.mem_append_left _ hMem'
    · intro fd' hMem'
      simpa using hBefore fd' hMem'
  obtain ⟨conn, r, hLookup, hRecord, _⟩ := h.record hFirstMem
  have hEntry : Entry s first conn r := { h.toLinked with lookup := hLookup, record := hRecord }
  have hAfter : Entry (before.foldl visit s) first conn r := by
    apply @foldl_others _ _ visit (fun t => Entry t first conn r) first
    · intro t fd' hNe hBefore'
      exact hBefore'.visitOther hNe
    · intro hIn
      exact hNodup.2.2 first hIn first List.mem_cons_self rfl
    · exact hEntry
  apply rangeFor_erased (I := Waiting) _ hKeys (sorted_keys s) hWaiting
  · intro t hBody
    exact body_due hAfter.lookup hAfter.record ((due_iff hLookup hRecord).mp hFirstDue) hBody
  · exact Nat.le_refl _
  · intro fd' rest t hRest
    obtain ⟨hBody, hNext, hSame, _⟩ := @Waiting.step debug fd' rest t hRest
    exact ⟨hBody, hNext, hSame⟩

/-- One call does what it should exactly when no client is at its last alarm. -/
theorem heartBeat_expected_iff (debug : Bool) {s : Store} (h : Filled s) :
    (∃ t, heartBeat debug s = .done t ∧ Expected s t) ↔
      ∀ fd conn r, s.clients.lookup fd = some (some conn) → s.records conn = some r → r.isonline ≠ 1 := by
  constructor
  · rintro ⟨t, hDone, _⟩ fd conn r hLookup hRecord hDue
    rw [heartBeat_undefined debug h (mem_keys_of_lookup hLookup) ((due_iff hLookup hRecord).mpr hDue)] at hDone
    cases hDone
  · intro hLeft
    have hWaiting : Waiting s.keys s := by
      apply h.waiting (nodup_keys s) (fun _ hMem => hMem)
      intro fd hMem
      obtain ⟨conn, r, hLookup, hRecord, _⟩ := h.record hMem
      rw [← Bool.not_eq_true, due_iff hLookup hRecord]
      exact hLeft fd conn r hLookup hRecord
    have hLinked : Linked (tick s) :=
      @foldl_invariant _ _ visit Linked (fun _ fd hInv => hInv.visit fd) s.keys s h.toLinked
    exact ⟨tick s, heartBeat_tick debug hWaiting, { hLinked with
      sent := sent_foldl hWaiting
      clients := client_tick hWaiting }⟩

theorem heartBeat_shows (debug : Bool) {s t : Store} {server : Server} (h : Filled s) (hShows : Shows s server)
    (hDone : heartBeat debug s = .done t) : Shows t (ServerFunc.heartBeat server) := by
  by_cases hDue : ∃ fd ∈ s.keys, due s fd = true
  · obtain ⟨fd, hMem, hDue⟩ := hDue
    rw [heartBeat_undefined debug h hMem hDue] at hDone
    cases hDone
  · have hWaiting : Waiting s.keys s := by
      apply h.waiting (nodup_keys s) (fun _ hMem => hMem)
      intro fd hMem
      rw [← Bool.not_eq_true]
      intro hTrue
      exact hDue ⟨fd, hMem, hTrue⟩
    rw [heartBeat_tick debug hWaiting] at hDone
    cases hDone
    exact hShows.tick h.toLinked

def oneClient (isonline : Int) : Store where
  clients := (∅ : AList fun _ : Fd => Option Nat).insert 5 (some 0)
  records := Function.update (fun _ => none) 0 (some ⟨isonline, ⟨1, 40000⟩⟩)
  socks := Function.update (fun _ => none) 5 (some (.tcp 0))
  epollfd := Function.update (fun _ => false) 5 true
  sent := []
  evicted := []
  fault := false

theorem filled_oneClient {isonline : Int} (hOnline : 1 ≤ isonline) : Filled (oneClient isonline) := by
  have hLookup : ∀ fd client, (oneClient isonline).clients.lookup fd = some client → fd = 5 ∧ client = some 0 := by
    intro fd client hEntry
    obtain ⟨hFd, hClient⟩ | ⟨_, hEntry⟩ := lookup_insert_cases hEntry
    · exact ⟨hFd, hClient⟩
    · rw [AList.lookup_empty] at hEntry
      cases hEntry
  constructor
  · constructor
    · intro fd client hEntry
      exact ⟨0, (hLookup fd client hEntry).2, rfl⟩
    · intro fd fd' conn h₁ h₂
      exact (hLookup fd' _ h₂).1.trans (hLookup fd _ h₁).1.symm
  · intro fd conn r hEntry hRecord
    cases (hLookup fd _ hEntry).2
    cases hRecord
    exact hOnline

/-- In either build a table with one client at its last alarm is enough. -/
theorem last_alarm_undefined : Filled (oneClient 1) ∧ heartBeat true (oneClient 1) = .undefined ∧
    heartBeat false (oneClient 1) = .undefined ∧
    ¬ ∃ t, heartBeat true (oneClient 1) = .done t ∧ Expected (oneClient 1) t := by
  have hUndefined : heartBeat true (oneClient 1) = .undefined := by rfl
  refine ⟨filled_oneClient (by decide), hUndefined, by rfl, ?_⟩
  rintro ⟨t, hDone, _⟩
  cases hUndefined.symm.trans hDone

def threeClients : Store where
  clients := AList.insert 7 (some 2) (AList.insert 9 (some 1) (AList.insert 5 (some 0) ∅))
  records conn := ([⟨8, ⟨1, 40000⟩⟩, ⟨5, ⟨2, 40000⟩⟩, ⟨2, ⟨3, 40000⟩⟩] : List Record)[conn]?
  socks fd := if fd = 5 then some (.tcp 0) else if fd = 9 then some (.tcp 1) else if fd = 7 then some (.tcp 2) else none
  epollfd fd := fd ∈ [5, 7, 9]
  sent := []
  evicted := []
  fault := false

theorem lookup_threeClients {fd : Fd} {client : Option Nat} (h : threeClients.clients.lookup fd = some client) :
    (fd = 7 ∧ client = some 2) ∨ (fd = 9 ∧ client = some 1) ∨ (fd = 5 ∧ client = some 0) := by
  dsimp only [threeClients] at h
  obtain hThird | ⟨_, h⟩ := lookup_insert_cases h
  · exact .inl hThird
  · obtain hSecond | ⟨_, h⟩ := lookup_insert_cases h
    · exact .inr (.inl hSecond)
    · obtain hFirst | ⟨_, h⟩ := lookup_insert_cases h
      · exact .inr (.inr hFirst)
      · rw [AList.lookup_empty] at h
        cases h

theorem entry_threeClients {fd : Fd} {conn : Nat} (h : threeClients.clients.lookup fd = some (some conn)) :
    fd = [5, 9, 7].getD conn 0 ∧ conn < 3 ∧ ∃ r, threeClients.records conn = some r ∧ 1 < r.isonline := by
  obtain ⟨rfl, hConn⟩ | ⟨rfl, hConn⟩ | ⟨rfl, hConn⟩ := lookup_threeClients h <;> cases hConn
  · exact ⟨rfl, by decide, _, rfl, by decide⟩
  · exact ⟨rfl, by decide, _, rfl, by decide⟩
  · exact ⟨rfl, by decide, _, rfl, by decide⟩

theorem left_threeClients {fd : Fd} {conn : Nat} {r : Record} (h : threeClients.clients.lookup fd = some (some conn))
    (hRecord : threeClients.records conn = some r) : 1 < r.isonline := by
  obtain ⟨_, _, r', hRecord', hLeft⟩ := entry_threeClients h
  cases hRecord.symm.trans hRecord'
  exact hLeft

theorem filled_threeClients : Filled threeClients := by
  constructor
  · constructor
    · intro fd client hEntry
      obtain ⟨_, rfl⟩ | ⟨_, rfl⟩ | ⟨_, rfl⟩ := lookup_threeClients hEntry
      · exact ⟨2, rfl, rfl⟩
      · exact ⟨1, rfl, rfl⟩
      · exact ⟨0, rfl, rfl⟩
    · intro fd fd' conn h₁ h₂
      exact (entry_threeClients h₂).1.trans (entry_threeClients h₁).1.symm
  · intro fd conn r hEntry hRecord
    exact (left_threeClients hEntry hRecord).le

theorem heartBeat_expected_three : ∃ t, heartBeat true threeClients = .done t ∧ t.sent = [5, 7, 9] ∧
    Expected threeClients t := by
  obtain ⟨t, hDone, hExpected⟩ := (heartBeat_expected_iff true filled_threeClients).mpr
    fun fd conn r hEntry hRecord => (left_threeClients hEntry hRecord).ne'
  refine ⟨t, hDone, ?_, hExpected⟩
  rw [hExpected.sent]
  decide +kernel

end MonitorSystem.HeartBeatLoop
