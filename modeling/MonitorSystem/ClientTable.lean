import MonitorSystem.Lib.Traverse
import MonitorSystem.ServerFunc

/-! # The client table as a map of pointers

std::map<int, client_ds *> may hold null and may point at a deleted record.
A record is named by the connection do_login made it for. Reading or writing
through null or into a deleted record is undefined: it sets the last field.
-/

namespace MonitorSystem.ClientTable

open ServerFunc Lib.Traverse

structure Record where
  isonline : Int
  addr : SockaddrIn
deriving DecidableEq

structure Store where
  clients : AList fun _ : Fd => Option Nat
  records : Nat → Option Record
  socks : Fd → Option Sock
  epollfd : Fd → Bool
  sent : List Fd
  evicted : List Nat
  fault : Bool

/-- clients[fd] enters a null pointer under a missing key. -/
def Store.subscript (s : Store) (fd : Fd) : Store × Option Nat :=
  match s.clients.lookup fd with
  | some client => (s, client)
  | none => ({ s with clients := s.clients.insert fd none }, none)

def Store.broken (s : Store) : Store := { s with fault := true }

def Store.setIsonline (s : Store) (conn : Nat) (r : Record) (isonline : Int) : Store :=
  { s with records := Function.update s.records conn (some { r with isonline := isonline }) }

def Store.evict (s : Store) (fd : Fd) (conn : Nat) : Store :=
  { s with
    epollfd := Function.update s.epollfd fd false
    socks := Function.update s.socks fd none
    records := Function.update s.records conn none
    clients := s.clients.erase fd
    evicted := s.evicted ++ [conn] }

def Store.enter (s : Store) (fd : Fd) (conn : Nat) (client : SockaddrIn) : Store :=
  { s with
    clients := s.clients.insert fd (some conn)
    records := Function.update s.records conn (some ⟨8, client⟩) }

/-- A number that was free comes to name a new socket. -/
def Store.opened (s : Store) (fd : Fd) (sock : Sock) : Store :=
  { s with socks := Function.update s.socks fd (some sock) }

def Store.addToReactor (s : Store) (fd : Fd) (added : Bool) : Store :=
  { s with epollfd := if added = true ∧ s.socks fd ≠ none then Function.update s.epollfd fd true else s.epollfd }

def Store.close (s : Store) (fd : Fd) : Store :=
  { s with
    epollfd := Function.update s.epollfd fd false
    socks := Function.update s.socks fd none }

def Store.send (s : Store) (fd : Fd) : Store := { s with sent := s.sent ++ [fd] }

/-- The body of the loop in heart_beat up to its trace line, for the pair the iterator stands on. -/
def beat (s : Store) (fd : Fd) (client : Option Nat) : Store :=
  match client with
  | none => s.broken
  | some conn =>
    match s.records conn with
    | none => s.broken
    | some r =>
      if r.isonline > 0 then
        let t := (s.send fd).setIsonline conn r (r.isonline - 1)
        if r.isonline - 1 ≤ 0 then t.evict fd conn else t
      else s

def visit (s : Store) (fd : Fd) : Store :=
  match s.clients.lookup fd with
  | none => s
  | some client => beat s fd client

def Store.keys (s : Store) : List Fd := s.clients.keys.insertionSort (· ≤ ·)

/-- heart_beat, every entry present at its start being visited once. -/
def tick (s : Store) : Store := s.keys.foldl visit s

theorem records_setIsonline (s : Store) (conn : Nat) (r : Record) (isonline : Int) :
    (s.setIsonline conn r isonline).records =
      Function.update s.records conn (some { r with isonline := isonline }) := rfl

theorem records_evict (s : Store) (fd : Fd) (conn : Nat) :
    (s.evict fd conn).records = Function.update s.records conn none := rfl

theorem socks_evict (s : Store) (fd : Fd) (conn : Nat) :
    (s.evict fd conn).socks = Function.update s.socks fd none := rfl

theorem clients_evict (s : Store) (fd : Fd) (conn : Nat) :
    (s.evict fd conn).clients = s.clients.erase fd := rfl

theorem evict_setIsonline (s : Store) (fd : Fd) (conn : Nat) (r : Record) (isonline : Int) :
    (s.setIsonline conn r isonline).evict fd conn = s.evict fd conn := by
  rw [Store.evict, records_setIsonline, Function.update_idem]
  rfl

/-- Every entry points at a record of its own. -/
structure Linked (s : Store) : Prop where
  entries : ∀ fd client, s.clients.lookup fd = some client →
    ∃ conn, client = some conn ∧ (s.records conn).isSome = true
  distinct : ∀ fd fd' conn, s.clients.lookup fd = some (some conn) → s.clients.lookup fd' = some (some conn) →
    fd' = fd

structure Sound (s : Store) : Prop where
  entries : ∀ fd client, s.clients.lookup fd = some client →
    ∃ conn, client = some conn ∧ (s.records conn).isSome = true
  gone : ∀ conn ∈ s.evicted, ∀ fd, s.clients.lookup fd ≠ some (some conn)
  fault : s.fault = false

structure Inv (s : Store) : Prop extends Linked s, Sound s

theorem nodup_keys (s : Store) : s.keys.Nodup :=
  (List.perm_insertionSort (· ≤ ·) s.clients.keys).nodup_iff.mpr s.clients.nodupKeys

theorem mem_keys {s : Store} {fd : Fd} : fd ∈ s.keys ↔ fd ∈ s.clients := by
  rw [Store.keys, List.mem_insertionSort, AList.mem_keys]

theorem mem_keys_of_lookup {s : Store} {fd : Fd} {client : Option Nat} (h : s.clients.lookup fd = some client) :
    fd ∈ s.keys := by
  rw [mem_keys, ← AList.lookup_isSome, h]
  rfl

theorem visit_cases {s : Store} (h : Linked s) (fd : Fd) :
    visit s fd = s ∨ ∃ conn r, s.clients.lookup fd = some (some conn) ∧ s.records conn = some r ∧
      ((r.isonline = 1 ∧ visit s fd = ((s.send fd).setIsonline conn r 0).evict fd conn) ∨
        (1 < r.isonline ∧ visit s fd = (s.send fd).setIsonline conn r (r.isonline - 1))) := by
  cases hLookup : s.clients.lookup fd with
  | none =>
    rw [visit, hLookup]
    exact .inl rfl
  | some client =>
    obtain ⟨conn, rfl, hLive⟩ := h.entries fd client hLookup
    obtain ⟨r, hRecord⟩ := Option.isSome_iff_exists.mp hLive
    have hVisit : visit s fd = beat s fd (some conn) := by rw [visit, hLookup]
    rw [hVisit, beat]
    simp only [hRecord]
    split
    · right
      refine ⟨conn, r, rfl, hRecord, ?_⟩
      split
      · have hOne : r.isonline = 1 := by omega
        refine .inl ⟨hOne, ?_⟩
        rw [hOne]
        rfl
      · exact .inr ⟨by omega, rfl⟩
    · exact .inl rfl

theorem lookup_evict {s : Store} {fd fd' : Fd} {conn : Nat} {client : Option Nat}
    (h : (s.evict fd conn).clients.lookup fd' = some client) : fd' ≠ fd ∧ s.clients.lookup fd' = some client :=
  lookup_erase_some h

theorem Linked.setIsonline {s : Store} (h : Linked s) (conn : Nat) (r : Record) (isonline : Int) :
    Linked (s.setIsonline conn r isonline) where
  entries fd client hLookup := by
    obtain ⟨conn', hEq, hLive⟩ := h.entries fd client hLookup
    refine ⟨conn', hEq, ?_⟩
    rw [records_setIsonline]
    obtain rfl | hNe := eq_or_ne conn' conn
    · rw [Function.update_self]
      rfl
    · rw [Function.update_of_ne hNe]
      exact hLive
  distinct := h.distinct

theorem Linked.evict {s : Store} (h : Linked s) {fd : Fd} {conn : Nat}
    (hLookup : s.clients.lookup fd = some (some conn)) : Linked (s.evict fd conn) where
  entries fd' client hLookup' := by
    obtain ⟨hNe, hOld⟩ := lookup_evict hLookup'
    obtain ⟨conn', hEq, hLive⟩ := h.entries fd' client hOld
    refine ⟨conn', hEq, ?_⟩
    have hNeConn : conn' ≠ conn := by
      rintro rfl
      rw [hEq] at hOld
      exact hNe (h.distinct fd fd' conn' hLookup hOld)
    rw [records_evict, Function.update_of_ne hNeConn]
    exact hLive
  distinct fd₁ fd₂ conn' h₁ h₂ := h.distinct fd₁ fd₂ conn' (lookup_evict h₁).2 (lookup_evict h₂).2

theorem Linked.visit {s : Store} (h : Linked s) (fd : Fd) : Linked (visit s fd) := by
  have hSent : Linked (s.send fd) := { h with }
  obtain hSame | ⟨conn, r, hLookup, _, ⟨_, hEq⟩ | ⟨_, hEq⟩⟩ := visit_cases h fd
  · rw [hSame]
    exact h
  · rw [hEq]
    exact (hSent.setIsonline conn r 0).evict hLookup
  · rw [hEq]
    exact hSent.setIsonline conn r (r.isonline - 1)

theorem Inv.setIsonline {s : Store} (h : Inv s) (conn : Nat) (r : Record) (isonline : Int) :
    Inv (s.setIsonline conn r isonline) where
  toLinked := h.toLinked.setIsonline conn r isonline
  gone := h.gone
  fault := h.fault

theorem Inv.evict {s : Store} (h : Inv s) {fd : Fd} {conn : Nat} (hLookup : s.clients.lookup fd = some (some conn)) :
    Inv (s.evict fd conn) where
  toLinked := h.toLinked.evict hLookup
  gone conn' hMem fd' hLookup' := by
    obtain ⟨hNe, hOld⟩ := lookup_evict hLookup'
    obtain hMem | hMem := List.mem_append.mp hMem
    · exact h.gone conn' hMem fd' hOld
    · rw [List.mem_singleton.mp hMem] at hOld
      exact hNe (h.distinct fd fd' conn hLookup hOld)
  fault := h.fault

theorem lookup_enter {s : Store} {fd fd' : Fd} {conn : Nat} {addr : SockaddrIn} {client : Option Nat}
    (h : (s.enter fd conn addr).clients.lookup fd' = some client) :
    (fd' = fd ∧ client = some conn) ∨ (fd' ≠ fd ∧ s.clients.lookup fd' = some client) :=
  lookup_insert_cases h

theorem records_enter (s : Store) (fd : Fd) (conn : Nat) (addr : SockaddrIn) :
    (s.enter fd conn addr).records = Function.update s.records conn (some ⟨8, addr⟩) := rfl

theorem isSome_enter {s : Store} {conn : Nat} (hLive : (s.records conn).isSome = true) (fd : Fd) (conn' : Nat)
    (addr : SockaddrIn) : ((s.enter fd conn' addr).records conn).isSome = true := by
  rw [records_enter]
  obtain rfl | hNe := eq_or_ne conn conn'
  · rw [Function.update_self]
    rfl
  · rw [Function.update_of_ne hNe]
    exact hLive

theorem Inv.enter {s : Store} (h : Inv s) {fd : Fd} {conn : Nat} (addr : SockaddrIn)
    (hUnused : ∀ fd', s.clients.lookup fd' ≠ some (some conn)) (hEvicted : conn ∉ s.evicted) :
    Inv (s.enter fd conn addr) where
  entries fd' client hLookup := by
    obtain ⟨rfl, rfl⟩ | ⟨_, hOld⟩ := lookup_enter hLookup
    · refine ⟨conn, rfl, ?_⟩
      rw [records_enter, Function.update_self]
      rfl
    · obtain ⟨conn', rfl, hLive⟩ := h.entries fd' client hOld
      exact ⟨conn', rfl, isSome_enter hLive fd conn addr⟩
  gone conn' hMem fd' hLookup := by
    obtain ⟨_, hEq⟩ | ⟨_, hOld⟩ := lookup_enter hLookup
    · cases hEq
      exact hEvicted hMem
    · exact h.gone conn' hMem fd' hOld
  fault := h.fault
  distinct fd₁ fd₂ conn' h₁ h₂ := by
    obtain ⟨hFd₁, hEq₁⟩ | ⟨_, hOld₁⟩ := lookup_enter h₁
    · obtain ⟨hFd₂, _⟩ | ⟨_, hOld₂⟩ := lookup_enter h₂
      · exact hFd₂.trans hFd₁.symm
      · cases hEq₁
        exact absurd hOld₂ (hUnused fd₂)
    · obtain ⟨_, hEq₂⟩ | ⟨_, hOld₂⟩ := lookup_enter h₂
      · cases hEq₂
        exact absurd hOld₁ (hUnused fd₁)
      · exact h.distinct fd₁ fd₂ conn' hOld₁ hOld₂

theorem Inv.visit {s : Store} (h : Inv s) (fd : Fd) : Inv (visit s fd) := by
  have hSent : Inv (s.send fd) := { h with }
  obtain hSame | ⟨conn, r, hLookup, _, ⟨_, hEq⟩ | ⟨_, hEq⟩⟩ := visit_cases h.toLinked fd
  · rw [hSame]
    exact h
  · rw [hEq]
    exact (hSent.setIsonline conn r 0).evict hLookup
  · rw [hEq]
    exact hSent.setIsonline conn r (r.isonline - 1)

theorem Inv.tick {s : Store} (h : Inv s) : Inv (tick s) := foldl_invariant (fun _ fd hInv => hInv.visit fd) h

/-- Entries only leave the table, and only their records are deleted. -/
structure Shrinks (s t : Store) : Prop extends Inv t where
  lookup : ∀ fd client, t.clients.lookup fd = some client → s.clients.lookup fd = some client
  evicted : ∀ conn ∈ t.evicted, conn ∈ s.evicted ∨ ∃ fd, s.clients.lookup fd = some (some conn)
  kept : ∀ fd, t.socks fd ≠ none → t.socks fd = s.socks fd ∧ t.clients.lookup fd = s.clients.lookup fd

theorem Shrinks.visit {s t : Store} (h : Shrinks s t) (fd : Fd) : Shrinks s (visit t fd) := by
  have hInv := h.toInv.visit fd
  obtain hSame | ⟨conn, r, hLookup, _, ⟨_, hEq⟩ | ⟨_, hEq⟩⟩ := visit_cases h.toLinked fd
  · rw [hSame]
    exact h
  · rw [hEq] at hInv ⊢
    refine { hInv with lookup := ?_, evicted := ?_, kept := ?_ }
    · intro fd' client hAfter
      exact h.lookup fd' client (lookup_evict hAfter).2
    · intro conn' hMem
      obtain hMem | hMem := List.mem_append.mp hMem
      · exact h.evicted conn' hMem
      · rw [List.mem_singleton.mp hMem]
        exact .inr ⟨fd, h.lookup fd _ hLookup⟩
    · intro fd' hOpen
      have hNe : fd' ≠ fd := by
        rintro rfl
        exact hOpen (by rw [socks_evict, Function.update_self])
      rw [socks_evict, Function.update_of_ne hNe] at hOpen ⊢
      rw [clients_evict, AList.lookup_erase_ne hNe]
      exact h.kept fd' hOpen
  · rw [hEq] at hInv ⊢
    exact { hInv with lookup := h.lookup, evicted := h.evicted, kept := h.kept }

theorem Inv.shrinks_tick {s : Store} (h : Inv s) : Shrinks s (ClientTable.tick s) := by
  apply @foldl_invariant _ _ ClientTable.visit (Shrinks s)
  · intro t fd hShrinks
    exact hShrinks.visit fd
  · exact { h with
      lookup := fun _ _ hLookup => hLookup
      evicted := fun _ hMem => .inl hMem
      kept := fun _ _ => ⟨rfl, rfl⟩ }

theorem lookup_visit {s : Store} (h : Linked s) {fd fd' : Fd} (hNe : fd ≠ fd') :
    (visit s fd').clients.lookup fd = s.clients.lookup fd := by
  obtain hSame | ⟨conn, r, _, _, ⟨_, hEq⟩ | ⟨_, hEq⟩⟩ := visit_cases h fd'
  · rw [hSame]
  · rw [hEq, clients_evict, AList.lookup_erase_ne hNe]
    rfl
  · rw [hEq]
    rfl

theorem records_visit {s : Store} (h : Linked s) {fd : Fd} {conn : Nat}
    (hOther : s.clients.lookup fd ≠ some (some conn)) : (visit s fd).records conn = s.records conn := by
  obtain hSame | ⟨conn', r, hLookup, _, hEq⟩ := visit_cases h fd
  · rw [hSame]
  · have hNe : conn ≠ conn' := by
      rintro rfl
      exact hOther hLookup
    obtain ⟨_, hEq⟩ | ⟨_, hEq⟩ := hEq
    · rw [hEq, records_evict, Function.update_of_ne hNe, records_setIsonline, Function.update_of_ne hNe]
      rfl
    · rw [hEq, records_setIsonline, Function.update_of_ne hNe]
      rfl

structure Entry (s : Store) (fd : Fd) (conn : Nat) (r : Record) : Prop extends Linked s where
  lookup : s.clients.lookup fd = some (some conn)
  record : s.records conn = some r

/-- No entry points at the record, deleted or leaked. -/
structure Unlisted (s : Store) (conn : Nat) (r : Option Record) : Prop extends Linked s where
  lookup : ∀ fd, s.clients.lookup fd ≠ some (some conn)
  record : s.records conn = r

theorem Entry.visitOther {s : Store} {fd fd' : Fd} {conn : Nat} {r : Record} (h : Entry s fd conn r)
    (hNe : fd' ≠ fd) : Entry (visit s fd') fd conn r where
  toLinked := h.toLinked.visit fd'
  lookup := by
    rw [lookup_visit h.toLinked hNe.symm]
    exact h.lookup
  record := by
    rw [records_visit h.toLinked]
    · exact h.record
    · intro hLookup
      exact hNe (h.distinct fd fd' conn h.lookup hLookup)

theorem Unlisted.visit {s : Store} {conn : Nat} {r : Option Record} (h : Unlisted s conn r) (fd : Fd) :
    Unlisted (visit s fd) conn r where
  toLinked := h.toLinked.visit fd
  lookup fd' hLookup := by
    obtain hSame | ⟨conn', r', _, _, ⟨_, hEq⟩ | ⟨_, hEq⟩⟩ := visit_cases h.toLinked fd
    · rw [hSame] at hLookup
      exact h.lookup fd' hLookup
    · rw [hEq] at hLookup
      exact h.lookup fd' (lookup_evict hLookup).2
    · rw [hEq] at hLookup
      exact h.lookup fd' hLookup
  record := by
    rw [records_visit h.toLinked (h.lookup fd)]
    exact h.record

theorem Entry.visitDue {s : Store} {fd : Fd} {conn : Nat} {r : Record} (h : Entry s fd conn r)
    (hDue : r.isonline = 1) : Unlisted (visit s fd) conn none where
  toLinked := h.toLinked.visit fd
  lookup fd' hLookup := by
    have hOnline : r.isonline > 0 := by omega
    rw [visit, h.lookup] at hLookup
    simp only [beat, h.record, hOnline, if_true] at hLookup
    rw [if_pos (by omega)] at hLookup
    obtain ⟨hNe, hOld⟩ := lookup_evict hLookup
    exact hNe (h.distinct fd fd' conn h.lookup hOld)
  record := by
    have hOnline : r.isonline > 0 := by omega
    rw [visit, h.lookup]
    simp only [beat, h.record, hOnline, if_true]
    rw [if_pos (by omega), records_evict, Function.update_self]

theorem visit_counted {s : Store} {fd : Fd} {conn : Nat} {r : Record}
    (hLookup : s.clients.lookup fd = some (some conn)) (hRecord : s.records conn = some r) (hLeft : 1 < r.isonline) :
    visit s fd = (s.send fd).setIsonline conn r (r.isonline - 1) := by
  rw [visit, hLookup]
  dsimp only
  rw [beat]
  simp only [hRecord]
  rw [if_pos (by omega), if_neg (by omega)]

theorem Entry.visitCounted {s : Store} {fd : Fd} {conn : Nat} {r : Record} (h : Entry s fd conn r)
    (hLeft : 1 < r.isonline) : Entry (visit s fd) fd conn { r with isonline := r.isonline - 1 } := by
  have hLinked := h.toLinked.visit fd
  rw [visit_counted h.lookup h.record hLeft] at hLinked ⊢
  refine { hLinked with lookup := h.lookup, record := ?_ }
  rw [records_setIsonline, Function.update_self]

theorem Entry.visitKept {s : Store} {fd : Fd} {conn : Nat} {r : Record} (h : Entry s fd conn r)
    (hKept : r.isonline ≠ 1) : ∃ r', Entry (visit s fd) fd conn r' := by
  obtain hSame | ⟨conn', r', hLookup, hRecord, ⟨hDue, _⟩ | ⟨hLeft, _⟩⟩ := visit_cases h.toLinked fd
  · rw [hSame]
    exact ⟨r, h⟩
  · cases h.lookup.symm.trans hLookup
    cases h.record.symm.trans hRecord
    exact absurd hDue hKept
  · cases h.lookup.symm.trans hLookup
    cases h.record.symm.trans hRecord
    exact ⟨_, h.visitCounted hLeft⟩

theorem Entry.tickDue {s : Store} {fd : Fd} {conn : Nat} {r : Record} (h : Entry s fd conn r)
    (hDue : r.isonline = 1) : Unlisted (tick s) conn none := by
  apply @foldl_visit _ _ visit (fun t => Entry t fd conn r) (fun t => Unlisted t conn none) fd
  · intro t fd' hNe hEntry
    exact hEntry.visitOther hNe
  · intro t hEntry
    exact hEntry.visitDue hDue
  · intro t fd' _ hGone
    exact hGone.visit fd'
  · exact nodup_keys s
  · exact mem_keys_of_lookup h.lookup
  · exact h

theorem Entry.tickKept {s : Store} {fd : Fd} {conn : Nat} {r : Record} (h : Entry s fd conn r)
    (hKept : r.isonline ≠ 1) : ∃ r', Entry (tick s) fd conn r' := by
  apply @foldl_visit _ _ visit (fun t => Entry t fd conn r) (fun t => ∃ r', Entry t fd conn r') fd
  · intro t fd' hNe hEntry
    exact hEntry.visitOther hNe
  · intro t hEntry
    exact hEntry.visitKept hKept
  · rintro t fd' hNe ⟨r', hEntry⟩
    exact ⟨r', hEntry.visitOther hNe⟩
  · exact nodup_keys s
  · exact mem_keys_of_lookup h.lookup
  · exact h

theorem Unlisted.tick {s : Store} {conn : Nat} {r : Option Record} (h : Unlisted s conn r) :
    Unlisted (tick s) conn r := by
  apply @foldl_invariant _ _ ClientTable.visit fun t => Unlisted t conn r
  · intro t fd hUnlisted
    exact hUnlisted.visit fd
  · exact h

def Store.client (s : Store) (fd : Fd) : Option ClientDs :=
  (s.clients.lookup fd).bind fun client => client.bind fun conn =>
    (s.records conn).map fun r => ⟨r.isonline, r.addr, conn⟩

theorem client_of_entry {s : Store} {fd : Fd} {conn : Nat} {r : Record}
    (hLookup : s.clients.lookup fd = some (some conn)) (hRecord : s.records conn = some r) :
    s.client fd = some ⟨r.isonline, r.addr, conn⟩ := by
  rw [Store.client, hLookup]
  dsimp only [Option.bind_some]
  rw [hRecord]
  rfl

theorem client_congr {s s' : Store} {fd : Fd} (hLookup : s'.clients.lookup fd = s.clients.lookup fd)
    (hRecords : ∀ conn, s.clients.lookup fd = some (some conn) → s'.records conn = s.records conn) :
    s'.client fd = s.client fd := by
  rw [Store.client, Store.client, hLookup]
  cases hEntry : s.clients.lookup fd with
  | none => rfl
  | some client =>
    cases client with
    | none => rfl
    | some conn =>
      dsimp only [Option.bind_some]
      rw [hRecords conn hEntry]

/-- The table of values that the table of pointers stands for. -/
structure Shows (s : Store) (t : Server) : Prop where
  clients : ∀ fd, t.clients.lookup fd = s.client fd
  socks : t.socks = s.socks
  epollfd : t.epollfd = s.epollfd

theorem Shows.setIsonline {s : Store} {t : Server} (h : Shows s t) (hLinked : Linked s) {fd : Fd} {conn : Nat} {r : Record}
    (hLookup : s.clients.lookup fd = some (some conn)) (isonline : Int) {t' : Server}
    (hClients : t'.clients = t.clients.insert fd ⟨isonline, r.addr, conn⟩) (hSocks : t'.socks = t.socks)
    (hEpoll : t'.epollfd = t.epollfd) : Shows (s.setIsonline conn r isonline) t' where
  clients fd' := by
    rw [hClients]
    obtain rfl | hNe := eq_or_ne fd' fd
    · have hRecord : (s.setIsonline conn r isonline).records conn = some { r with isonline := isonline } := by
        rw [records_setIsonline, Function.update_self]
      rw [AList.lookup_insert, @client_of_entry (s.setIsonline conn r isonline) fd' conn _ hLookup hRecord]
    · rw [AList.lookup_insert_ne hNe, h.clients fd']
      refine (@client_congr s (s.setIsonline conn r isonline) fd' rfl ?_).symm
      intro conn' hOther
      have hNeConn : conn' ≠ conn := by
        rintro rfl
        exact hNe (hLinked.distinct fd fd' conn' hLookup hOther)
      rw [records_setIsonline, Function.update_of_ne hNeConn]
  socks := hSocks.trans h.socks
  epollfd := hEpoll.trans h.epollfd

theorem Shows.close {s : Store} {t : Server} (h : Shows s t) (fd : Fd) : Shows (s.close fd) (t.close fd) where
  clients := h.clients
  socks := by
    rw [Server.close, h.socks]
    rfl
  epollfd := by
    rw [Server.close, h.epollfd]
    rfl

theorem Shows.evict {s : Store} {t : Server} (h : Shows s t) (hLinked : Linked s) {fd : Fd} {conn : Nat}
    (hLookup : s.clients.lookup fd = some (some conn)) {t' : Server} (hClients : t'.clients = t.clients.erase fd)
    (hSocks : t'.socks = Function.update t.socks fd none)
    (hEpoll : t'.epollfd = Function.update t.epollfd fd false) : Shows (s.evict fd conn) t' where
  clients fd' := by
    rw [hClients]
    obtain rfl | hNe := eq_or_ne fd' fd
    · rw [AList.lookup_erase, Store.client, clients_evict, AList.lookup_erase]
      rfl
    · rw [AList.lookup_erase_ne hNe, h.clients fd']
      refine (@client_congr s (s.evict fd conn) fd' (AList.lookup_erase_ne hNe) ?_).symm
      intro conn' hOther
      have hNeConn : conn' ≠ conn := by
        rintro rfl
        exact hNe (hLinked.distinct fd fd' conn' hLookup hOther)
      rw [records_evict, Function.update_of_ne hNeConn]
  socks := by
    rw [hSocks, h.socks, socks_evict]
  epollfd := by
    rw [hEpoll, h.epollfd]
    rfl

theorem Shows.visit {s : Store} {t : Server} (h : Shows s t) (hLinked : Linked s) (fd : Fd) :
    Shows (visit s fd) (heartBeatOne t fd) := by
  have hSent : Shows (s.send fd) t := ⟨h.clients, h.socks, h.epollfd⟩
  have hSentLinked : Linked (s.send fd) := { hLinked with }
  cases hLookup : s.clients.lookup fd with
  | none =>
    have hNone : t.clients.lookup fd = none := by rw [h.clients fd, Store.client, hLookup]; rfl
    rw [ClientTable.visit, hLookup, heartBeatOne, hNone]
    exact h
  | some client =>
    obtain ⟨conn, rfl, hLive⟩ := hLinked.entries fd client hLookup
    obtain ⟨r, hRecord⟩ := Option.isSome_iff_exists.mp hLive
    have hClient : t.clients.lookup fd = some ⟨r.isonline, r.addr, conn⟩ := by
      rw [h.clients fd, client_of_entry hLookup hRecord]
    rw [ClientTable.visit, hLookup, heartBeatOne, hClient]
    simp only [beat, hRecord]
    split
    · split
      · rw [evict_setIsonline]
        exact hSent.evict hSentLinked hLookup rfl rfl rfl
      · exact hSent.setIsonline hSentLinked hLookup (r.isonline - 1) rfl rfl rfl
    · exact h

theorem Shows.mem_iff {s : Store} {t : Server} (h : Shows s t) (hLinked : Linked s) (fd : Fd) :
    fd ∈ t.clients ↔ fd ∈ s.clients := by
  rw [← AList.lookup_isSome, ← AList.lookup_isSome, h.clients fd]
  cases hLookup : s.clients.lookup fd with
  | none => rw [Store.client, hLookup]; rfl
  | some client =>
    obtain ⟨conn, rfl, hLive⟩ := hLinked.entries fd client hLookup
    obtain ⟨r, hRecord⟩ := Option.isSome_iff_exists.mp hLive
    rw [client_of_entry hLookup hRecord]
    exact Iff.rfl

theorem Shows.keys {s : Store} {t : Server} (h : Shows s t) (hLinked : Linked s) :
    s.keys = t.clients.keys.insertionSort (· ≤ ·) := by
  have hPerm : s.clients.keys.Perm t.clients.keys := by
    apply (List.perm_ext_iff_of_nodup s.clients.nodupKeys t.clients.nodupKeys).mpr
    intro fd
    change fd ∈ s.clients.keys ↔ fd ∈ t.clients.keys
    rw [← AList.mem_keys, ← AList.mem_keys, h.mem_iff hLinked fd]
  have hSorted := hPerm.trans (List.perm_insertionSort (· ≤ ·) t.clients.keys).symm
  exact ((List.perm_insertionSort (· ≤ ·) s.clients.keys).trans hSorted).eq_of_pairwise'
    (List.pairwise_insertionSort (· ≤ ·) _) (List.pairwise_insertionSort (· ≤ ·) _)

theorem Shows.visits {s : Store} {t : Server} (h : Shows s t) (hLinked : Linked s) (fds : List Fd) :
    Shows (fds.foldl ClientTable.visit s) (fds.foldl heartBeatOne t) := by
  induction fds generalizing s t with
  | nil => exact h
  | cons fd fds ih => exact ih (h.visit hLinked fd) (hLinked.visit fd)

theorem Shows.tick {s : Store} {t : Server} (h : Shows s t) (hLinked : Linked s) : Shows (tick s) (heartBeat t) := by
  rw [heartBeat, ← h.keys hLinked]
  exact h.visits hLinked s.keys

end MonitorSystem.ClientTable
