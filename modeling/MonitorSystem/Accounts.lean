import MonitorSystem.DbPool
import MonitorSystem.Lib.Transition
import Mathlib.Data.List.Nodup
import Mathlib.Data.List.Perm.Basic

/-! # The accounts of the connection pool

A caller may release a node that get_db_connect handed out, once for each time.
The scan also calls release_node, for a node that it has not handed out.
-/

namespace MonitorSystem.Accounts

open DbPool Lib.Transition

/-- The pool, and the nodes handed out and not yet released. -/
structure State where
  pool : SqlConnPool
  out : List Nat

inductive Call
  | get (random : Nat) (trial : Nat → Trial)
  | release (index : Nat)

def step (s : State) : Call → Option State
  | .get random trial => (getDbConnect s.pool random trial).map fun r => ⟨r.1, s.out ++ r.2.toList⟩
  | .release index => if index ∈ s.out then some ⟨releaseNode s.pool index, s.out.erase index⟩ else none

def system (sp : SqlConnPool) : System State Call where
  start s := s = ⟨sp, []⟩
  step := step

def inUse (sp : SqlConnPool) : List Nat := (List.range sp.pool_number).filter fun index => (sp.sql_pool index).used = 1

structure Accounted (s : State) : Prop where
  handedOut : s.pool.busy_number = s.out.length
  used : s.pool.busy_number = (inUse s.pool).length
  nonneg : 0 ≤ s.pool.busy_number
  atMost : s.pool.busy_number ≤ s.pool.pool_number

def firstFree (sp : SqlConnPool) (indices : List Nat) : Option Nat :=
  indices.find? fun index => (sp.sql_pool index).locked = false

/-- The first node of the scan with a free mutex, if any, answers its ping. -/
def Answers (s : State) : Call → Prop
  | .get random trial => ∀ index ∈ firstFree s.pool (order s.pool.pool_number (random % s.pool.pool_number)),
      (trial index).ping = 0
  | .release _ => True

structure Intact (s : State) (index : Nat) : Prop where
  conn : (s.pool.sql_pool index).sql_state = .conn
  locked : (s.pool.sql_pool index).locked = true ↔ index ∈ s.out
  used : (s.pool.sql_pool index).used = 1 ↔ index ∈ s.out

structure Inv (s : State) : Prop where
  live : s.pool.shutdown = false
  size : 0 < s.pool.pool_number
  inside : ∀ index ∈ s.out, index < s.pool.pool_number
  once : s.out.Nodup
  nodes : ∀ index < s.pool.pool_number, Intact s index
  busy : s.pool.busy_number = s.out.length

theorem mem_inUse {sp : SqlConnPool} {index : Nat} :
    index ∈ inUse sp ↔ index < sp.pool_number ∧ (sp.sql_pool index).used = 1 := by
  simp [inUse]

theorem Inv.inUse_perm {s : State} (h : Inv s) : (inUse s.pool).Perm s.out := by
  have hNodup : (inUse s.pool).Nodup := List.nodup_range.filter _
  apply (List.perm_ext_iff_of_nodup hNodup h.once).mpr
  intro index
  rw [mem_inUse]
  constructor
  · rintro ⟨hLt, hUsed⟩
    exact (h.nodes index hLt).used.mp hUsed
  · intro hOut
    have hLt := h.inside index hOut
    exact ⟨hLt, (h.nodes index hLt).used.mpr hOut⟩

theorem Inv.accounted {s : State} (h : Inv s) : Accounted s := by
  have hLength := h.inUse_perm.length_eq
  have hAtMost : (inUse s.pool).length ≤ s.pool.pool_number := by
    have hFilter := List.length_filter_le (fun index => decide ((s.pool.sql_pool index).used = 1))
      (List.range s.pool.pool_number)
    rwa [List.length_range] at hFilter
  have hBusy := h.busy
  constructor <;> omega

section scan

variable {sp : SqlConnPool} {trial : Nat → Trial} {indices : List Nat} {index : Nat}

theorem tryNode_silent {t : Trial} (hFree : (sp.sql_pool index).locked = false)
    (hPing : t.ping ≠ 0) :
    ∃ node, tryNode sp index t = (releaseNode (sp.set index node) index, false) := by
  obtain ⟨hLocked, _⟩ | ⟨_, node, hTry⟩ | ⟨_, _, _, hAnswer, _⟩ := tryNode_cases sp index t
  · rw [hFree] at hLocked
    cases hLocked
  · exact ⟨node, hTry⟩
  · exact absurd hAnswer hPing

theorem scan_full (h : firstFree sp indices = none) : scan trial indices sp = (sp, none) := by
  induction indices with
  | nil => rfl
  | cons index rest ih =>
    rw [firstFree, List.find?_cons] at h
    cases hLocked : (sp.sql_pool index).locked with
    | false => simp [hLocked] at h
    | true =>
      rw [scan, tryNode_locked hLocked]
      rw [hLocked] at h
      exact ih h

theorem scan_firstFree (h : firstFree sp indices = some index) :
    (sp.sql_pool index).locked = false ∧ index ∈ indices ∧
      ∃ rest, scan trial indices sp = scan trial (index :: rest) sp := by
  induction indices with
  | nil => cases h
  | cons first rest ih =>
    rw [firstFree, List.find?_cons] at h
    cases hLocked : (sp.sql_pool first).locked with
    | false =>
      rw [hLocked] at h
      cases h
      exact ⟨hLocked, List.mem_cons_self, rest, rfl⟩
    | true =>
      rw [hLocked] at h
      obtain ⟨hFree, hMem, rest', hScan⟩ := ih h
      refine ⟨hFree, List.mem_cons_of_mem first hMem, rest', ?_⟩
      rw [← hScan]
      conv_lhs => rw [scan, tryNode_locked hLocked]

theorem busy_scan_le (sp : SqlConnPool) (indices : List Nat) :
    (scan trial indices sp).1.busy_number ≤ sp.busy_number + (scan trial indices sp).2.toList.length := by
  induction indices generalizing sp with
  | nil => simp [scan]
  | cons index rest ih =>
    rw [scan]
    obtain ⟨_, hTry⟩ | ⟨_, node, hTry⟩ | ⟨_, node, _, _, hTry⟩ := tryNode_cases sp index (trial index)
    · rw [hTry]
      exact ih sp
    · have hRest := ih (releaseNode (sp.set index node) index)
      rw [hTry]
      rw [release_busy, set_busy] at hRest
      dsimp only
      omega
    · rw [hTry]
      simp

end scan

def taken (sp : SqlConnPool) (index : Nat) : SqlConnPool :=
  { sp.set index { sp.sql_pool index with locked := true, used := 1 } with busy_number := sp.busy_number + 1 }

theorem Inv.get {s t : State} {random : Nat} {trial : Nat → Trial} (h : Inv s)
    (hAnswers : Answers s (.get random trial)) (hStep : step s (.get random trial) = some t) :
    t = s ∨ ∃ index < s.pool.pool_number, index ∉ s.out ∧ t = ⟨taken s.pool index, s.out ++ [index]⟩ := by
  rw [step, getDbConnect_live h.live h.size, Option.map_some, Option.some.injEq] at hStep
  subst hStep
  cases hFirst : firstFree s.pool (order s.pool.pool_number (random % s.pool.pool_number)) with
  | none =>
    rw [scan_full hFirst]
    simp
  | some index =>
    obtain ⟨hFree, hMem, rest, hScan⟩ := @scan_firstFree _ trial _ _ hFirst
    have hLt := mem_order hMem
    have hNode := h.nodes index hLt
    refine .inr ⟨index, hLt, ?_, ?_⟩
    · rw [← hNode.locked, hFree]
      exact Bool.false_ne_true
    · rw [hScan, scan, tryNode_answers hFree hNode.conn (hAnswers index hFirst)]
      rfl

theorem Inv.taken {s : State} {index : Nat} (h : Inv s) (hLt : index < s.pool.pool_number) (hNew : index ∉ s.out) :
    Inv ⟨taken s.pool index, s.out ++ [index]⟩ where
  live := h.live
  size := h.size
  inside := by
    intro other hOut
    obtain hOut | hOut := List.mem_append.mp hOut
    · exact h.inside other hOut
    · cases List.mem_singleton.mp hOut
      exact hLt
  once := by
    apply List.Nodup.append h.once (List.nodup_singleton index)
    rw [List.disjoint_singleton]
    exact hNew
  nodes := by
    intro other hOther
    obtain rfl | hNe := eq_or_ne other index
    · constructor <;> simp [Accounts.taken, (h.nodes other hLt).conn]
    · have hNode := h.nodes other hOther
      constructor <;> simp [Accounts.taken, set_of_ne hNe, hNe, hNode.conn, hNode.locked, hNode.used]
  busy := by
    rw [List.length_append, List.length_singleton, Int.natCast_add, ← h.busy]
    rfl

theorem Inv.release {s : State} {index : Nat} (h : Inv s) (hOut : index ∈ s.out) :
    Inv ⟨releaseNode s.pool index, s.out.erase index⟩ where
  live := h.live
  size := h.size
  inside other hOther := h.inside other (List.mem_of_mem_erase hOther)
  once := h.once.erase index
  nodes := by
    intro other hOther
    obtain rfl | hNe := eq_or_ne other index
    · have hGone := h.once.not_mem_erase (a := other)
      constructor <;> simp [releaseNode, (h.nodes other hOther).conn, hGone]
    · have hNode := h.nodes other hOther
      constructor <;>
        simp [releaseNode, set_of_ne hNe, List.mem_erase_of_ne hNe, hNode.conn, hNode.locked, hNode.used]
  busy := by
    have hLength := List.length_erase_add_one hOut
    have hBusy := h.busy
    rw [release_busy]
    dsimp only
    omega

theorem inv_step {s t : State} {a : Call} (h : Inv s) (hAnswers : Answers s a) (hStep : step s a = some t) :
    Inv t := by
  cases a with
  | get random trial =>
    obtain rfl | ⟨index, hLt, hNew, rfl⟩ := h.get hAnswers hStep
    · exact h
    · exact h.taken hLt hNew
  | release index =>
    obtain ⟨hOut, hEq⟩ := Option.ite_none_right_eq_some.mp hStep
    cases hEq
    exact h.release hOut

theorem drift {s t : State} {a : Call} (h : Inv s) (hSilent : ¬ Answers s a) (hStep : step s a = some t) :
    ¬ Accounted t := by
  cases a with
  | release index => exact absurd trivial hSilent
  | get random trial =>
    rw [step, getDbConnect_live h.live h.size, Option.map_some, Option.some.injEq] at hStep
    simp only [Answers, not_forall] at hSilent
    obtain ⟨index, hFirst, hPing⟩ := hSilent
    obtain ⟨hFree, hMem, rest, hScan⟩ := @scan_firstFree _ trial _ _ hFirst
    obtain ⟨node, hTry⟩ := tryNode_silent hFree hPing
    have hRest := @busy_scan_le trial (releaseNode (s.pool.set index node) index) rest
    rw [hScan, scan, hTry] at hStep
    subst hStep
    rintro ⟨hHandedOut, _, _, _⟩
    rw [release_busy, set_busy, h.busy] at hRest
    rw [List.length_append, Int.natCast_add] at hHandedOut
    dsimp only at hHandedOut
    omega

theorem inv_created {memory : Option (Nat → SqlNode)} {connect_pool_number : Int} {connect : Nat → Connect}
    {sp : SqlConnPool} (h : (sqlPoolCreate memory connect_pool_number connect).1 = some sp) : Inv ⟨sp, []⟩ := by
  obtain ⟨hLive, hNumber, hBusy, _, hFresh⟩ := sqlPoolCreate_some h
  refine ⟨hLive, ?_, ?_, List.nodup_nil, ?_, hBusy⟩
  · rw [hNumber]
    exact (corrected_range connect_pool_number).1
  · intro index hOut
    cases hOut
  · intro index hLt
    obtain ⟨hConn, hFree, hUnused⟩ := hFresh index hLt
    constructor <;> simp [hConn, hFree, hUnused]

/-- The accounts of a run are right throughout exactly when in every get the
first free node, if there is one, answers. -/
theorem accounted_iff {memory : Option (Nat → SqlNode)} {connect_pool_number : Int} {connect : Nat → Connect}
    {sp : SqlConnPool} (hCreate : (sqlPoolCreate memory connect_pool_number connect).1 = some sp)
    {calls : List Call} {t : State} (hRun : (system sp).run ⟨sp, []⟩ calls = some t) :
    (system sp).Along Accounted ⟨sp, []⟩ calls ↔ (system sp).Meets Answers ⟨sp, []⟩ calls := by
  apply Iff.symm
  apply meets_iff_along (I := Inv)
  · intro s h
    exact h.accounted
  · intro s a t h hAnswers hStep
    exact inv_step h hAnswers hStep
  · intro s a t h hSilent hStep
    exact drift h hSilent hStep
  · exact inv_created hCreate
  · exact hRun

/-- The only connection is lost: the get returns NULL and busy_number is -1. -/
theorem accounts_drift : ¬ ∀ (memory : Option (Nat → SqlNode)) (connect_pool_number : Int) (connect : Nat → Connect)
    (sp : SqlConnPool) (calls : List Call) (t : State),
    (sqlPoolCreate memory connect_pool_number connect).1 = some sp →
      (system sp).run ⟨sp, []⟩ calls = some t → (system sp).Along Accounted ⟨sp, []⟩ calls := by
  intro hAll
  cases hCreate : (sqlPoolCreate (some fun _ => blank) 1 opened).1 with
  | none => cases hCreate
  | some sp =>
    cases hCreate
    obtain ⟨_, hAlong⟩ := hAll (some fun _ => blank) 1 opened _ [.get 0 fun _ => ⟨.refused, 1⟩] _ rfl rfl
    obtain ⟨_, _, hNonneg, _⟩ := hAlong _ rfl
    exact absurd hNonneg (by decide)

theorem accounted_two_calls : ∃ sp, (sqlPoolCreate (some fun _ => blank) 2 opened).1 = some sp ∧
    (system sp).Along Accounted ⟨sp, []⟩ [.get 3 fun _ => ⟨.refused, 0⟩, .release 1] := by
  refine ⟨_, rfl, ?_⟩
  refine (@accounted_iff (some fun _ => blank) 2 opened _ rfl _ _ rfl).mpr ?_
  refine ⟨?_, trivial, trivial⟩
  intro _ _
  rfl

end MonitorSystem.Accounts
