import Mathlib.Data.List.Nodup
import Mathlib.Data.List.Perm.Subperm
import Mathlib.Data.Nat.ModEq
import MonitorSystem.DbPool

/-! # The scan of get_db_connect

One call with nobody else at the pool: the loop as it is written, with its
counter i, and which node it comes back with.
-/

namespace MonitorSystem.PoolScan

open DbPool

/-- The variables of the loop, and the indices of the nodes it has examined. -/
structure Loop where
  sp : SqlConnPool
  i : Nat
  index : Nat
  examined : List Nat

/-- Every iteration but the one that breaks raises i, so pool_number iterations are enough. -/
def getLoop (start_index : Nat) (trial : Nat → Trial) : Nat → Loop → Loop
  | 0, s => s
  | fuel + 1, s =>
    if s.i < s.sp.pool_number then
      let index := (start_index + s.i) % s.sp.pool_number
      let r := tryNode s.sp index (trial index)
      let s := { s with sp := r.1, index := index, examined := s.examined ++ [index] }
      if r.2 = true then s else getLoop start_index trial fuel { s with i := s.i + 1 }
    else s

def Loop.returned (s : Loop) : Option Nat := if s.i = s.sp.pool_number then none else some s.index

/-- The loop of get_db_connect once start_index is chosen. -/
def getFrom (sp : SqlConnPool) (start_index : Nat) (trial : Nat → Trial) : Loop :=
  getLoop start_index trial sp.pool_number ⟨sp, 0, 0, []⟩

def Connect.succeeds : Connect → Bool
  | .connected _ => true
  | .noInit | .refused => false

/-- Unlocked, connected or reconnected, and the server answers. -/
def Qualifies (sp : SqlConnPool) (trial : Nat → Trial) (index : Nat) : Prop :=
  (sp.sql_pool index).locked = false ∧
    ((sp.sql_pool index).sql_state = .conn ∨ Connect.succeeds (trial index).connect = true) ∧ (trial index).ping = 0

instance (sp : SqlConnPool) (trial : Nat → Trial) (index : Nat) : Decidable (Qualifies sp trial index) :=
  inferInstanceAs (Decidable (_ ∧ _))

structure Rejected (node : SqlNode) : Prop where
  unlocked : node.locked = false
  unused : node.used = 0
  disconn : node.sql_state = .disconn

structure Scanned (sp : SqlConnPool) (start_index : Nat) (trial : Nat → Trial) (s : Loop) (found : Option Nat) : Prop where
  cyclic : s.examined <+: order sp.pool_number start_index
  once : s.examined.Nodup
  first : found = (order sp.pool_number start_index).find? fun index => Qualifies sp trial index
  null : found = none ↔ ∀ index < sp.pool_number, ¬ Qualifies sp trial index
  last : ∀ index, found = some index → ∃ before, s.examined = before ++ [index]
  whole : found = none → s.examined = order sp.pool_number start_index
  rejected : ∀ index ∈ s.examined, (sp.sql_pool index).locked = false → found ≠ some index →
    Rejected (s.sp.sql_pool index)
  unchanged : ∀ index, (sp.sql_pool index).locked = true ∨ index ∉ s.examined →
    s.sp.sql_pool index = sp.sql_pool index

theorem order_nodup {pool_number start_index : Nat} : (order pool_number start_index).Nodup := by
  rw [order]
  apply List.Nodup.map_on _ List.nodup_range
  intro i hi j hj hSame
  have hMod := Nat.ModEq.add_left_cancel' start_index hSame
  exact Nat.ModEq.eq_of_lt_of_lt hMod (List.mem_range.mp hi) (List.mem_range.mp hj)

theorem mem_order_iff {pool_number start_index index : Nat} :
    index ∈ order pool_number start_index ↔ index < pool_number := by
  refine ⟨mem_order, fun hIndex => ?_⟩
  -- as many different indices as there are nodes
  have hPerm : (order pool_number start_index).Subperm (List.range pool_number) :=
    List.subperm_of_subset order_nodup fun i hi => List.mem_range.mpr (mem_order hi)
  have hLength : (List.range pool_number).length ≤ (order pool_number start_index).length := by
    rw [order, List.length_map, List.length_range]
  exact (hPerm.perm_of_length_le hLength).mem_iff.mpr (List.mem_range.mpr hIndex)

section

variable {sp : SqlConnPool} {trial : Nat → Trial} {index : Nat}

theorem reconnected_cases (hLive : sp.shutdown = false) (node : SqlNode) (connect : Connect) :
    ((reconnected sp node connect).1 = 0 ∧ (node.sql_state = .conn ∨ Connect.succeeds connect = true)) ∨
      ((reconnected sp node connect).1 ≠ 0 ∧ ¬ (node.sql_state = .conn ∨ Connect.succeeds connect = true) ∧
        (reconnected sp node connect).2.sql_state = .disconn) := by
  cases hState : node.sql_state with
  | conn =>
    rw [reconnected_conn hState]
    exact .inl ⟨rfl, .inl rfl⟩
  | disconn =>
    rw [reconnected, if_pos hState, createDbConnect, if_neg (by simp [hLive])]
    cases connect with
    | noInit => exact .inr ⟨by simp, by simp [Connect.succeeds], hState⟩
    | refused => exact .inr ⟨by simp, by simp [Connect.succeeds], rfl⟩
    | connected s => exact .inl ⟨rfl, .inr rfl⟩

theorem release_rejected {node : SqlNode} (h : node.sql_state = .disconn) (sp : SqlConnPool) (index : Nat) :
    Rejected ((releaseNode (sp.set index node) index).sql_pool index) := by
  have hNode : (releaseNode (sp.set index node) index).sql_pool index = { node with used := 0, locked := false } := by
    rw [releaseNode]
    change ((sp.set index node).set index _).sql_pool index = _
    rw [set_self, set_self]
  rw [hNode]
  exact ⟨rfl, rfl, h⟩

theorem release_others {other : Nat} (h : other ≠ index) (sp : SqlConnPool) (node : SqlNode) :
    (releaseNode (sp.set index node) index).sql_pool other = sp.sql_pool other := by
  rw [releaseNode]
  change ((sp.set index node).set index _).sql_pool other = _
  rw [set_of_ne h, set_of_ne h]

/-- What one iteration does with its node; the others it leaves alone. -/
structure Tried (sp : SqlConnPool) (trial : Nat → Trial) (index : Nat) (r : SqlConnPool × Bool) : Prop where
  found : r.2 = true ↔ Qualifies sp trial index
  locked : (sp.sql_pool index).locked = true → r.1 = sp
  rejected : (sp.sql_pool index).locked = false → ¬ Qualifies sp trial index → Rejected (r.1.sql_pool index)
  shutdown : r.1.shutdown = sp.shutdown
  number : r.1.pool_number = sp.pool_number
  others : ∀ other ≠ index, r.1.sql_pool other = sp.sql_pool other

theorem tryNode_tried (hLive : sp.shutdown = false) (trial : Nat → Trial) (index : Nat) :
    Tried sp trial index (tryNode sp index (trial index)) := by
  cases hLocked : (sp.sql_pool index).locked with
  | true =>
    have hTry := tryNode_locked hLocked (trial index)
    have hNot : ¬ Qualifies sp trial index := fun h => by
      rw [Qualifies, hLocked] at h
      cases h.1
    have hShut (h : (sp.sql_pool index).locked = false) : False := by
      rw [hLocked] at h
      cases h
    rw [hTry]
    exact ⟨iff_of_false Bool.false_ne_true hNot, fun _ => rfl, fun h => (hShut h).elim, rfl, rfl, fun _ _ => rfl⟩
  | false =>
    have hOpen (h : (sp.sql_pool index).locked = true) : False := by
      rw [hLocked] at h
      cases h
    have hQualifies : Qualifies sp trial index ↔ ((sp.sql_pool index).sql_state = .conn ∨
        Connect.succeeds (trial index).connect = true) ∧ (trial index).ping = 0 := and_iff_right hLocked
    rw [tryNode, if_neg hOpen]
    obtain ⟨hRes, hConnected⟩ | ⟨hRes, hFailed, hState⟩ :=
      reconnected_cases hLive { sp.sql_pool index with locked := true } (trial index).connect
    · dsimp only
      rw [if_neg (not_not.mpr hRes)]
      by_cases hPing : (trial index).ping = 0
      · rw [if_neg (not_not.mpr hPing)]
        exact ⟨iff_of_true rfl (hQualifies.mpr ⟨hConnected, hPing⟩), fun h => (hOpen h).elim,
          fun _ h => absurd (hQualifies.mpr ⟨hConnected, hPing⟩) h, rfl, rfl, fun _ hNe => set_of_ne hNe ..⟩
      · rw [if_pos hPing]
        exact ⟨iff_of_false Bool.false_ne_true (fun h => hPing (hQualifies.mp h).2), fun h => (hOpen h).elim,
          fun _ _ => release_rejected rfl sp index, rfl, rfl, fun _ hNe => release_others hNe ..⟩
    · dsimp only
      rw [if_pos hRes]
      exact ⟨iff_of_false Bool.false_ne_true (fun h => hFailed (hQualifies.mp h).1), fun h => (hOpen h).elim,
        fun _ _ => release_rejected hState sp index, rfl, rfl, fun _ hNe => release_others hNe ..⟩

/-- Before an iteration every node examined so far has been rejected. -/
structure Inv (sp : SqlConnPool) (start_index : Nat) (trial : Nat → Trial) (s : Loop) : Prop where
  examined : s.examined = (List.range s.i).map fun i => (start_index + i) % sp.pool_number
  within : s.i ≤ sp.pool_number
  shutdown : s.sp.shutdown = false
  number : s.sp.pool_number = sp.pool_number
  none : ∀ index ∈ s.examined, ¬ Qualifies sp trial index
  rejected : ∀ index ∈ s.examined, (sp.sql_pool index).locked = false → Rejected (s.sp.sql_pool index)
  unchanged : ∀ index, (sp.sql_pool index).locked = true ∨ index ∉ s.examined →
    s.sp.sql_pool index = sp.sql_pool index

end

variable {sp : SqlConnPool} {start_index : Nat} {trial : Nat → Trial} {s : Loop}

theorem inv_start (hLive : sp.shutdown = false) : Inv sp start_index trial ⟨sp, 0, 0, []⟩ where
  examined := rfl
  within := Nat.zero_le _
  shutdown := hLive
  number := rfl
  none _ h := absurd h List.not_mem_nil
  rejected _ h := absurd h List.not_mem_nil
  unchanged _ _ := rfl

theorem order_prefix {pool_number i : Nat} (h : i ≤ pool_number) (start_index : Nat) :
    ((List.range i).map fun i => (start_index + i) % pool_number) <+: order pool_number start_index := by
  have hRange : List.range i <+: List.range pool_number := by
    have hTake := List.take_prefix i (List.range pool_number)
    rwa [List.take_range, Nat.min_eq_left h] at hTake
  exact hRange.map _

theorem Inv.fresh (h : Inv sp start_index trial s) (hLt : s.i < sp.pool_number) :
    s.examined ++ [(start_index + s.i) % sp.pool_number] <+: order sp.pool_number start_index ∧
      (start_index + s.i) % sp.pool_number ∉ s.examined := by
  have hPrefix := order_prefix hLt start_index
  rw [List.range_succ, List.map_append, ← h.examined] at hPrefix
  refine ⟨hPrefix, fun hMem => ?_⟩
  have hNodup := order_nodup.sublist hPrefix.sublist
  exact List.disjoint_of_nodup_append hNodup hMem List.mem_cons_self

theorem Inv.exhausted (h : Inv sp start_index trial s) (hEnd : s.i = sp.pool_number) :
    Scanned sp start_index trial s Option.none := by
  have hWhole : s.examined = order sp.pool_number start_index := by
    rw [h.examined, hEnd, order]
  have hNone : ∀ index < sp.pool_number, ¬ Qualifies sp trial index := fun index hIndex =>
    h.none index (hWhole ▸ mem_order_iff.mpr hIndex)
  constructor
  · exact hWhole ▸ List.prefix_rfl
  · exact hWhole ▸ order_nodup
  · rw [eq_comm, List.find?_eq_none]
    intro index hMem
    simpa using hNone index (mem_order hMem)
  · exact iff_of_true rfl hNone
  · intro index hFound
    cases hFound
  · intro _
    exact hWhole
  · intro index hMem hUnlocked _
    exact h.rejected index hMem hUnlocked
  · exact h.unchanged

theorem Inv.qualifies_iff (h : Inv sp start_index trial s) (hLt : s.i < sp.pool_number) :
    Qualifies s.sp trial ((start_index + s.i) % sp.pool_number) ↔
      Qualifies sp trial ((start_index + s.i) % sp.pool_number) := by
  rw [Qualifies, Qualifies, h.unchanged _ (.inr (h.fresh hLt).2)]

theorem Inv.found (h : Inv sp start_index trial s) (hLt : s.i < sp.pool_number) {r : SqlConnPool}
    (hTried : Tried s.sp trial ((start_index + s.i) % sp.pool_number) (r, true)) :
    Scanned sp start_index trial ⟨r, s.i, (start_index + s.i) % sp.pool_number,
      s.examined ++ [(start_index + s.i) % sp.pool_number]⟩ (some ((start_index + s.i) % sp.pool_number)) := by
  obtain ⟨hPrefix, hFresh⟩ := h.fresh hLt
  have hQualifies := (h.qualifies_iff hLt).mp (hTried.found.mp rfl)
  have hIn : (start_index + s.i) % sp.pool_number < sp.pool_number := Nat.mod_lt _ (Nat.zero_lt_of_lt hLt)
  constructor
  · exact hPrefix
  · exact order_nodup.sublist hPrefix.sublist
  · obtain ⟨rest, hRest⟩ := hPrefix
    rw [← hRest, List.append_assoc, eq_comm, List.find?_eq_some_iff_append]
    refine ⟨decide_eq_true hQualifies, s.examined, rest, rfl, ?_⟩
    intro index hMem
    simpa using h.none index hMem
  · apply iff_of_false (Option.some_ne_none _)
    intro hNone
    exact hNone _ hIn hQualifies
  · intro index hFound
    cases hFound
    exact ⟨s.examined, rfl⟩
  · intro hNull
    cases hNull
  · intro index hMem hUnlocked hOther
    obtain hMem | hMem := List.mem_append.mp hMem
    · have hNe : index ≠ (start_index + s.i) % sp.pool_number := ne_of_mem_of_not_mem hMem hFresh
      rw [hTried.others index hNe]
      exact h.rejected index hMem hUnlocked
    · obtain rfl := List.mem_singleton.mp hMem
      exact absurd rfl hOther
  · intro index hUntouched
    have hNe : index ≠ (start_index + s.i) % sp.pool_number := by
      rintro rfl
      obtain hLocked | hOut := hUntouched
      · rw [hQualifies.1] at hLocked
        cases hLocked
      · exact hOut (List.mem_append_right _ List.mem_cons_self)
    rw [hTried.others index hNe]
    exact h.unchanged index (hUntouched.imp_right fun hOut hMem => hOut (List.mem_append_left _ hMem))

theorem Inv.next (h : Inv sp start_index trial s) (hLt : s.i < sp.pool_number) {r : SqlConnPool}
    (hTried : Tried s.sp trial ((start_index + s.i) % sp.pool_number) (r, false)) :
    Inv sp start_index trial ⟨r, s.i + 1, (start_index + s.i) % sp.pool_number,
      s.examined ++ [(start_index + s.i) % sp.pool_number]⟩ := by
  obtain ⟨_, hFresh⟩ := h.fresh hLt
  have hSame : s.sp.sql_pool ((start_index + s.i) % sp.pool_number) =
      sp.sql_pool ((start_index + s.i) % sp.pool_number) := h.unchanged _ (.inr hFresh)
  have hNot : ¬ Qualifies s.sp trial ((start_index + s.i) % sp.pool_number) := fun hQualifies =>
    Bool.false_ne_true (hTried.found.mpr hQualifies)
  constructor
  · dsimp only
    rw [List.range_succ, List.map_append, ← h.examined]
    rfl
  · exact hLt
  · exact hTried.shutdown.trans h.shutdown
  · exact hTried.number.trans h.number
  · intro index hMem
    obtain hMem | hMem := List.mem_append.mp hMem
    · exact h.none index hMem
    · obtain rfl := List.mem_singleton.mp hMem
      exact fun hQualifies => hNot ((h.qualifies_iff hLt).mpr hQualifies)
  · intro index hMem hUnlocked
    obtain hMem | hMem := List.mem_append.mp hMem
    · rw [hTried.others index (ne_of_mem_of_not_mem hMem hFresh)]
      exact h.rejected index hMem hUnlocked
    · obtain rfl := List.mem_singleton.mp hMem
      exact hTried.rejected (hSame ▸ hUnlocked) hNot
  · intro index hUntouched
    obtain rfl | hNe := eq_or_ne index ((start_index + s.i) % sp.pool_number)
    · obtain hLocked | hOut := hUntouched
      · have hPool : r = s.sp := hTried.locked (hSame ▸ hLocked)
        rw [hPool, hSame]
      · exact absurd (List.mem_append_right _ List.mem_cons_self) hOut
    · rw [hTried.others index hNe]
      exact h.unchanged index (hUntouched.imp_right fun hOut hMem => hOut (List.mem_append_left _ hMem))

theorem getLoop_scanned {fuel : Nat} (h : Inv sp start_index trial s) (hFuel : sp.pool_number - s.i ≤ fuel) :
    Scanned sp start_index trial (getLoop start_index trial fuel s) (getLoop start_index trial fuel s).returned := by
  have hWithin := h.within
  have hReturned (s' : Loop) (hNumber : s'.sp.pool_number = sp.pool_number) :
      s'.returned = if s'.i = sp.pool_number then none else some s'.index := by
    rw [Loop.returned, hNumber]
  induction fuel generalizing s with
  | zero =>
    have hEnd : s.i = sp.pool_number := by omega
    rw [getLoop, hReturned s h.number, if_pos hEnd]
    exact h.exhausted hEnd
  | succ fuel ih =>
    rw [getLoop, h.number]
    split
    · rename_i hLt
      have hTried := tryNode_tried h.shutdown trial ((start_index + s.i) % sp.pool_number)
      dsimp only
      generalize tryNode s.sp ((start_index + s.i) % sp.pool_number)
        (trial ((start_index + s.i) % sp.pool_number)) = r at hTried ⊢
      obtain ⟨r, found⟩ := r
      cases found with
      | true =>
        have hBreak : Loop.returned ⟨r, s.i, (start_index + s.i) % sp.pool_number,
            s.examined ++ [(start_index + s.i) % sp.pool_number]⟩ = some ((start_index + s.i) % sp.pool_number) := by
          rw [hReturned _ (hTried.number.trans h.number), if_neg (Nat.ne_of_lt hLt)]
        rw [if_pos rfl, hBreak]
        exact h.found hLt hTried
      | false => exact ih (h.next hLt hTried) (by dsimp only; omega) hLt
    · have hEnd : s.i = sp.pool_number := by omega
      rw [hReturned s h.number, if_pos hEnd]
      exact h.exhausted hEnd

theorem scan_eq_getLoop {fuel : Nat} (hLive : s.sp.shutdown = false) (hFuel : s.sp.pool_number - s.i ≤ fuel)
    (hWithin : s.i ≤ s.sp.pool_number) :
    scan trial ((List.range' s.i (s.sp.pool_number - s.i)).map fun i => (start_index + i) % s.sp.pool_number) s.sp =
      ((getLoop start_index trial fuel s).sp, (getLoop start_index trial fuel s).returned) := by
  induction fuel generalizing s with
  | zero =>
    have hEnd : s.i = s.sp.pool_number := by omega
    rw [getLoop, Loop.returned, if_pos hEnd, hEnd, Nat.sub_self]
    rfl
  | succ fuel ih =>
    rw [getLoop]
    split
    · rename_i hLt
      have hCount : s.sp.pool_number - s.i = s.sp.pool_number - (s.i + 1) + 1 := by omega
      have hTried := tryNode_tried hLive trial ((start_index + s.i) % s.sp.pool_number)
      rw [hCount, List.range'_succ, List.map_cons, scan]
      dsimp only
      generalize tryNode s.sp ((start_index + s.i) % s.sp.pool_number)
        (trial ((start_index + s.i) % s.sp.pool_number)) = r at hTried ⊢
      obtain ⟨r, found⟩ := r
      have hNumber : r.pool_number = s.sp.pool_number := hTried.number
      cases found with
      | true =>
        rw [if_pos rfl, Loop.returned, if_neg]
        rw [hNumber]
        exact Nat.ne_of_lt hLt
      | false =>
        have hRest := @ih ⟨r, s.i + 1, (start_index + s.i) % s.sp.pool_number,
          s.examined ++ [(start_index + s.i) % s.sp.pool_number]⟩ (hTried.shutdown.trans hLive)
          (by dsimp only; omega) (by dsimp only; omega)
        dsimp only at hRest
        rw [hNumber] at hRest
        exact hRest
    · have hEnd : s.i = s.sp.pool_number := by omega
      rw [Loop.returned, if_pos hEnd, hEnd, Nat.sub_self]
      rfl

/-- A call comes back with the first node that qualifies. -/
theorem getDbConnect_scans (hLive : sp.shutdown = false) (hSize : 0 < sp.pool_number) (random : Nat)
    (trial : Nat → Trial) :
    getDbConnect sp random trial = some ((getFrom sp (random % sp.pool_number) trial).sp,
        (getFrom sp (random % sp.pool_number) trial).returned) ∧
      Scanned sp (random % sp.pool_number) trial (getFrom sp (random % sp.pool_number) trial)
        (getFrom sp (random % sp.pool_number) trial).returned := by
  have hScan := @scan_eq_getLoop (random % sp.pool_number) trial ⟨sp, 0, 0, []⟩ sp.pool_number hLive (Nat.le_refl _)
    (Nat.zero_le _)
  refine ⟨?_, getLoop_scanned (inv_start hLive) (Nat.le_refl _)⟩
  rw [getDbConnect_live hLive hSize, order, List.range_eq_range']
  exact congrArg some hScan

def threeNodes : SqlConnPool where
  shutdown := false
  sql_pool index := ⟨some index, index = 0, 0, index, if index = 1 then .disconn else .conn⟩
  pool_number := 3
  busy_number := 1
  closed := []

def threeTrials (index : Nat) : Trial := ⟨.connected 7, if index = 2 then 1 else 0⟩

theorem getDbConnect_scans_three : Scanned threeNodes 2 threeTrials (getFrom threeNodes 2 threeTrials) (some 1) :=
  (getDbConnect_scans (by decide) (by decide) 5 threeTrials).2

end MonitorSystem.PoolScan
