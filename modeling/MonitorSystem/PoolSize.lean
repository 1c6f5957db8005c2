import MonitorSystem.ChangeNodeNum
import MonitorSystem.Lib.Transition
import MonitorSystem.PoolScan

/-! # The size of the pool

sql_pool_create keeps the size between 1 and POOL_MAX_NUMBER; changeNodeNum
adds or takes away five nodes whatever the size is.
-/

namespace MonitorSystem.PoolSize

open DbPool PoolScan ChangeNodeNum Lib.Transition

/-- The pool and the nodes handed out. live is false once the pool is destroyed
or the process has left the array or divided by 0. used and divisors are the
indices and the divisors so far. -/
structure State where
  pool : SqlConnPool
  held : List Nat
  live : Bool
  used : List Nat
  divisors : List Nat

inductive Call
  | changeNodeNum (op : Int) (connect : Nat → Connect)
  | getDbConnect (random : Nat) (trial : Nat → Trial)
  | releaseNode (index : Nat)

def indices (sp : SqlConnPool) (op : Int) (connect : Nat → Connect) : List Nat :=
  if op = 1 then
    List.range' sp.pool_number (min ((opens sp connect (List.range' sp.pool_number num)).length + 1) num)
  else if op = 0 then shrunk sp
  else []

def step (s : State) (call : Call) : Option State :=
  if s.live = false then none
  else match call with
    | .changeNodeNum op connect =>
      let used := s.used ++ indices s.pool op connect
      match changeNodeNum s.pool op connect with
      | some (sp, returned) => some { s with pool := sp, live := returned, used := used }
      | none => some { s with live := false, used := used }
    | .getDbConnect random trial =>
      let number := s.pool.pool_number
      let divisors := s.divisors ++ [number]
      match getDbConnect s.pool random trial with
      | some (sp, found) =>
        let used := s.used ++ (getFrom s.pool (random % number) trial).examined
        some { s with pool := sp, held := s.held ++ found.toList, used := used, divisors := divisors }
      | none => some { s with live := false, divisors := divisors }
    | .releaseNode index =>
      if index ∈ s.held then
        some { s with pool := releaseNode s.pool index, held := s.held.erase index, used := s.used ++ [index] }
      else none

def system : System State Call where
  start s := ∃ memory connect_pool_number connect,
    (sqlPoolCreate memory connect_pool_number connect).1 = some s.pool ∧
      s.held = [] ∧ s.live = true ∧ s.used = List.range s.pool.pool_number ∧ s.divisors = []
  step := step

structure Sized (s : State) : Prop where
  number : s.live = true → 1 ≤ s.pool.pool_number ∧ s.pool.pool_number ≤ poolMaxNumber
  used : ∀ index ∈ s.used, index < poolMaxNumber
  divisors : ∀ divisor ∈ s.divisors, divisor ≠ 0

/-- The pool grows within its array and shrinks only when more than five nodes are there. -/
def Fits (s : State) : Call → Prop
  | .changeNodeNum op connect => (op = 1 → InArray s.pool connect num) ∧ (op = 0 → num < s.pool.pool_number)
  | .getDbConnect _ _ | .releaseNode _ => True

instance decidableFits (s : State) : ∀ call, Decidable (Fits s call)
  | .changeNodeNum _ _ => inferInstanceAs (Decidable (_ ∧ _))
  | .getDbConnect _ _ | .releaseNode _ => isTrue trivial

structure Inv (s : State) : Prop where
  sized : Sized s
  shutdown : s.live = true → s.pool.shutdown = false
  held : ∀ index ∈ s.held, index < poolMaxNumber

theorem all_append {used more : List Nat} (hUsed : ∀ index ∈ used, index < poolMaxNumber)
    (hMore : ∀ index ∈ more, index < poolMaxNumber) : ∀ index ∈ used ++ more, index < poolMaxNumber := by
  intro index hMem
  obtain hMem | hMem := List.mem_append.mp hMem
  · exact hUsed index hMem
  · exact hMore index hMem

theorem inv_start {s : State} (h : system.start s) : Inv s := by
  obtain ⟨memory, connect_pool_number, connect, hCreate, hHeld, hLive, hUsed, hDivisors⟩ := h
  obtain ⟨hShutdown, hNumber, _⟩ := sqlPoolCreate_some hCreate
  obtain ⟨hPos, hMax⟩ := corrected_range connect_pool_number
  rw [← hNumber] at hPos hMax
  refine ⟨⟨fun _ => ⟨hPos, hMax⟩, ?_, ?_⟩, fun _ => hShutdown, ?_⟩
  · intro index hMem
    rw [hUsed] at hMem
    exact Nat.lt_of_lt_of_le (List.mem_range.mp hMem) hMax
  · simp [hDivisors]
  · simp [hHeld]

section

variable {s s' : State} {op : Int} {connect : Nat → Connect}

theorem mem_indices_grow {sp : SqlConnPool} {index : Nat} :
    index ∈ indices sp 1 connect ↔ ∃ k < num, k ≤ (opens sp connect (List.range' sp.pool_number num)).length ∧
      index = sp.pool_number + k := by
  rw [indices, if_pos rfl, List.mem_range'_1]
  constructor
  · rintro ⟨hLe, hLt⟩
    exact ⟨index - sp.pool_number, by omega, by omega, by omega⟩
  · rintro ⟨k, hCount, hCreated, rfl⟩
    exact ⟨by omega, by omega⟩

theorem mem_shrunk {sp : SqlConnPool} {index : Nat} (h : index ∈ shrunk sp) : index < sp.pool_number := by
  rw [shrunk, List.mem_reverse, List.mem_range'_1] at h
  omega

theorem shrunk_number (sp : SqlConnPool) :
    ((shrunk sp).foldl SqlConnPool.closeNode sp).pool_number = sp.pool_number - num := by
  rw [closeNodes_number, shrunk, List.length_reverse, List.length_range']
  omega

theorem closeNodes_shutdown (indices : List Nat) (sp : SqlConnPool) :
    (indices.foldl SqlConnPool.closeNode sp).shutdown = sp.shutdown := by
  induction indices generalizing sp with
  | nil => rfl
  | cons index indices ih => exact ih _

theorem changed_fits {sp : SqlConnPool} (hShutdown : sp.shutdown = false) (hPos : 1 ≤ sp.pool_number)
    (hMax : sp.pool_number ≤ poolMaxNumber) (hGrow : op = 1 → InArray sp connect num)
    (hShrink : op = 0 → num < sp.pool_number) :
    ∃ sp' returned, changeNodeNum sp op connect = some (sp', returned) ∧ (returned = true →
      sp'.shutdown = false ∧ 1 ≤ sp'.pool_number ∧ sp'.pool_number ≤ poolMaxNumber) := by
  by_cases hOne : op = 1
  · subst hOne
    have hIn := hGrow rfl
    cases hNodes : createNodes connect (List.range' sp.pool_number num) sp with
    | mk sp' done =>
      rw [changeNodeNum, if_pos rfl, (growNodes_eq connect num sp).1 hIn, hNodes]
      cases done with
      | true =>
        obtain ⟨_, _, _, hDone⟩ := createNodes_spec hNodes
        obtain ⟨hSame, hNumber, _⟩ := @createNodes_all (fun _ => True) (fun _ _ _ => trivial)
          (fun _ _ _ _ => trivial) connect num sp sp' hNodes (fun _ _ => trivial)
        have hLast := hIn.resolve_left (by simp [hShutdown]) (num - 1) (by decide) (by rw [hDone.mp rfl]; decide)
        have hNum : num = 5 := rfl
        exact ⟨sp', true, rfl, fun _ => ⟨hSame.trans hShutdown, by omega, by omega⟩⟩
      | false => exact ⟨sqlPoolDestroy sp', false, rfl, fun h => absurd h Bool.false_ne_true⟩
  · by_cases hZero : op = 0
    · subst hZero
      have hMore := hShrink rfl
      have hNumber := shrunk_number sp
      refine ⟨_, true, changeNodeNum_shrink sp connect, fun _ => ⟨?_, by omega, by omega⟩⟩
      rw [closeNodes_shutdown, hShutdown]
    · rw [changeNodeNum, if_neg hOne, if_neg hZero]
      exact ⟨sp, true, rfl, fun _ => ⟨hShutdown, hPos, hMax⟩⟩

theorem indices_fit {sp : SqlConnPool} (hShutdown : sp.shutdown = false) (hMax : sp.pool_number ≤ poolMaxNumber)
    (hGrow : op = 1 → InArray sp connect num) : ∀ index ∈ indices sp op connect, index < poolMaxNumber := by
  intro index hMem
  by_cases hOne : op = 1
  · subst hOne
    obtain ⟨k, hCount, hCreated, rfl⟩ := mem_indices_grow.mp hMem
    exact (hGrow rfl).resolve_left (by simp [hShutdown]) k hCount hCreated
  · rw [indices, if_neg hOne] at hMem
    split at hMem
    · exact Nat.lt_of_lt_of_le (mem_shrunk hMem) hMax
    · exact absurd hMem List.not_mem_nil

theorem inv_change (h : Inv s) (hFits : Fits s (.changeNodeNum op connect))
    (hStep : step s (.changeNodeNum op connect) = some s') : Inv s' := by
  obtain ⟨hLive, hStep⟩ := Option.ite_none_left_eq_some.mp hStep
  have hLive := eq_true_of_ne_false hLive
  obtain ⟨hPos, hMax⟩ := h.sized.number hLive
  have hShutdown := h.shutdown hLive
  have hUsed := all_append h.sized.used (indices_fit hShutdown hMax hFits.1)
  obtain ⟨sp, returned, hChange, hReturned⟩ := changed_fits hShutdown hPos hMax hFits.1 hFits.2
  dsimp only at hStep
  rw [hChange] at hStep
  cases hStep
  exact ⟨⟨fun h => (hReturned h).2, hUsed, h.sized.divisors⟩, fun h => (hReturned h).1, h.held⟩

theorem inv_get {random : Nat} {trial : Nat → Trial} (h : Inv s)
    (hStep : step s (.getDbConnect random trial) = some s') : Inv s' := by
  obtain ⟨hLive, hStep⟩ := Option.ite_none_left_eq_some.mp hStep
  have hLive := eq_true_of_ne_false hLive
  obtain ⟨hPos, hMax⟩ := h.sized.number hLive
  have hShutdown := h.shutdown hLive
  obtain ⟨hGet, hScanned⟩ := getDbConnect_scans hShutdown hPos random trial
  have hIn : ∀ index ∈ (getFrom s.pool (random % s.pool.pool_number) trial).examined, index < poolMaxNumber :=
    fun index hMem => Nat.lt_of_lt_of_le (mem_order (hScanned.cyclic.subset hMem)) hMax
  have hKeeps := scan_keeps trial (order s.pool.pool_number (random % s.pool.pool_number)) s.pool
  rw [getDbConnect_live hShutdown hPos] at hGet
  rw [Option.some.inj hGet] at hKeeps
  obtain ⟨hNumber, hSame⟩ := hKeeps
  dsimp only at hStep hNumber hSame
  rw [getDbConnect_live hShutdown hPos, Option.some.inj hGet] at hStep
  cases hStep
  refine ⟨⟨fun _ => ?_, all_append h.sized.used hIn, ?_⟩, fun _ => hSame.trans hShutdown, all_append h.held ?_⟩
  · rw [hNumber]
    exact ⟨hPos, hMax⟩
  · intro divisor hMem
    obtain hMem | hMem := List.mem_append.mp hMem
    · exact h.sized.divisors divisor hMem
    · obtain rfl := List.mem_singleton.mp hMem
      exact Nat.ne_of_gt hPos
  · intro index hMem
    obtain ⟨before, hLast⟩ := hScanned.last index (Option.mem_toList.mp hMem)
    exact hIn index (hLast ▸ List.mem_append_right _ List.mem_cons_self)

theorem inv_release {index : Nat} (h : Inv s) (hStep : step s (.releaseNode index) = some s') : Inv s' := by
  obtain ⟨hLive, hStep⟩ := Option.ite_none_left_eq_some.mp hStep
  obtain ⟨hHeld, hStep⟩ := Option.ite_none_right_eq_some.mp hStep
  cases hStep
  refine ⟨⟨h.sized.number, all_append h.sized.used ?_, h.sized.divisors⟩, h.shutdown, ?_⟩
  · intro other hMem
    obtain rfl := List.mem_singleton.mp hMem
    exact h.held other hHeld
  · intro other hMem
    exact h.held other (List.mem_of_mem_erase hMem)

theorem inv_step {call : Call} (h : Inv s) (hFits : Fits s call) (hStep : step s call = some s') : Inv s' := by
  cases call with
  | changeNodeNum op connect => exact inv_change h hFits hStep
  | getDbConnect random trial => exact inv_get h hStep
  | releaseNode index => exact inv_release h hStep

theorem not_sized {call : Call} (hNot : ¬ Fits s call) (hStep : step s call = some s') : ¬ Sized s' := by
  cases call with
  | getDbConnect random trial => exact absurd trivial hNot
  | releaseNode index => exact absurd trivial hNot
  | changeNodeNum op connect =>
    obtain ⟨hLive, hStep⟩ := Option.ite_none_left_eq_some.mp hStep
    dsimp only at hStep
    intro hSized
    by_cases hGrow : op = 1 → InArray s.pool connect num
    · have hShrink : ¬ (op = 0 → num < s.pool.pool_number) := fun hShrink => hNot ⟨hGrow, hShrink⟩
      rw [Classical.not_imp] at hShrink
      obtain ⟨rfl, hFew⟩ := hShrink
      rw [changeNodeNum_shrink] at hStep
      cases hStep
      have hPos := (hSized.number rfl).1
      have hNumber := shrunk_number s.pool
      dsimp only at hPos
      omega
    · rw [Classical.not_imp] at hGrow
      obtain ⟨rfl, hOut⟩ := hGrow
      have hUsed : s'.used = s.used ++ indices s.pool 1 connect := by
        rw [changeNodeNum, if_pos rfl, (growNodes_eq connect num s.pool).2 hOut] at hStep
        cases hStep
        rfl
      apply hOut
      refine .inr fun k hCount hCreated => hSized.used _ ?_
      rw [hUsed]
      exact List.mem_append_right _ (mem_indices_grow.mpr ⟨k, hCount, hCreated, rfl⟩)

end

/-- In a run the size stays within its bounds exactly when the pool is made larger
and smaller only where that fits. -/
theorem sized_iff {calls : List Call} {s s' : State} (hStart : system.start s) (hRun : system.run s calls = some s') :
    system.Along Sized s calls ↔ system.Meets Fits s calls := by
  apply Iff.symm
  apply meets_iff_along (I := Inv)
  · intro s h
    exact h.sized
  · intro s call s' h hFits hStep
    exact inv_step h hFits hStep
  · intro s call s' _ hNot hStep
    exact not_sized hNot hStep
  · exact inv_start hStart
  · exact hRun

def tenNodes : State where
  pool := (sqlPoolCreate (some fun _ => blank) 10 opened).1.get (by decide)
  held := []
  live := true
  used := List.range 10
  divisors := []

theorem tenNodes_start : system.start tenNodes :=
  ⟨some fun _ => blank, 10, opened, rfl, rfl, rfl, rfl, rfl⟩

/-- It is made smaller twice, and get_db_connect would divide by 0. -/
theorem shrunk_to_nothing : ¬ ∀ calls s s', system.start s → system.run s calls = some s' →
    system.Along Sized s calls := by
  intro hAll
  obtain ⟨_, hFirst⟩ := hAll [.changeNodeNum 0 opened, .changeNodeNum 0 opened] tenNodes _ tenNodes_start rfl
  obtain ⟨_, hSecond⟩ := hFirst _ rfl
  obtain ⟨hPos, _⟩ := (hSecond _ rfl).number rfl
  exact absurd hPos (by decide)

/-- It grows to its full size, shrinks, and hands out a node. -/
theorem sized_four_calls : system.Along Sized tenNodes [.changeNodeNum 1 opened, .changeNodeNum 1 opened,
    .changeNodeNum 0 opened, .getDbConnect 7 fun _ => ⟨.refused, 0⟩] :=
  (sized_iff tenNodes_start rfl).mpr (by decide +kernel)

end MonitorSystem.PoolSize
