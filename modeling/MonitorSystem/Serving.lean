import Mathlib.Data.Fintype.Option
import MonitorSystem.Lib.Transition
import MonitorSystem.PoolScan

/-! # The workers at the connection pool

do_task calls get_db_connect once and keeps the node for good. The calls of
the workers run at the same time.
-/

namespace MonitorSystem.Serving

open DbPool PoolScan Lib.Transition

/-- A worker before its call, in the loop and after its return; none is NULL. -/
inductive Worker
  | created
  | scanning (start_index i : Nat)
  | returned (node : Option Nat)

structure State where
  pool : SqlConnPool
  worker : Nat → Worker

inductive Act
  | call (w random : Nat)
  | iterate (w : Nat) (trial : Trial)

def State.goto (s : State) (w : Nat) (worker : Worker) : State :=
  { s with worker := Function.update s.worker w worker }

/-- An iteration is one step: all that others can see of it is its trylock. -/
def step (thread_num : Nat) (s : State) : Act → Option State
  | .call w random =>
    match s.worker w with
    | .created =>
      if thread_num ≤ w then none
      else if s.pool.shutdown then some (s.goto w (.returned none))
      else if s.pool.pool_number = 0 then none
      else some (s.goto w (.scanning (random % s.pool.pool_number) 0))
    | _ => none
  | .iterate w trial =>
    match s.worker w with
    | .scanning start_index i =>
      if i < s.pool.pool_number then
        let index := (start_index + i) % s.pool.pool_number
        let r := tryNode s.pool index trial
        some (State.goto { s with pool := r.1 } w
          (if r.2 = true then .returned (some index) else .scanning start_index (i + 1)))
      else some (s.goto w (.returned none))
    | _ => none

def system (sp : SqlConnPool) (thread_num : Nat) : System State Act where
  start s := s = ⟨sp, fun _ => .created⟩
  step := step thread_num

def Answers (_ : State) : Act → Prop
  | .call _ _ => True
  | .iterate _ trial => trial.ping = 0

def Served (sp : SqlConnPool) (thread_num : Nat) : Prop :=
  ∀ s, ReachableUnder (system sp thread_num) Answers s → ∀ w, s.worker w ≠ .returned none

def locked (s : State) (index : Nat) : Bool := (s.pool.sql_pool index).locked

/-- Every locked node is held by one worker, and a scan has passed locked nodes only. -/
structure Inv (n thread_num : Nat) (s : State) : Prop where
  live : s.pool.shutdown = false
  number : s.pool.pool_number = n
  conn : ∀ index < n, (s.pool.sql_pool index).sql_state = .conn
  idle : ∀ w, thread_num ≤ w → s.worker w = .created
  taken : ∀ w index, s.worker w = .returned (some index) → index < n ∧ locked s index = true
  once : ∀ w w' index, s.worker w = .returned (some index) → s.worker w' = .returned (some index) → w = w'
  holder : ∀ index < n, locked s index = true → ∃ w, s.worker w = .returned (some index)
  passed : ∀ w start_index i, s.worker w = .scanning start_index i →
    i ≤ n ∧ ∀ j < i, locked s ((start_index + j) % n) = true
  full : ∀ w, s.worker w = .returned none → ∀ index < n, locked s index = true

section

variable {n thread_num : Nat} {s s' : State}

theorem goto_cases {w other : Nat} {worker result : Worker} (h : (s.goto w worker).worker other = result) :
    (other = w ∧ worker = result) ∨ (other ≠ w ∧ s.worker other = result) := by
  rw [State.goto] at h
  dsimp only at h
  obtain rfl | hNe := eq_or_ne other w
  · rw [Function.update_self] at h
    exact .inl ⟨rfl, h⟩
  · rw [Function.update_of_ne hNe] at h
    exact .inr ⟨hNe, h⟩

theorem Inv.goto (h : Inv n thread_num s) {w : Nat} {worker : Worker} (hIn : w < thread_num)
    (hOld : ∀ index, s.worker w ≠ .returned (some index)) (hNew : ∀ index, worker ≠ .returned (some index))
    (hPassed : ∀ start_index i, worker = .scanning start_index i →
      i ≤ n ∧ ∀ j < i, locked s ((start_index + j) % n) = true)
    (hFull : worker = .returned none → ∀ index < n, locked s index = true) : Inv n thread_num (s.goto w worker) := by
  constructor
  · exact h.live
  · exact h.number
  · exact h.conn
  · intro other hOut
    rw [State.goto]
    exact (Function.update_of_ne (by omega) ..).trans (h.idle other hOut)
  · intro other index hOther
    obtain ⟨_, hSame⟩ | ⟨_, hKept⟩ := goto_cases hOther
    · exact absurd hSame (hNew index)
    · exact h.taken other index hKept
  · intro first second index hFirst hSecond
    obtain ⟨_, hSame⟩ | ⟨_, hFirst⟩ := goto_cases hFirst
    · exact absurd hSame (hNew index)
    · obtain ⟨_, hSame⟩ | ⟨_, hSecond⟩ := goto_cases hSecond
      · exact absurd hSame (hNew index)
      · exact h.once first second index hFirst hSecond
  · intro index hIndex hLocked
    obtain ⟨other, hHolder⟩ := h.holder index hIndex hLocked
    have hNe : other ≠ w := by
      rintro rfl
      exact hOld index hHolder
    exact ⟨other, (Function.update_of_ne hNe ..).trans hHolder⟩
  · intro other start_index i hOther
    obtain ⟨_, hSame⟩ | ⟨_, hKept⟩ := goto_cases hOther
    · exact hPassed start_index i hSame
    · exact h.passed other start_index i hKept
  · intro other hOther
    obtain ⟨_, hSame⟩ | ⟨_, hKept⟩ := goto_cases hOther
    · exact hFull hSame
    · exact h.full other hKept

def taking (sp : SqlConnPool) (index : Nat) : SqlConnPool :=
  { sp.set index { sp.sql_pool index with locked := true, used := 1 } with busy_number := sp.busy_number + 1 }

theorem locked_taking (s : State) (index other : Nat) :
    locked { s with pool := taking s.pool index } other = true ↔ other = index ∨ locked s other = true := by
  rw [locked, taking]
  obtain rfl | hNe := eq_or_ne other index
  · exact iff_of_true (congrArg SqlNode.locked (set_self ..)) (.inl rfl)
  · exact (Bool.eq_iff_iff.mp (congrArg SqlNode.locked (set_of_ne hNe ..))).trans (or_iff_right hNe).symm

theorem Inv.take (h : Inv n thread_num s) {w index : Nat} (hIn : w < thread_num)
    (hOld : ∀ index, s.worker w ≠ .returned (some index)) (hIndex : index < n) (hFree : locked s index = false) :
    Inv n thread_num (State.goto { s with pool := taking s.pool index } w (.returned (some index))) := by
  have hMore {other : Nat} (hLocked : locked s other = true) :
      locked { s with pool := taking s.pool index } other = true :=
    (locked_taking s index other).mpr (.inr hLocked)
  have hNobody (other : Nat) : s.worker other ≠ .returned (some index) := by
    intro hOther
    rw [(h.taken other index hOther).2] at hFree
    cases hFree
  constructor
  · exact h.live
  · exact h.number
  · intro other hOther
    obtain rfl | hNe := eq_or_ne other index
    · exact (congrArg SqlNode.sql_state (set_self ..)).trans (h.conn other hOther)
    · exact (congrArg SqlNode.sql_state (set_of_ne hNe ..)).trans (h.conn other hOther)
  · intro other hOut
    rw [State.goto]
    exact (Function.update_of_ne (by omega) ..).trans (h.idle other hOut)
  · intro other index' hOther
    obtain ⟨_, hSame⟩ | ⟨_, hKept⟩ := goto_cases hOther
    · cases hSame
      exact ⟨hIndex, (locked_taking s index index).mpr (.inl rfl)⟩
    · obtain ⟨hLt, hLocked⟩ := h.taken other index' hKept
      exact ⟨hLt, hMore hLocked⟩
  · intro first second index' hFirst hSecond
    obtain ⟨hFirstW, hSame⟩ | ⟨_, hFirstOld⟩ := goto_cases hFirst
    · cases hSame
      obtain ⟨hSecondW, _⟩ | ⟨_, hSecondOld⟩ := goto_cases hSecond
      · exact hFirstW.trans hSecondW.symm
      · exact absurd hSecondOld (hNobody second)
    · obtain ⟨_, hSame⟩ | ⟨_, hSecondOld⟩ := goto_cases hSecond
      · cases hSame
        exact absurd hFirstOld (hNobody first)
      · exact h.once first second index' hFirstOld hSecondOld
  · intro other hOther hLocked
    obtain rfl | hLocked := (locked_taking s index other).mp hLocked
    · exact ⟨w, Function.update_self ..⟩
    · obtain ⟨v, hHolder⟩ := h.holder other hOther hLocked
      have hNe : v ≠ w := by
        rintro rfl
        exact hOld other hHolder
      exact ⟨v, (Function.update_of_ne hNe ..).trans hHolder⟩
  · intro other start_index i hOther
    obtain ⟨_, hSame⟩ | ⟨_, hKept⟩ := goto_cases hOther
    · cases hSame
    · obtain ⟨hLe, hPassed⟩ := h.passed other start_index i hKept
      exact ⟨hLe, fun j hj => hMore (hPassed j hj)⟩
  · intro other hOther index' hIndex'
    obtain ⟨_, hSame⟩ | ⟨_, hKept⟩ := goto_cases hOther
    · cases hSame
    · exact hMore (h.full other hKept index' hIndex')

theorem Inv.lt_of_scanning (h : Inv n thread_num s) {w start_index i : Nat} (hScan : s.worker w = .scanning start_index i) :
    w < thread_num := by
  by_contra hOut
  rw [h.idle w (Nat.not_lt.mp hOut)] at hScan
  cases hScan

theorem inv_call {w random : Nat} (h : Inv n thread_num s) (hStep : step thread_num s (.call w random) = some s') :
    Inv n thread_num s' := by
  rw [step] at hStep
  split at hStep
  · rename_i hCreated
    obtain ⟨hIn, hStep⟩ := Option.ite_none_left_eq_some.mp hStep
    rw [if_neg (by simp [h.live])] at hStep
    obtain ⟨_, hStep⟩ := Option.ite_none_left_eq_some.mp hStep
    cases hStep
    refine h.goto (Nat.not_le.mp hIn) (by simp [hCreated]) (by simp) ?_ (by simp)
    intro start_index i hSame
    cases hSame
    exact ⟨Nat.zero_le n, fun j hj => absurd hj (Nat.not_lt_zero j)⟩
  · cases hStep

theorem inv_iterate {w : Nat} {trial : Trial} (h : Inv n thread_num s) (hPing : trial.ping = 0)
    (hStep : step thread_num s (.iterate w trial) = some s') : Inv n thread_num s' := by
  rw [step] at hStep
  split at hStep
  · rename_i start_index i hScan
    have hIn := h.lt_of_scanning hScan
    obtain ⟨hLe, hPassed⟩ := h.passed w start_index i hScan
    rw [h.number] at hStep
    split at hStep
    · rename_i hLt
      have hIndex : (start_index + i) % n < n := Nat.mod_lt _ (Nat.zero_lt_of_lt hLt)
      dsimp only at hStep
      cases hLocked : locked s ((start_index + i) % n) with
      | true =>
        rw [tryNode_locked hLocked] at hStep
        cases hStep
        refine h.goto hIn (by simp [hScan]) (by simp) ?_ (by simp)
        intro start_index' i' hSame
        cases hSame
        refine ⟨hLt, fun j hj => ?_⟩
        obtain rfl | hBefore := Nat.eq_or_lt_of_le (Nat.le_of_lt_succ hj)
        · exact hLocked
        · exact hPassed j hBefore
      | false =>
        rw [tryNode_answers hLocked (h.conn _ hIndex) hPing] at hStep
        cases hStep
        exact h.take hIn (by simp [hScan]) hIndex hLocked
    · rename_i hEnd
      cases hStep
      refine h.goto hIn (by simp [hScan]) (by simp) (by simp) ?_
      intro _ index hIndex
      obtain ⟨j, hj, rfl⟩ := List.mem_map.mp (mem_order_iff.mpr hIndex : index ∈ order n start_index)
      exact hPassed j (Nat.lt_of_lt_of_le (List.mem_range.mp hj) (Nat.not_lt.mp hEnd))
  · cases hStep

theorem inv_step {a : Act} (h : Inv n thread_num s) (hAnswers : Answers s a) (hStep : step thread_num s a = some s') :
    Inv n thread_num s' := by
  cases a with
  | call w random => exact inv_call h hStep
  | iterate w trial => exact inv_iterate h hAnswers hStep

theorem Inv.lt_threads (h : Inv n thread_num s) {w : Nat} (hNull : s.worker w = .returned none) : n < thread_num := by
  have hWorker : ∀ node : Option (Fin n), ∃ v, s.worker v = .returned (node.map Fin.val) := by
    intro node
    cases node with
    | none => exact ⟨w, hNull⟩
    | some index => exact h.holder index index.isLt (h.full w hNull index index.isLt)
  choose v hReturned using hWorker
  have hIn (node : Option (Fin n)) : v node < thread_num := by
    by_contra hOut
    have hCreated := h.idle (v node) (Nat.not_lt.mp hOut)
    rw [hReturned] at hCreated
    cases hCreated
  have hInjective : Function.Injective fun node => (⟨v node, hIn node⟩ : Fin thread_num) := by
    intro first second hSame
    have hWorkers := congrArg s.worker (Fin.mk.inj hSame)
    rw [hReturned, hReturned] at hWorkers
    exact Option.map_injective Fin.val_injective (Worker.returned.inj hWorkers)
  have hCard := Fintype.card_le_of_injective _ hInjective
  rw [Fintype.card_option, Fintype.card_fin, Fintype.card_fin] at hCard
  exact hCard

theorem Inv.exists_null (h : Inv n thread_num s) (hMany : n < thread_num)
    (hAll : ∀ w < thread_num, ∃ node, s.worker w = .returned node) : ∃ w, s.worker w = .returned none := by
  by_contra hNone
  have hNode : ∀ w : Fin thread_num, ∃ index : Fin n, s.worker w = .returned (some index.val) := by
    intro w
    obtain ⟨node, hReturned⟩ := hAll w w.isLt
    cases node with
    | none => exact absurd ⟨w.val, hReturned⟩ hNone
    | some index => exact ⟨⟨index, (h.taken w index hReturned).1⟩, hReturned⟩
  choose index hReturned using hNode
  have hInjective : Function.Injective index := by
    intro first second hSame
    exact Fin.ext (h.once first second (index second) (hSame ▸ hReturned first) (hReturned second))
  have hCard := Fintype.card_le_of_injective index hInjective
  rw [Fintype.card_fin, Fintype.card_fin] at hCard
  exact absurd hMany (Nat.not_lt.mpr hCard)

end

section runs

variable {sp : SqlConnPool} {thread_num : Nat} {s : State}

/-- A pool whose nodes are connected and free. -/
structure Ready (sp : SqlConnPool) : Prop where
  live : sp.shutdown = false
  size : 0 < sp.pool_number
  fresh : ∀ index < sp.pool_number, Fresh (sp.sql_pool index)

theorem inv_of_reachable (hReady : Ready sp) (h : ReachableUnder (system sp thread_num) Answers s) :
    Inv sp.pool_number thread_num s := by
  apply h.invariant
  · rintro _ rfl
    constructor
    · exact hReady.live
    · rfl
    · exact fun index hIndex => (hReady.fresh index hIndex).conn
    · exact fun _ _ => rfl
    · intro w index hReturned
      cases hReturned
    · intro w w' index hReturned
      cases hReturned
    · intro index hIndex hLocked
      rw [locked, (hReady.fresh index hIndex).free] at hLocked
      cases hLocked
    · intro w start_index i hScan
      cases hScan
    · intro w hReturned
      cases hReturned
  · intro s a s' hInv hAnswers hStep
    exact inv_step hInv hAnswers hStep

theorem scan_returns {w start_index i k : Nat} (hReady : Ready sp) (h : ReachableUnder (system sp thread_num) Answers s)
    (hScan : s.worker w = .scanning start_index i) (hLeft : sp.pool_number - i ≤ k) :
    ∃ s', ReachableUnder (system sp thread_num) Answers s' ∧ (∃ node, s'.worker w = .returned node) ∧
      ∀ other ≠ w, s'.worker other = s.worker other := by
  have hOthers (s : State) (worker : Worker) : ∀ other ≠ w, (s.goto w worker).worker other = s.worker other :=
    fun _ hNe => Function.update_of_ne hNe ..
  have hSelf (s : State) (worker : Worker) : (s.goto w worker).worker w = worker := Function.update_self ..
  have hAnswers (s : State) : Answers s (.iterate w ⟨.refused, 0⟩) := rfl
  induction k generalizing s i with
  | zero =>
    have hNumber := (inv_of_reachable hReady h).number
    have hStep : step thread_num s (.iterate w ⟨.refused, 0⟩) = some (s.goto w (.returned none)) := by
      rw [step, hScan]
      exact if_neg (by omega)
    exact ⟨_, .step h (hAnswers s) hStep, ⟨none, hSelf ..⟩, hOthers _ _⟩
  | succ k ih =>
    have hNumber := (inv_of_reachable hReady h).number
    by_cases hLt : i < s.pool.pool_number
    · let index := (start_index + i) % s.pool.pool_number
      let r := tryNode s.pool index ⟨.refused, 0⟩
      have hStep : step thread_num s (.iterate w ⟨.refused, 0⟩) = some (State.goto { s with pool := r.1 } w
          (if r.2 = true then .returned (some index) else .scanning start_index (i + 1))) := by
        rw [step, hScan]
        exact if_pos hLt
      have hNext := h.step (hAnswers s) hStep
      cases hFound : r.2 with
      | true =>
        rw [hFound, if_pos rfl] at hNext
        exact ⟨_, hNext, ⟨some index, hSelf ..⟩, hOthers _ _⟩
      | false =>
        rw [hFound, if_neg Bool.false_ne_true] at hNext
        obtain ⟨s', hReach, hReturned, hRest⟩ := ih hNext (hSelf ..) (by omega)
        exact ⟨s', hReach, hReturned, fun other hNe => (hRest other hNe).trans (hOthers _ _ other hNe)⟩
    · have hStep : step thread_num s (.iterate w ⟨.refused, 0⟩) = some (s.goto w (.returned none)) := by
        rw [step, hScan]
        exact if_neg hLt
      exact ⟨_, .step h (hAnswers s) hStep, ⟨none, hSelf ..⟩, hOthers _ _⟩

theorem all_return (hReady : Ready sp) {count : Nat} (hCount : count ≤ thread_num) :
    ∃ s, ReachableUnder (system sp thread_num) Answers s ∧ (∀ w < count, ∃ node, s.worker w = .returned node) ∧
      ∀ w, count ≤ w → s.worker w = .created := by
  induction count with
  | zero => exact ⟨_, .start rfl, fun w hw => absurd hw (Nat.not_lt_zero w), fun _ _ => rfl⟩
  | succ count ih =>
    obtain ⟨s, hReach, hBefore, hAfter⟩ := ih (Nat.le_of_succ_le hCount)
    have hInv := inv_of_reachable hReady hReach
    have hStep : step thread_num s (.call count 0) = some (s.goto count (.scanning (0 % s.pool.pool_number) 0)) := by
      have hSize : s.pool.pool_number ≠ 0 := by
        rw [hInv.number]
        exact Nat.ne_of_gt hReady.size
      rw [step, hAfter count (Nat.le_refl count)]
      dsimp only
      rw [if_neg (Nat.not_le.mpr hCount), if_neg (by simp [hInv.live]), if_neg hSize]
    obtain ⟨s', hReach', hReturned, hOthers⟩ :=
      scan_returns hReady (hReach.step (a := .call count 0) trivial hStep) (Function.update_self ..) (Nat.le_refl _)
    have hSame (w : Nat) (hNe : w ≠ count) : s'.worker w = s.worker w :=
      (hOthers w hNe).trans (Function.update_of_ne hNe ..)
    refine ⟨s', hReach', ?_, ?_⟩
    · intro w hw
      obtain rfl | hLt := Nat.eq_or_lt_of_le (Nat.le_of_lt_succ hw)
      · exact hReturned
      · rw [hSame w (Nat.ne_of_lt hLt)]
        exact hBefore w hLt
    · intro w hw
      rw [hSame w (Nat.ne_of_gt hw)]
      exact hAfter w (Nat.le_of_succ_le hw)

theorem served_iff (hReady : Ready sp) : Served sp thread_num ↔ thread_num ≤ sp.pool_number := by
  constructor
  · intro hServed
    by_contra hMany
    obtain ⟨s, hReach, hAll, _⟩ := all_return hReady (Nat.le_refl thread_num)
    obtain ⟨w, hNull⟩ := (inv_of_reachable hReady hReach).exists_null (Nat.not_le.mp hMany) hAll
    exact hServed s hReach w hNull
  · intro hFew s hReach w hNull
    exact absurd ((inv_of_reachable hReady hReach).lt_threads hNull) (Nat.not_lt.mpr hFew)

end runs

end MonitorSystem.Serving
