import MonitorSystem.DbPool
import MonitorSystem.Lib.Lease

/-! # Threads that share the connection pool

Every statement of the pool's functions that touches shared memory is a step of
its own. A thread that divides by zero, leaves the array or pings a NULL
connection takes no further step.
-/

namespace MonitorSystem.PoolThreads

open DbPool Lib.Transition Lib.Lease

structure Memory where
  shutdown : Bool
  sql_pool : Nat → SqlNode
  pool_number : Int
  busy_number : Int

/-- What the library calls of a statement return. -/
structure Env where
  random : Nat
  connect : Connect
  ping : Int

/-- The statements of create_db_connect. -/
inductive Create
  | guard
  | initLock
  | connect
  | refuse
  | unuse
  | connected

inductive Release
  | used
  | busy
  | unlock

/-- The statements with which changeNodeNum and sql_pool_destroy take a node out of the pool. -/
inductive Close
  | look
  | close
  | null
  | state
  | number

/-- The variables of get_db_connect. -/
structure Scan where
  start_index : Nat
  i : Nat
  index : Nat

/-- Where a thread is. The flag of finish is no variable of the code: it tells
whether the loop was left by break. -/
inductive Pc
  | idle
  | start
  | choose
  | test (v : Scan)
  | pick (v : Scan)
  | lock (v : Scan)
  | state (v : Scan)
  | create (v : Scan) (c : Create)
  | ping (v : Scan)
  | mark (v : Scan)
  | giveBack (v : Scan) (r : Release)
  | take (v : Scan)
  | count (v : Scan)
  | finish (v : Scan) (found : Bool)
  | release (index : Nat) (r : Release)
  | growEnd
  | growFrom (endindex : Int)
  | grow (index endindex : Int)
  | growCreate (index endindex : Int) (c : Create)
  | growIndex (index endindex : Int)
  | growNumber (index endindex : Int)
  | shrinkEnd
  | shrinkFrom (endindex : Int)
  | shrink (index endindex : Int)
  | shrinkClose (index endindex : Int) (c : Close)
  | shutdown
  | destroy (index : Int)
  | destroyClose (index : Int) (c : Close)

def Memory.set (m : Memory) (index : Nat) (node : SqlNode) : Memory :=
  { m with sql_pool := Function.update m.sql_pool index node }

/-- A statement of create_db_connect, and the next one or the result. -/
def createStep (m : Memory) (index : Nat) (connect : Connect) : Create → Memory × (Create ⊕ Int)
  | .guard => (m, if m.shutdown then .inr (-1) else .inl .initLock)
  | .initLock => (m.set index { m.sql_pool index with locked := false }, .inl .connect)
  | .connect =>
    match connect with
    | .noInit => (m, .inr (-1))
    | .refused => (m.set index { m.sql_pool index with mysql_sock := none }, .inl .refuse)
    | .connected sock => (m.set index { m.sql_pool index with mysql_sock := some sock }, .inl .unuse)
  | .refuse => (m.set index { m.sql_pool index with sql_state := .disconn }, .inr 1)
  | .unuse => (m.set index { m.sql_pool index with used := 0 }, .inl .connected)
  | .connected => (m.set index { m.sql_pool index with sql_state := .conn }, .inr 0)

def releaseStep (m : Memory) (index : Nat) : Release → Memory × Option Release
  | .used => (m.set index { m.sql_pool index with used := 0 }, some .busy)
  | .busy => ({ m with busy_number := m.busy_number - 1 }, some .unlock)
  | .unlock => (m.set index { m.sql_pool index with locked := false }, none)

def closeStep (m : Memory) (index : Nat) : Close → Memory × Option Close
  | .look => (m, some (if (m.sql_pool index).mysql_sock = none then .state else .close))
  | .close => (m, some .null)
  | .null => (m.set index { m.sql_pool index with mysql_sock := none }, some .state)
  | .state => (m.set index { m.sql_pool index with sql_state := .disconn }, some .number)
  | .number => ({ m with pool_number := m.pool_number - 1 }, none)

def num : Int := 5

/-- The next statement of a thread other than the return of get_db_connect. -/
def exec (m : Memory) (e : Env) : Pc → Option (Memory × Pc)
  | .idle | .finish _ _ => none
  | .start => some (m, if m.shutdown then .idle else .choose)
  | .choose => if m.pool_number = 0 then none else some (m, .test ⟨(e.random % m.pool_number).toNat, 0, 0⟩)
  | .test v => some (m, if v.i < m.pool_number then .pick v else .finish v false)
  | .pick v =>
    if m.pool_number = 0 then none
    else some (m, .lock { v with index := ((v.start_index + v.i : Int) % m.pool_number).toNat })
  | .lock v =>
    if poolMaxNumber ≤ v.index then none
    else if (m.sql_pool v.index).locked then some (m, .test { v with i := v.i + 1 })
    else some (m.set v.index { m.sql_pool v.index with locked := true }, .state v)
  | .state v => some (m, if (m.sql_pool v.index).sql_state = .disconn then .create v .guard else .ping v)
  | .create v c =>
    let r := createStep m v.index e.connect c
    some (r.1, match r.2 with
      | .inl c => .create v c
      | .inr res => if res ≠ 0 then .giveBack v .used else .ping v)
  | .ping v =>
    if (m.sql_pool v.index).mysql_sock = none then none
    else some (m, if e.ping ≠ 0 then .mark v else .take v)
  | .mark v => some (m.set v.index { m.sql_pool v.index with sql_state := .disconn }, .giveBack v .used)
  | .giveBack v r =>
    let r := releaseStep m v.index r
    some (r.1, match r.2 with
      | some r => .giveBack v r
      | none => .test { v with i := v.i + 1 })
  | .take v => some (m.set v.index { m.sql_pool v.index with used := 1 }, .count v)
  | .count v => some ({ m with busy_number := m.busy_number + 1 }, .finish v true)
  | .release index r =>
    let r := releaseStep m index r
    some (r.1, match r.2 with
      | some r => .release index r
      | none => .idle)
  | .growEnd => some (m, .growFrom (m.pool_number + num))
  | .growFrom endindex => some (m, .grow m.pool_number endindex)
  | .grow index endindex => some (m, if index < endindex then .growCreate index endindex .guard else .idle)
  | .growCreate index endindex c =>
    if index < 0 ∨ poolMaxNumber ≤ index then none
    else
      let r := createStep m index.toNat e.connect c
      some (r.1, match r.2 with
        | .inl c => .growCreate index endindex c
        | .inr res => if res ≠ 0 then .shutdown else .growIndex index endindex)
  | .growIndex index endindex =>
    some (m.set index.toNat { m.sql_pool index.toNat with index := index.toNat }, .growNumber index endindex)
  | .growNumber index endindex => some ({ m with pool_number := m.pool_number + 1 }, .grow (index + 1) endindex)
  | .shrinkEnd => some (m, .shrinkFrom (m.pool_number - num - 1))
  | .shrinkFrom endindex => some (m, .shrink (m.pool_number - 1) endindex)
  | .shrink index endindex =>
    some (m, if endindex < index ∧ 0 ≤ index then .shrinkClose index endindex .look else .idle)
  | .shrinkClose index endindex c =>
    if poolMaxNumber ≤ index then none
    else
      let r := closeStep m index.toNat c
      some (r.1, match r.2 with
        | some c => .shrinkClose index endindex c
        | none => .shrink (index - 1) endindex)
  | .shutdown => some ({ m with shutdown := true }, .destroy 0)
  | .destroy index => some (m, if index < m.pool_number then .destroyClose index .look else .idle)
  | .destroyClose index c =>
    if poolMaxNumber ≤ index then none
    else
      let r := closeStep m index.toNat c
      some (r.1, match r.2 with
        | some c => .destroyClose index c
        | none => .destroy (index + 1))

/-- The pool, the place of every thread, who was handed which node, and the
owners whose connection another thread has closed or replaced. -/
structure State where
  memory : Memory
  pc : Nat → Pc
  owned : List (Nat × Nat)
  robbed : List (Nat × Nat)

inductive Call
  | getDbConnect
  | releaseNode (index : Nat)
  | changeNodeNum (op : Int)

inductive Act
  | call (t : Nat) (c : Call)
  | run (t : Nat) (e : Env)

def State.goto (s : State) (t : Nat) (pc : Pc) : State := { s with pc := Function.update s.pc t pc }

/-- The node whose connection the next statement closes or replaces outside get_db_connect. -/
def Pc.clobbers : Pc → Option Nat
  | .growCreate index _ .connect | .shrinkClose index _ .close | .destroyClose index .close => some index.toNat
  | _ => none

def others (s : State) (t index : Nat) : List (Nat × Nat) := s.owned.filter fun o => o.2 = index ∧ o.1 ≠ t

def step (s : State) : Act → Option State
  | .call t c =>
    match s.pc t, c with
    | .idle, .getDbConnect => some (s.goto t .start)
    | .idle, .releaseNode index =>
      if (t, index) ∈ s.owned then
        some { s.goto t (.release index .used) with owned := s.owned.erase (t, index) }
      else none
    | .idle, .changeNodeNum op =>
      some (s.goto t (if op = 1 then .growEnd else if op = 0 then .shrinkEnd else .idle))
    | _, _ => none
  | .run t e =>
    match s.pc t with
    | .finish v _ =>
      some (if v.i = s.memory.pool_number then s.goto t .idle
        else { s.goto t .idle with owned := (t, v.index) :: s.owned })
    | pc => (exec s.memory e pc).map fun r =>
      { s.goto t r.2 with
        memory := r.1
        robbed := s.robbed ++ (pc.clobbers.toList.flatMap (others s t)) }

def initial (sp : SqlConnPool) : State :=
  ⟨⟨sp.shutdown, sp.sql_pool, sp.pool_number, sp.busy_number⟩, fun _ => .idle, [], []⟩

/-- The runs that begin when sql_pool_create has returned a pool. -/
def system : System State Act where
  start s := ∃ memory connect_pool_number connect sp,
    (sqlPoolCreate memory connect_pool_number connect).1 = some sp ∧ s = initial sp
  step := step

/-- No node is handed out twice, and no owner has lost its connection to another thread. -/
structure Exclusive (s : State) : Prop where
  once : (s.owned.map Prod.snd).Nodup
  kept : s.robbed = []

def Memory.locks (m : Memory) (index : Nat) : Bool := (m.sql_pool index).locked

/-- get_db_connect does not initialise the mutex it holds, and finds i equal to
pool_number where its loop has found no node; the other functions initialise,
replace and close only where the mutex is free. -/
def Harmless (m : Memory) : Pc → Prop
  | .create _ .initLock => False
  | .finish v false => v.i = m.pool_number
  | .growCreate index _ .initLock | .growCreate index _ .connect => m.locks index.toNat = false
  | .shrinkClose index _ .close | .destroyClose index .close => m.locks index.toNat = false
  | _ => True

def Careful (s : State) : Act → Prop
  | .call _ _ => True
  | .run t _ => Harmless s.memory (s.pc t)

def holds : Pc → Option Nat
  | .state v | .create v _ | .ping v | .mark v | .giveBack v _ | .take v | .count v | .finish v true => some v.index
  | .release index _ => some index
  | _ => none

def view (s : State) : Leases Nat Nat := ⟨s.memory.locks, fun t => holds (s.pc t), s.owned⟩

theorem locks_set (m : Memory) (index : Nat) (node : SqlNode) :
    (m.set index node).locks = Function.update m.locks index node.locked := by
  funext other
  obtain rfl | hNe := eq_or_ne other index
  · simp [Memory.locks, Memory.set]
  · simp [Memory.locks, Memory.set, Function.update_of_ne hNe]

theorem locks_keep {m : Memory} {index : Nat} {node : SqlNode} (h : node.locked = (m.sql_pool index).locked) :
    (m.set index node).locks = m.locks := by
  rw [locks_set, h]
  exact Function.update_eq_self index m.locks

theorem locks_createStep {c : Create} (h : c ≠ .initLock) (m : Memory) (index : Nat) (connect : Connect) :
    (createStep m index connect c).1.locks = m.locks := by
  cases c with
  | guard => rfl
  | initLock => exact absurd rfl h
  | connect =>
    cases connect with
    | noInit => rfl
    | refused | connected => exact locks_keep rfl
  | refuse | unuse | connected => exact locks_keep rfl

theorem locks_closeStep (m : Memory) (index : Nat) (c : Close) : (closeStep m index c).1.locks = m.locks := by
  cases c with
  | look | close | number => rfl
  | null | state => exact locks_keep rfl

/-- The locks stay, or the thread locks a free node, or it unlocks its node. -/
inductive LockEffect (m m' : Memory) (pc pc' : Pc) : Prop
  | stay (hLocks : m'.locks = m.locks) (hHolds : holds pc' = holds pc)
  | lock (k : Nat) (hFree : m.locks k = false) (hLocks : m'.locks = Function.update m.locks k true)
      (hHolds : holds pc' = some k)
  | unlock (k : Nat) (hHeld : holds pc = some k) (hLocks : m'.locks = Function.update m.locks k false)
      (hHolds : holds pc' = none)

theorem exec_effect {m m' : Memory} {e : Env} {pc pc' : Pc} (h : exec m e pc = some (m', pc'))
    (hHarmless : Harmless m pc) : LockEffect m m' pc pc' := by
  cases pc with
  | idle => cases h
  | finish v found => cases h
  | start =>
    cases h
    refine .stay rfl ?_
    split <;> rfl
  | choose =>
    obtain ⟨_, hEq⟩ := Option.ite_none_left_eq_some.mp h
    cases hEq
    exact .stay rfl rfl
  | test v =>
    cases h
    refine .stay rfl ?_
    split <;> rfl
  | pick v =>
    obtain ⟨_, hEq⟩ := Option.ite_none_left_eq_some.mp h
    cases hEq
    exact .stay rfl rfl
  | lock v =>
    obtain ⟨_, hEq⟩ := Option.ite_none_left_eq_some.mp h
    split at hEq
    · cases hEq
      exact .stay rfl rfl
    · rename_i hFree
      cases hEq
      exact .lock v.index (eq_false_of_ne_true hFree) (locks_set ..) rfl
  | state v =>
    cases h
    refine .stay rfl ?_
    split <;> rfl
  | create v c =>
    cases h
    have hNot : c ≠ .initLock := by
      rintro rfl
      exact hHarmless
    refine .stay (locks_createStep hNot ..) ?_
    split
    · rfl
    · split <;> rfl
  | ping v =>
    obtain ⟨_, hEq⟩ := Option.ite_none_left_eq_some.mp h
    cases hEq
    refine .stay rfl ?_
    split <;> rfl
  | mark v =>
    cases h
    exact .stay (locks_keep rfl) rfl
  | giveBack v r =>
    cases h
    cases r with
    | used => exact .stay (locks_keep rfl) rfl
    | busy => exact .stay rfl rfl
    | unlock => exact .unlock v.index rfl (locks_set ..) rfl
  | take v =>
    cases h
    exact .stay (locks_keep rfl) rfl
  | count v =>
    cases h
    exact .stay rfl rfl
  | release index r =>
    cases h
    cases r with
    | used => exact .stay (locks_keep rfl) rfl
    | busy => exact .stay rfl rfl
    | unlock => exact .unlock index rfl (locks_set ..) rfl
  | growEnd | growFrom | shrinkEnd | shrinkFrom | shutdown | growNumber =>
    cases h
    exact .stay rfl rfl
  | growIndex index endindex =>
    cases h
    exact .stay (locks_keep rfl) rfl
  | grow | shrink | destroy =>
    cases h
    refine .stay rfl ?_
    split <;> rfl
  | growCreate index endindex c =>
    obtain ⟨_, hEq⟩ := Option.ite_none_left_eq_some.mp h
    cases hEq
    by_cases hInitLock : c = .initLock
    · subst hInitLock
      have hFree : m.locks index.toNat = false := hHarmless
      refine .stay ?_ rfl
      exact locks_keep hFree.symm
    · refine .stay (locks_createStep hInitLock ..) ?_
      split
      · rfl
      · split <;> rfl
  | shrinkClose index endindex c =>
    obtain ⟨_, hEq⟩ := Option.ite_none_left_eq_some.mp h
    cases hEq
    refine .stay (locks_closeStep ..) ?_
    split <;> rfl
  | destroyClose index c =>
    obtain ⟨_, hEq⟩ := Option.ite_none_left_eq_some.mp h
    cases hEq
    refine .stay (locks_closeStep ..) ?_
    split <;> rfl

theorem held_goto (pc : Nat → Pc) (t : Nat) (next : Pc) :
    (fun u => holds (Function.update pc t next u)) = Function.update (fun u => holds (pc u)) t (holds next) :=
  Function.comp_update holds pc t next

theorem view_move (s : State) (t : Nat) (next : Pc) (m : Memory) (owned robbed : List (Nat × Nat)) :
    view ⟨m, Function.update s.pc t next, owned, robbed⟩ =
      ⟨m.locks, Function.update (view s).held t (holds next), owned⟩ := by
  rw [view, held_goto]
  rfl

theorem view_exec {s : State} {t : Nat} {m : Memory} {next : Pc} (h : LockEffect s.memory m (s.pc t) next)
    (robbed : List (Nat × Nat)) : Step (view s) (view ⟨m, Function.update s.pc t next, s.owned, robbed⟩) := by
  rw [view_move]
  cases h with
  | stay hLocks hHolds =>
    have hSame : Function.update (view s).held t (holds next) = (view s).held := by
      rw [hHolds]
      exact Function.update_eq_self t (view s).held
    rw [hSame, hLocks]
    exact .stay
  | lock k hFree hLocks hHolds =>
    rw [hHolds, hLocks]
    exact .lock hFree
  | unlock k hHeld hLocks hHolds =>
    rw [hHolds, hLocks]
    exact .unlock hHeld

theorem view_call {s s' : State} {t : Nat} {c : Call} (hStep : step s (.call t c) = some s') :
    Step (view s) (view s') ∧ s'.robbed = s.robbed := by
  unfold step at hStep
  dsimp only at hStep
  cases hPc : s.pc t with
  | idle =>
    have hIdle : (view s).held t = none := congrArg holds hPc
    have hStay : ∀ next, holds next = none → Step (view s) (view (s.goto t next)) := by
      intro next hNext
      rw [State.goto, view_move, hNext, ← hIdle, Function.update_eq_self]
      exact .stay
    rw [hPc] at hStep
    cases c with
    | getDbConnect =>
      cases hStep
      exact ⟨hStay .start rfl, rfl⟩
    | releaseNode index =>
      obtain ⟨hOwned, hEq⟩ := Option.ite_none_right_eq_some.mp hStep
      cases hEq
      refine ⟨?_, rfl⟩
      rw [State.goto, view_move]
      exact .takeBack hOwned
    | changeNodeNum op =>
      cases hStep
      refine ⟨hStay _ ?_, rfl⟩
      split
      · rfl
      · split <;> rfl
  | _ => simp [hPc] at hStep

theorem Harmless.clobbers {m : Memory} {pc : Pc} (h : Harmless m pc) {index : Nat}
    (hClobbers : pc.clobbers = some index) : m.locks index = false := by
  cases pc with
  | growCreate _ _ c | shrinkClose _ _ c | destroyClose _ c =>
    cases c <;> cases hClobbers
    exact h
  | _ => cases hClobbers

theorem view_run {s s' : State} {t : Nat} {e : Env} (hCareful : Careful s (.run t e))
    (hStep : step s (.run t e) = some s') :
    Step (view s) (view s') ∧ ∃ taken : List Nat, (∀ index ∈ taken, s.memory.locks index = false) ∧
      s'.robbed = s.robbed ++ taken.flatMap (others s t) := by
  unfold step at hStep
  dsimp only at hStep
  split at hStep
  · rename_i v found hPc
    cases hStep
    split
    · refine ⟨?_, [], by simp, by simp [State.goto]⟩
      rw [State.goto, view_move]
      exact .forget
    · rename_i hNode
      refine ⟨?_, [], by simp, by simp [State.goto]⟩
      rw [State.goto, view_move]
      cases found with
      | true => exact .lend (congrArg holds hPc)
      | false =>
        have hEnd : Harmless s.memory (.finish v false) := hPc ▸ hCareful
        exact absurd hEnd hNode
  · obtain ⟨⟨m, next⟩, hExec, hEq⟩ := Option.map_eq_some_iff.mp hStep
    cases hEq
    refine ⟨view_exec (exec_effect hExec hCareful) _, (s.pc t).clobbers.toList, ?_, rfl⟩
    intro index hIndex
    exact Harmless.clobbers hCareful (Option.mem_toList.mp hIndex)

structure Inv (s : State) : Prop where
  leases : Lib.Lease.Exclusive (view s)
  kept : s.robbed = []

theorem others_of_unlent {s : State} {index : Nat} (h : index ∉ s.owned.map Prod.snd) (t : Nat) :
    others s t index = [] := by
  rw [others, List.filter_eq_nil_iff]
  rintro o hOwned hOther
  have hIndex : o.2 = index := (of_decide_eq_true hOther).1
  exact h (hIndex ▸ List.mem_map_of_mem hOwned)

theorem inv_step {s s' : State} {a : Act} (h : Inv s) (hCareful : Careful s a) (hStep : step s a = some s') :
    Inv s' := by
  cases a with
  | call t c =>
    obtain ⟨hView, hRobbed⟩ := view_call hStep
    exact ⟨h.leases.step hView, hRobbed.trans h.kept⟩
  | run t e =>
    obtain ⟨hView, taken, hFree, hRobbed⟩ := view_run hCareful hStep
    refine ⟨h.leases.step hView, ?_⟩
    have hNobody : taken.flatMap (others s t) = [] := by
      rw [List.flatMap_eq_nil_iff]
      intro index hTaken
      exact others_of_unlent (h.leases.unlent (hFree index hTaken)) t
    rw [hRobbed, h.kept, hNobody]
    rfl

/-- Nodes are owned exclusively in every state reached by careful steps. -/
theorem exclusive_of_careful {s : State} (h : ReachableUnder system Careful s) : Exclusive s := by
  have hInv : Inv s := by
    apply h.invariant
    · rintro _ ⟨memory, connect_pool_number, connect, sp, _, rfl⟩
      exact ⟨exclusive_start _, rfl⟩
    · intro s a s' hInv hCareful hStep
      exact inv_step hInv hCareful hStep
  exact ⟨hInv.leases.lent_once, hInv.kept⟩

def Env.alive : Env := ⟨0, .connected 20, 0⟩

def Env.down : Env := ⟨0, .refused, 1⟩

def gets (t : Nat) (e : Env) (count : Nat) : List Act := .call t .getDbConnect :: List.replicate count (.run t e)

def single : Option SqlConnPool := (sqlPoolCreate (some fun _ => blank) 1 opened).1

theorem start_single {sp : SqlConnPool} (h : single = some sp) : system.start (initial sp) :=
  ⟨_, _, _, sp, h, rfl⟩

/-- The connection is lost, the next call reconnects and with it frees the
mutex, and another thread is handed the same node. -/
theorem handed_out_twice : ¬ ∀ s, Reachable system s → Exclusive s := by
  intro hAll
  have hTwice : single.map (fun sp => (system.run (initial sp)
      (gets 0 .down 13 ++ gets 0 .alive 15 ++ gets 1 .alive 10)).map State.owned) =
      some (some [(1, 0), (0, 0)]) := by decide +kernel
  obtain ⟨sp, hSp, hRun⟩ := Option.map_eq_some_iff.mp hTwice
  obtain ⟨s, hReachable, hOwned⟩ := Reachable.of_observed (start_single hSp) hRun
  obtain ⟨hOnce, _⟩ := hAll s hReachable
  rw [hOwned] at hOnce
  exact absurd hOnce (by decide)

instance (m : Memory) : ∀ pc, Decidable (Harmless m pc)
  | .create _ .initLock => inferInstanceAs (Decidable False)
  | .finish v false => inferInstanceAs (Decidable (v.i = m.pool_number))
  | .growCreate index _ .initLock | .growCreate index _ .connect | .shrinkClose index _ .close
  | .destroyClose index .close => inferInstanceAs (Decidable (m.locks index.toNat = false))
  | .create _ .guard | .create _ .connect | .create _ .refuse | .create _ .unuse | .create _ .connected
  | .growCreate _ _ .guard | .growCreate _ _ .refuse | .growCreate _ _ .unuse | .growCreate _ _ .connected
  | .shrinkClose _ _ .look | .shrinkClose _ _ .null | .shrinkClose _ _ .state | .shrinkClose _ _ .number
  | .destroyClose _ .look | .destroyClose _ .null | .destroyClose _ .state | .destroyClose _ .number
  | .idle | .start | .choose | .test _ | .pick _ | .lock _ | .state _ | .ping _ | .mark _ | .giveBack _ _ | .take _
  | .count _ | .finish _ true | .release _ _ | .growEnd | .growFrom _ | .grow _ _ | .growIndex _ _
  | .growNumber _ _ | .shrinkEnd | .shrinkFrom _ | .shrink _ _ | .shutdown | .destroy _ =>
    inferInstanceAs (Decidable True)

instance (s : State) : ∀ a, Decidable (Careful s a)
  | .call _ _ => inferInstanceAs (Decidable True)
  | .run t _ => inferInstanceAs (Decidable (Harmless s.memory (s.pc t)))

def pair : Option SqlConnPool := (sqlPoolCreate (some fun _ => blank) 2 opened).1

theorem start_pair {sp : SqlConnPool} (h : pair = some sp) : system.start (initial sp) := ⟨_, _, _, sp, h, rfl⟩

/-- Thread 1 is served while thread 0 holds the first mutex, gives its node back, and thread 2, which
finds the first node locked, is handed the second one. -/
def inTurn : List Act :=
  gets 0 .alive 5 ++ gets 1 { Env.alive with random := 1 } 10 ++ List.replicate 5 (.run 0 .alive) ++
    [.call 1 (.releaseNode 1)] ++ List.replicate 3 (.run 1 .alive) ++ gets 2 .alive 13

theorem exclusive_in_turn : ∃ s : State, s.owned = [(2, 1), (0, 0)] ∧ Exclusive s := by
  have hOwned : pair.map (fun sp => (system.run (initial sp) inTurn).map State.owned) =
      some (some [(2, 1), (0, 0)]) := by decide +kernel
  have hCareful : pair.map (fun sp => decide (system.Meets Careful (initial sp) inTurn)) = some true := by decide +kernel
  obtain ⟨sp, hSp, hRun⟩ := Option.map_eq_some_iff.mp hOwned
  rw [hSp] at hCareful
  have hMeets := of_decide_eq_true (Option.some.inj hCareful)
  obtain ⟨s, hReachable, hOwned⟩ := ReachableUnder.of_observed (start_pair hSp) hMeets hRun
  exact ⟨s, hOwned, exclusive_of_careful hReachable⟩

end MonitorSystem.PoolThreads
