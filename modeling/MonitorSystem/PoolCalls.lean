import MonitorSystem.Accounts
import MonitorSystem.PoolThreads
import Mathlib.Data.Prod.Basic
import Mathlib.Logic.Relation

/-! # Calls of the pool that nothing interrupts

The statements of one thread, run without another in between, come to the same
as the functions of the pool called as a whole.
-/

namespace MonitorSystem.PoolCalls

open DbPool PoolThreads Lib.Transition Relation

def memory (sp : SqlConnPool) : Memory := ⟨sp.shutdown, sp.sql_pool, sp.pool_number, sp.busy_number⟩

def Moves (a b : Memory × Pc) : Prop := a.2.clobbers = none ∧ ∃ e, exec a.1 e a.2 = some b

abbrev Goes : Memory × Pc → Memory × Pc → Prop := ReflTransGen Moves

def Sound (node : SqlNode) : Prop := node.sql_state = .conn → node.mysql_sock ≠ none

@[simp] theorem memory_set (sp : SqlConnPool) (index : Nat) (node : SqlNode) :
    (memory sp).set index node = memory (sp.set index node) := rfl

@[simp] theorem memory_sql_pool (sp : SqlConnPool) : (memory sp).sql_pool = sp.sql_pool := rfl

@[simp] theorem set_set (sp : SqlConnPool) (index : Nat) (node node' : SqlNode) :
    (sp.set index node).set index node' = sp.set index node' := by
  simp [SqlConnPool.set]

theorem set_same (sp : SqlConnPool) (index : Nat) : sp.set index (sp.sql_pool index) = sp := by
  rw [SqlConnPool.set, Function.update_eq_self]

theorem Goes.one {m m' : Memory} {pc pc' : Pc} {b : Memory × Pc} (e : Env) (hQuiet : pc.clobbers = none)
    (hRun : exec m e pc = some (m', pc')) (hRest : Goes (m', pc') b) : Goes (m, pc) b :=
  .head ⟨hQuiet, e, hRun⟩ hRest

theorem Goes.create {sp sp' : SqlConnPool} {v : Scan} {c c' : Create} {b : Memory × Pc} (connect : Connect)
    (hStep : createStep (memory sp) v.index connect c = (memory sp', .inl c'))
    (hRest : Goes (memory sp', .create v c') b) : Goes (memory sp, .create v c) b := by
  apply Goes.one ⟨0, connect, 0⟩ rfl ?_ hRest
  rw [exec, hStep]

theorem Goes.created {sp sp' : SqlConnPool} {v : Scan} {c : Create} {b : Memory × Pc} (connect : Connect)
    (hStep : createStep (memory sp) v.index connect c = (memory sp', .inr 0))
    (hRest : Goes (memory sp', .ping v) b) : Goes (memory sp, .create v c) b := by
  apply Goes.one ⟨0, connect, 0⟩ rfl ?_ hRest
  rw [exec, hStep]
  rfl

theorem Goes.failed {sp sp' : SqlConnPool} {v : Scan} {c : Create} {res : Int} {b : Memory × Pc} (connect : Connect)
    (hRes : res ≠ 0) (hStep : createStep (memory sp) v.index connect c = (memory sp', .inr res))
    (hRest : Goes (memory sp', .giveBack v .used) b) : Goes (memory sp, .create v c) b := by
  apply Goes.one ⟨0, connect, 0⟩ rfl ?_ hRest
  rw [exec, hStep]
  dsimp only
  rw [if_pos hRes]

theorem create_goes (sp : SqlConnPool) (v : Scan) (connect : Connect) {res : Int} {node : SqlNode}
    (h : createDbConnect sp (sp.sql_pool v.index) connect = (res, node)) :
    Goes (memory sp, .create v .guard)
      (memory (sp.set v.index node), if res ≠ 0 then .giveBack v .used else .ping v) := by
  rw [createDbConnect] at h
  split at h
  · rename_i hShutdown
    have hGuard : createStep (memory sp) v.index connect .guard = (memory sp, .inr (-1)) := by
      simp [createStep, memory, hShutdown]
    cases h
    rw [set_same]
    exact Goes.failed connect (by decide) hGuard .refl
  rename_i hLive
  obtain ⟨free, hFree⟩ : ∃ free, free = { sp.sql_pool v.index with locked := false } := ⟨_, rfl⟩
  have hGuard : createStep (memory sp) v.index connect .guard = (memory sp, .inl .initLock) := by
    simp [createStep, memory, hLive]
  have hLock : createStep (memory sp) v.index connect .initLock = (memory (sp.set v.index free), .inl .connect) := by
    rw [hFree]
    rfl
  apply Goes.create connect hGuard
  apply Goes.create connect hLock
  rw [← hFree] at h
  cases connect with
  | noInit =>
    cases h
    exact Goes.failed .noInit (by decide) rfl .refl
  | refused =>
    have hSock : createStep (memory (sp.set v.index free)) v.index .refused .connect =
        (memory (sp.set v.index { free with mysql_sock := none }), .inl .refuse) := by simp [createStep]
    have hState : createStep (memory (sp.set v.index { free with mysql_sock := none })) v.index .refused .refuse =
        (memory (sp.set v.index { free with mysql_sock := none, sql_state := .disconn }), .inr 1) := by
      simp [createStep]
    cases h
    apply Goes.create .refused hSock
    exact Goes.failed .refused (by decide) hState .refl
  | connected sock =>
    have hSock : createStep (memory (sp.set v.index free)) v.index (.connected sock) .connect =
        (memory (sp.set v.index { free with mysql_sock := some sock }), .inl .unuse) := by simp [createStep]
    have hUnused : createStep (memory (sp.set v.index { free with mysql_sock := some sock })) v.index
        (.connected sock) .unuse =
        (memory (sp.set v.index { free with mysql_sock := some sock, used := 0 }), .inl .connected) := by
      simp [createStep]
    cases h
    apply Goes.create (.connected sock) hSock
    apply Goes.create (.connected sock) hUnused
    apply Goes.created (.connected sock) ?_ .refl
    simp [createStep]

theorem releaseStep_memory (sp : SqlConnPool) (index : Nat) : ∃ sp₁ sp₂ : SqlConnPool,
    releaseStep (memory sp) index .used = (memory sp₁, some .busy) ∧
      releaseStep (memory sp₁) index .busy = (memory sp₂, some .unlock) ∧
      releaseStep (memory sp₂) index .unlock = (memory (releaseNode sp index), none) := by
  refine ⟨sp.set index { sp.sql_pool index with used := 0 },
    { sp.set index { sp.sql_pool index with used := 0 } with busy_number := sp.busy_number - 1 }, rfl, rfl, ?_⟩
  simp [releaseStep, memory, Memory.set, releaseNode, SqlConnPool.set]

theorem giveBack_goes (sp : SqlConnPool) (v : Scan) :
    Goes (memory sp, .giveBack v .used) (memory (releaseNode sp v.index), .test { v with i := v.i + 1 }) := by
  obtain ⟨sp₁, sp₂, hUsed, hBusy, hUnlock⟩ := releaseStep_memory sp v.index
  refine Goes.one ⟨0, .noInit, 0⟩ rfl (by rw [exec, hUsed]) ?_
  refine Goes.one ⟨0, .noInit, 0⟩ rfl (by rw [exec, hBusy]) ?_
  exact Goes.one ⟨0, .noInit, 0⟩ rfl (by rw [exec, hUnlock]) .refl

theorem release_goes (sp : SqlConnPool) (index : Nat) :
    Goes (memory sp, .release index .used) (memory (releaseNode sp index), .idle) := by
  obtain ⟨sp₁, sp₂, hUsed, hBusy, hUnlock⟩ := releaseStep_memory sp index
  refine Goes.one ⟨0, .noInit, 0⟩ rfl (by rw [exec, hUsed]) ?_
  refine Goes.one ⟨0, .noInit, 0⟩ rfl (by rw [exec, hBusy]) ?_
  exact Goes.one ⟨0, .noInit, 0⟩ rfl (by rw [exec, hUnlock]) .refl

theorem connected_sock {sp : SqlConnPool} {node : SqlNode} {connect : Connect}
    (h : (createDbConnect sp node connect).1 = 0) : (createDbConnect sp node connect).2.mysql_sock ≠ none := by
  obtain ⟨s, created, _, _, hEq, rfl⟩ | ⟨_, hFailed⟩ := createDbConnect_cases sp node connect
  · rw [hEq]
    exact Option.some_ne_none s
  · exact absurd h hFailed

theorem createDbConnect_sound {node : SqlNode} (hSound : Sound node) (sp : SqlConnPool) (connect : Connect) :
    Sound (createDbConnect sp node connect).2 := by
  rw [createDbConnect]
  split
  · exact hSound
  · cases connect with
    | noInit => exact hSound
    | refused =>
      intro hConn
      cases hConn
    | connected sock => exact fun _ => Option.some_ne_none sock

theorem reconnected_sound {sp : SqlConnPool} {node node' : SqlNode} {connect : Connect} {res : Int}
    (h : reconnected sp node connect = (res, node')) (hSound : Sound node) :
    Sound node' ∧ (res = 0 → node'.mysql_sock ≠ none) := by
  rw [reconnected] at h
  split at h
  · have hNode := createDbConnect_sound hSound sp connect
    rw [h] at hNode
    refine ⟨hNode, ?_⟩
    rintro rfl
    have hSock := @connected_sock sp node connect (congrArg Prod.fst h)
    rwa [h] at hSock
  · rename_i hConn
    cases h
    refine ⟨hSound, fun _ => hSound ?_⟩
    cases hState : node.sql_state with
    | disconn => exact absurd hState hConn
    | conn => rfl

theorem ready_goes {sp : SqlConnPool} {node node' : SqlNode} {connect : Connect} {res : Int} (v : Scan)
    (h : reconnected sp node connect = (res, node')) :
    Goes (memory (sp.set v.index node), .state v)
      (memory (sp.set v.index node'), if res ≠ 0 then .giveBack v .used else .ping v) := by
  rw [reconnected] at h
  split at h
  · rename_i hDisconn
    have hState : exec (memory (sp.set v.index node)) ⟨0, connect, 0⟩ (.state v) =
        some (memory (sp.set v.index node), .create v .guard) := by simp [exec, hDisconn]
    have hCreate : createDbConnect (sp.set v.index node) ((sp.set v.index node).sql_pool v.index) connect =
        (res, node') := by
      rw [set_self]
      exact h
    have hGoes := create_goes (sp.set v.index node) v connect hCreate
    rw [set_set] at hGoes
    exact Goes.one ⟨0, connect, 0⟩ rfl hState hGoes
  · rename_i hConn
    have hState : exec (memory (sp.set v.index node)) ⟨0, connect, 0⟩ (.state v) =
        some (memory (sp.set v.index node), .ping v) := by simp [exec, hConn]
    cases h
    exact Goes.one ⟨0, connect, 0⟩ rfl hState .refl

theorem ping_goes (sp : SqlConnPool) (v : Scan) {node : SqlNode} (hSock : node.mysql_sock ≠ none) (ping : Int) :
    Goes (memory (sp.set v.index node), .ping v)
      (if ping ≠ 0 then (memory (releaseNode (sp.set v.index { node with sql_state := .disconn }) v.index),
          .test { v with i := v.i + 1 })
        else (memory { sp.set v.index { node with used := 1 } with busy_number := sp.busy_number + 1 },
          .finish v true)) := by
  split
  · rename_i hFails
    have hPing : exec (memory (sp.set v.index node)) ⟨0, .noInit, ping⟩ (.ping v) =
        some (memory (sp.set v.index node), .mark v) := by simp [exec, hSock, hFails]
    have hMark : exec (memory (sp.set v.index node)) ⟨0, .noInit, ping⟩ (.mark v) =
        some (memory (sp.set v.index { node with sql_state := .disconn }), .giveBack v .used) := by simp [exec]
    apply Goes.one _ rfl hPing
    apply Goes.one _ rfl hMark
    exact giveBack_goes _ v
  · rename_i hAnswers
    have hPing : exec (memory (sp.set v.index node)) ⟨0, .noInit, ping⟩ (.ping v) =
        some (memory (sp.set v.index node), .take v) := by simp [exec, hSock, not_not.mp hAnswers]
    have hTake : exec (memory (sp.set v.index node)) ⟨0, .noInit, ping⟩ (.take v) =
        some (memory (sp.set v.index { node with used := 1 }), .count v) := by simp [exec]
    apply Goes.one _ rfl hPing
    apply Goes.one _ rfl hTake
    exact Goes.one ⟨0, .noInit, ping⟩ rfl rfl .refl

theorem tryNode_goes {sp : SqlConnPool} {v : Scan} (hIndex : v.index < poolMaxNumber)
    (hSound : Sound (sp.sql_pool v.index)) (trial : Trial) :
    Goes (memory sp, .lock v) (memory (tryNode sp v.index trial).1,
      if (tryNode sp v.index trial).2 then .finish v true else .test { v with i := v.i + 1 }) := by
  rw [tryNode]
  split
  · rename_i hLocked
    apply Goes.one ⟨0, .noInit, 0⟩ rfl ?_ .refl
    simp [exec, hLocked, hIndex]
  rename_i hFree
  obtain ⟨locked, hLocked⟩ : ∃ locked, locked = { sp.sql_pool v.index with locked := true } := ⟨_, rfl⟩
  obtain ⟨⟨res, node⟩, hReady⟩ : ∃ r, reconnected sp locked trial.connect = r := ⟨_, rfl⟩
  have hLock : exec (memory sp) ⟨0, .noInit, 0⟩ (.lock v) = some (memory (sp.set v.index locked), .state v) := by
    simp [exec, hFree, hIndex, hLocked]
  have hGoes := ready_goes v hReady
  obtain ⟨_, hSock⟩ := reconnected_sound hReady (hLocked ▸ hSound)
  rw [← hLocked, hReady]
  apply Goes.one ⟨0, .noInit, 0⟩ rfl hLock
  dsimp only
  split
  · rename_i hFails
    rw [if_pos hFails] at hGoes
    exact hGoes.trans (giveBack_goes _ v)
  · rename_i hRes
    rw [if_neg hRes] at hGoes
    have hPing := ping_goes sp v (hSock (not_not.mp hRes)) trial.ping
    split
    · rename_i hSilent
      rw [if_pos hSilent] at hPing
      exact hGoes.trans hPing
    · rename_i hAnswers
      rw [if_neg hAnswers] at hPing
      exact hGoes.trans hPing

def Nodes (sp : SqlConnPool) : Prop := ∀ index < sp.pool_number, Sound (sp.sql_pool index)

theorem Nodes.set {sp : SqlConnPool} (h : Nodes sp) {node : SqlNode} (hNode : Sound node) (index : Nat) :
    Nodes (sp.set index node) := by
  intro other hOther
  obtain rfl | hNe := eq_or_ne other index
  · rw [set_self]
    exact hNode
  · rw [set_of_ne hNe]
    exact h other hOther

theorem Nodes.release {sp : SqlConnPool} (h : Nodes sp) {index : Nat} (hIndex : index < sp.pool_number) :
    Nodes (releaseNode sp index) := by
  have hNode : Sound { sp.sql_pool index with used := 0, locked := false } := h index hIndex
  exact h.set hNode index

theorem Nodes.tryNode {sp : SqlConnPool} (h : Nodes sp) {index : Nat} (hIndex : index < sp.pool_number)
    (trial : Trial) : Nodes (tryNode sp index trial).1 := by
  have hLocked : Sound { sp.sql_pool index with locked := true } := h index hIndex
  rw [DbPool.tryNode]
  split
  · exact h
  obtain ⟨⟨res, node⟩, hReady⟩ : ∃ r, reconnected sp { sp.sql_pool index with locked := true } trial.connect = r :=
    ⟨_, rfl⟩
  obtain ⟨hNode, _⟩ := reconnected_sound hReady hLocked
  rw [hReady]
  dsimp only
  split
  · exact (h.set hNode index).release hIndex
  · split
    · have hMarked : Sound { node with sql_state := .disconn } := by
        intro hConn
        cases hConn
      exact (h.set hMarked index).release hIndex
    · have hTaken : Sound { node with used := 1 } := hNode
      exact h.set hTaken index

theorem test_goes {sp : SqlConnPool} {start i : Nat} (index : Nat) (hMore : i < sp.pool_number) {b : Memory × Pc}
    (hRest : Goes (memory sp, .lock ⟨start, i, (start + i) % sp.pool_number⟩) b) :
    Goes (memory sp, .test ⟨start, i, index⟩) b := by
  have hTest : exec (memory sp) ⟨0, .noInit, 0⟩ (.test ⟨start, i, index⟩) =
      some (memory sp, .pick ⟨start, i, index⟩) := by simp [exec, memory, hMore]
  have hIndex : ((start + i : Int) % sp.pool_number).toNat = (start + i) % sp.pool_number := by
    rw [← Int.natCast_add, ← Int.natCast_emod, Int.toNat_natCast]
  have hPick : exec (memory sp) ⟨0, .noInit, 0⟩ (.pick ⟨start, i, index⟩) =
      some (memory sp, .lock ⟨start, i, (start + i) % sp.pool_number⟩) := by
    rw [exec, if_neg]
    · rw [← hIndex]
      rfl
    · simp only [memory]
      omega
  apply Goes.one _ rfl hTest
  exact Goes.one _ rfl hPick hRest

theorem scan_goes {sp : SqlConnPool} {trial : Nat → Trial} {start i index k : Nat} (hNodes : Nodes sp)
    (hBound : sp.pool_number ≤ poolMaxNumber) (hEnd : i + k = sp.pool_number) :
    ∃ v, Goes (memory sp, .test ⟨start, i, index⟩)
        (memory (scan trial ((List.range' i k).map fun j => (start + j) % sp.pool_number) sp).1,
          .finish v (scan trial ((List.range' i k).map fun j => (start + j) % sp.pool_number) sp).2.isSome) ∧
      (scan trial ((List.range' i k).map fun j => (start + j) % sp.pool_number) sp).2 =
        if v.i = sp.pool_number then none else some v.index := by
  induction k generalizing sp i index with
  | zero =>
    refine ⟨⟨start, i, index⟩, ?_, ?_⟩
    · apply Goes.one ⟨0, .noInit, 0⟩ rfl ?_ .refl
      simp [exec, memory, scan, ← hEnd]
    · exact (if_pos hEnd).symm
  | succ k ih =>
    have hMore : i < sp.pool_number := by omega
    have hIndex : (start + i) % sp.pool_number < sp.pool_number := Nat.mod_lt _ (by omega)
    have hTry := @tryNode_goes sp ⟨start, i, (start + i) % sp.pool_number⟩ (Nat.lt_of_lt_of_le hIndex hBound)
      (hNodes _ hIndex) (trial ((start + i) % sp.pool_number))
    have hNext := hNodes.tryNode hIndex (trial ((start + i) % sp.pool_number))
    have hSame := (tryNode_keeps sp ((start + i) % sp.pool_number) (trial ((start + i) % sp.pool_number))).1
    rw [List.range'_succ, List.map_cons, scan]
    dsimp only at hTry
    generalize tryNode sp ((start + i) % sp.pool_number) (trial ((start + i) % sp.pool_number)) = r at *
    obtain ⟨sp', found⟩ := r
    cases found with
    | true =>
      refine ⟨_, test_goes index hMore hTry, ?_⟩
      rw [if_neg (Nat.ne_of_lt hMore)]
    | false =>
      dsimp only at hSame hNext
      obtain ⟨v, hGoes, hFound⟩ := @ih sp' (i + 1) ((start + i) % sp.pool_number) hNext (hSame ▸ hBound) (by omega)
      rw [hSame] at hGoes hFound
      exact ⟨v, test_goes index hMore (hTry.trans hGoes), hFound⟩

theorem getDbConnect_goes {sp sp' : SqlConnPool} {random : Nat} {trial : Nat → Trial} {found : Option Nat}
    (hNodes : Nodes sp) (hBound : sp.pool_number ≤ poolMaxNumber)
    (h : getDbConnect sp random trial = some (sp', found)) :
    (Goes (memory sp, .start) (memory sp', .idle) ∧ found = none) ∨
      ∃ v, Goes (memory sp, .start) (memory sp', .finish v found.isSome) ∧
        found = if v.i = sp'.pool_number then none else some v.index := by
  rw [getDbConnect] at h
  split at h
  · rename_i hShutdown
    cases h
    refine .inl ⟨Goes.one ⟨0, .noInit, 0⟩ rfl ?_ .refl, rfl⟩
    simp [exec, memory, hShutdown]
  · rename_i hLive
    obtain ⟨hSome, hEq⟩ := Option.ite_none_left_eq_some.mp h
    have hScan := Option.some.inj hEq
    have hStart : exec (memory sp) ⟨random, .noInit, 0⟩ .start = some (memory sp, .choose) := by
      simp [exec, memory, hLive]
    have hChoose : exec (memory sp) ⟨random, .noInit, 0⟩ .choose =
        some (memory sp, .test ⟨random % sp.pool_number, 0, 0⟩) := by
      rw [exec, if_neg]
      · rw [← Int.toNat_natCast (random % sp.pool_number), Int.natCast_emod]
        rfl
      · exact Int.natCast_ne_zero.mpr hSome
    obtain ⟨v, hGoes, hFound⟩ :=
      @scan_goes sp trial (random % sp.pool_number) 0 0 sp.pool_number hNodes hBound (Nat.zero_add _)
    rw [← List.range_eq_range'] at hGoes hFound
    rw [order] at hScan
    have hKeeps := (scan_keeps trial ((List.range sp.pool_number).map fun i =>
      (random % sp.pool_number + i) % sp.pool_number) sp).1
    rw [hScan] at hGoes hFound hKeeps
    refine .inr ⟨v, Goes.one _ rfl hStart (Goes.one _ rfl hChoose hGoes), ?_⟩
    rw [hKeeps]
    exact hFound

theorem step_move {s : PoolThreads.State} {t : Nat} {e : Env} {m : Memory} {pc : Pc}
    (hQuiet : (s.pc t).clobbers = none) (hExec : exec s.memory e (s.pc t) = some (m, pc)) :
    PoolThreads.step s (.run t e) = some { s.goto t pc with memory := m } := by
  unfold PoolThreads.step
  dsimp only
  split
  · rename_i hFinish
    rw [hFinish] at hExec
    cases hExec
  · rw [hExec, hQuiet]
    simp [State.goto]

theorem run_goes {a b : Memory × Pc} (h : Goes a b) {s : PoolThreads.State} {t : Nat} (hMemory : s.memory = a.1)
    (hPc : s.pc t = a.2) :
    ∃ envs : List Env, PoolThreads.system.run s (envs.map (.run t)) = some { s.goto t b.2 with memory := b.1 } := by
  induction h using ReflTransGen.head_induction_on generalizing s with
  | refl =>
    have hSame : { s.goto t b.2 with memory := b.1 } = s := by
      rw [State.goto, ← hPc, Function.update_eq_self, ← hMemory]
    rw [hSame]
    exact ⟨[], rfl⟩
  | head hMove hRest ih =>
    obtain ⟨hQuiet, e, hExec⟩ := hMove
    rw [← hMemory, ← hPc] at hExec
    rw [← hPc] at hQuiet
    have hStep := step_move hQuiet hExec
    obtain ⟨envs, hRun⟩ := @ih { s.goto t _ with memory := _ } rfl (Function.update_self ..)
    have hGoto : ∀ m pc pc', { { s.goto t pc with memory := m }.goto t pc' with memory := b.1 } =
        { s.goto t pc' with memory := b.1 } := by simp [State.goto]
    rw [hGoto] at hRun
    refine ⟨e :: envs, ?_⟩
    rw [List.map_cons, run_cons]
    exact (congrArg (Option.bind · _) hStep).trans hRun

theorem goto_goto (s : PoolThreads.State) (t : Nat) (pc pc' : Pc) : (s.goto t pc).goto t pc' = s.goto t pc' := by
  simp [State.goto]

theorem goto_same {s : PoolThreads.State} {t : Nat} {pc : Pc} (h : s.pc t = pc) : s.goto t pc = s := by
  rw [State.goto, ← h, Function.update_eq_self]

theorem step_finish {s : PoolThreads.State} {t : Nat} (hIdle : s.pc t = .idle) {sp : SqlConnPool} {v : Scan}
    {flag : Bool} {found : Option Nat} (hFound : found = if v.i = sp.pool_number then none else some v.index) :
    PoolThreads.step { s.goto t (.finish v flag) with memory := memory sp } (.run t ⟨0, .noInit, 0⟩) =
      some { s with memory := memory sp, owned := found.toList.map (t, ·) ++ s.owned } := by
  have hPc : (s.goto t (.finish v flag)).pc t = .finish v flag := Function.update_self ..
  have hBack : Function.update (s.goto t (.finish v flag)).pc t .idle = s.pc := by
    rw [State.goto, Function.update_idem, ← hIdle, Function.update_eq_self]
  have hCount : (v.i : Int) = (memory sp).pool_number ↔ v.i = sp.pool_number := Int.ofNat_inj
  unfold PoolThreads.step
  dsimp only
  rw [hPc]
  dsimp only
  by_cases hEnd : v.i = sp.pool_number
  · rw [if_pos hEnd] at hFound
    rw [if_pos (hCount.mpr hEnd), hFound, State.goto]
    dsimp only
    rw [hBack]
    rfl
  · rw [if_neg hEnd] at hFound
    rw [if_neg (mt hCount.mp hEnd), hFound, State.goto]
    dsimp only
    rw [hBack]
    rfl

theorem getDbConnect_run {s : PoolThreads.State} {t : Nat} {sp sp' : SqlConnPool} {random : Nat}
    {trial : Nat → Trial} {found : Option Nat} (hIdle : s.pc t = .idle) (hMemory : s.memory = memory sp)
    (hNodes : Nodes sp) (hBound : sp.pool_number ≤ poolMaxNumber)
    (h : getDbConnect sp random trial = some (sp', found)) :
    ∃ acts, PoolThreads.system.run s acts =
      some { s with memory := memory sp', owned := found.toList.map (t, ·) ++ s.owned } := by
  have hCall : PoolThreads.system.step s (.call t .getDbConnect) = some (s.goto t .start) := by
    simp [PoolThreads.system, PoolThreads.step, hIdle]
  have hStart : (s.goto t .start).pc t = .start := Function.update_self ..
  obtain ⟨hGoes, rfl⟩ | ⟨v, hGoes, hFound⟩ := getDbConnect_goes hNodes hBound h
  · obtain ⟨envs, hRun⟩ := @run_goes _ _ hGoes (s.goto t .start) t hMemory hStart
    rw [goto_goto, goto_same hIdle] at hRun
    refine ⟨.call t .getDbConnect :: envs.map (.run t), ?_⟩
    rw [run_cons, hCall]
    exact hRun
  · obtain ⟨envs, hRun⟩ := @run_goes _ _ hGoes (s.goto t .start) t hMemory hStart
    rw [goto_goto] at hRun
    refine ⟨.call t .getDbConnect :: (envs.map (.run t) ++ [.run t ⟨0, .noInit, 0⟩]), ?_⟩
    rw [run_cons, hCall, Option.bind_some, run_append, hRun, Option.bind_some, run_cons]
    exact congrArg (Option.bind · _) (step_finish hIdle hFound)

theorem releaseNode_run {s : PoolThreads.State} {t index : Nat} {sp : SqlConnPool} (hIdle : s.pc t = .idle)
    (hMemory : s.memory = memory sp) (hOwned : (t, index) ∈ s.owned) :
    ∃ acts, PoolThreads.system.run s acts =
      some { s with memory := memory (releaseNode sp index), owned := s.owned.erase (t, index) } := by
  obtain ⟨u, hu⟩ : ∃ u : PoolThreads.State, u = { s with owned := s.owned.erase (t, index) } := ⟨_, rfl⟩
  have hCall : PoolThreads.system.step s (.call t (.releaseNode index)) = some (u.goto t (.release index .used)) := by
    simp [PoolThreads.system, PoolThreads.step, hIdle, hOwned, hu, State.goto]
  have hMemory' : (u.goto t (.release index .used)).memory = memory sp := by
    rw [hu]
    exact hMemory
  have hIdle' : u.pc t = .idle := by
    rw [hu]
    exact hIdle
  obtain ⟨envs, hRun⟩ := @run_goes _ _ (release_goes sp index) (u.goto t (.release index .used)) t hMemory'
    (Function.update_self ..)
  rw [goto_goto, goto_same hIdle', hu] at hRun
  refine ⟨.call t (.releaseNode index) :: envs.map (.run t), ?_⟩
  rw [run_cons, hCall, hu]
  exact hRun

theorem Nodes.scan {sp : SqlConnPool} (h : Nodes sp) {indices : List Nat}
    (hIndices : ∀ index ∈ indices, index < sp.pool_number) (trial : Nat → Trial) :
    Nodes (scan trial indices sp).1 ∧ ∀ index, (scan trial indices sp).2 = some index → index < sp.pool_number := by
  induction indices generalizing sp with
  | nil =>
    refine ⟨h, ?_⟩
    intro index hNone
    cases hNone
  | cons first rest ih =>
    have hFirst := hIndices first List.mem_cons_self
    have hNext := h.tryNode hFirst (trial first)
    have hSame := (tryNode_keeps sp first (trial first)).1
    rw [DbPool.scan]
    split
    · rename_i hTry
      rw [hTry] at hNext
      refine ⟨hNext, ?_⟩
      intro index hIndex
      cases hIndex
      exact hFirst
    · rename_i hTry
      rw [hTry] at hNext hSame
      rw [← hSame]
      apply ih hNext
      intro index hIndex
      rw [hSame]
      exact hIndices index (List.mem_cons_of_mem first hIndex)

theorem Nodes.getDbConnect {sp sp' : SqlConnPool} (hNodes : Nodes sp) {random : Nat} {trial : Nat → Trial}
    {found : Option Nat} (h : getDbConnect sp random trial = some (sp', found)) :
    Nodes sp' ∧ sp'.pool_number = sp.pool_number ∧ ∀ index, found = some index → index < sp.pool_number := by
  rw [DbPool.getDbConnect] at h
  split at h
  · cases h
    refine ⟨hNodes, rfl, ?_⟩
    intro index hNone
    cases hNone
  · obtain ⟨_, hEq⟩ := Option.ite_none_left_eq_some.mp h
    have hScan := hNodes.scan (fun index => @mem_order sp.pool_number (random % sp.pool_number) index) trial
    have hKeeps := (scan_keeps trial (order sp.pool_number (random % sp.pool_number)) sp).1
    rw [Option.some.inj hEq] at hScan hKeeps
    exact ⟨hScan.1, hKeeps, hScan.2⟩

/-- Thread t has the nodes that are out. -/
structure Agrees (t : Nat) (s : Accounts.State) (u : PoolThreads.State) : Prop where
  memory : u.memory = memory s.pool
  idle : u.pc t = .idle
  owned : u.owned.Perm (s.out.map (t, ·))
  nodes : Nodes s.pool
  bound : s.pool.pool_number ≤ poolMaxNumber
  inside : ∀ index ∈ s.out, index < s.pool.pool_number

theorem Agrees.step {t : Nat} {s s' : Accounts.State} {u : PoolThreads.State} {c : Accounts.Call}
    (h : Agrees t s u) (hStep : Accounts.step s c = some s') :
    ∃ acts u', PoolThreads.system.run u acts = some u' ∧ Agrees t s' u' := by
  cases c with
  | get random trial =>
    obtain ⟨⟨sp, found⟩, hGet, rfl⟩ := Option.map_eq_some_iff.mp hStep
    obtain ⟨acts, hRun⟩ := getDbConnect_run h.idle h.memory h.nodes h.bound hGet
    obtain ⟨hNodes, hSame, hFound⟩ := h.nodes.getDbConnect hGet
    refine ⟨acts, _, hRun, rfl, h.idle, ?_, hNodes, hSame ▸ h.bound, ?_⟩
    · rw [List.map_append]
      exact (h.owned.append_left _).trans List.perm_append_comm
    · intro index hOut
      dsimp only at hOut ⊢
      rw [hSame]
      obtain hOld | hNew := List.mem_append.mp hOut
      · exact h.inside index hOld
      · exact hFound index (Option.mem_toList.mp hNew)
  | release index =>
    obtain ⟨hOut, hEq⟩ := Option.ite_none_right_eq_some.mp hStep
    cases hEq
    have hOwned : (t, index) ∈ u.owned := h.owned.mem_iff.mpr (List.mem_map_of_mem hOut)
    obtain ⟨acts, hRun⟩ := releaseNode_run h.idle h.memory hOwned
    refine ⟨acts, _, hRun, rfl, h.idle, ?_, h.nodes.release (h.inside index hOut), h.bound, ?_⟩
    · have hErase := h.owned.erase (t, index)
      rw [← List.map_erase (Prod.mk_right_injective t)] at hErase
      exact hErase
    · intro other hOther
      exact h.inside other (List.mem_of_mem_erase hOther)

theorem nodes_created {memory : Option (Nat → SqlNode)} {connect_pool_number : Int} {connect : Nat → Connect}
    {sp : SqlConnPool} (h : (sqlPoolCreate memory connect_pool_number connect).1 = some sp) : Nodes sp := by
  obtain ⟨_, _, _, _, hAll⟩ := @sqlPoolCreate_all (fun node => node.mysql_sock ≠ none) (fun _ _ hNode => hNode)
    (fun _ _ _ hRes => connected_sock hRes) _ _ _ _ h
  intro index hLt _
  exact hAll index hLt

theorem calls_run {memory : Option (Nat → SqlNode)} {connect_pool_number : Int} {connect : Nat → Connect}
    {sp : SqlConnPool} (hCreated : (sqlPoolCreate memory connect_pool_number connect).1 = some sp) (t : Nat)
    {s : Accounts.State} (h : Reachable (Accounts.system sp) s) :
    ∃ u, Reachable PoolThreads.system u ∧ Agrees t s u := by
  induction h with
  | start hStart =>
    obtain ⟨_, hNumber, _, _, _⟩ := sqlPoolCreate_some hCreated
    obtain rfl : _ = _ := hStart
    refine ⟨initial sp, .start ⟨_, _, _, sp, hCreated, rfl⟩, rfl, rfl, .refl _, nodes_created hCreated, ?_, ?_⟩
    · rw [hNumber]
      exact (corrected_range connect_pool_number).2
    · intro index hNone
      cases hNone
  | step _ _ hStep ih =>
    obtain ⟨u, hReachable, hAgrees⟩ := ih
    obtain ⟨acts, u', hRun, hAgrees'⟩ := hAgrees.step hStep
    exact ⟨u', hReachable.of_run hRun, hAgrees'⟩

end MonitorSystem.PoolCalls
