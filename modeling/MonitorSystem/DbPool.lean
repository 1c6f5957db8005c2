import Mathlib.Data.List.Basic
import Mathlib.Logic.Function.Basic
import Mathlib.Tactic.Common

/-! # The database connection pool

The functions of db_connection_pool.cpp, each as one uninterrupted call. A
number names the connection that one mysql_real_connect has opened; what the
MySQL library returns is an input.
-/

namespace MonitorSystem.DbPool

def poolMaxNumber : Nat := 20

inductive SqlState
  | disconn
  | conn
deriving DecidableEq

structure SqlNode where
  mysql_sock : Option Nat
  locked : Bool
  used : Int
  index : Nat
  sql_state : SqlState

/-- closed lists the connections that mysql_close was called on. -/
structure SqlConnPool where
  shutdown : Bool
  sql_pool : Nat → SqlNode
  pool_number : Nat
  busy_number : Int
  closed : List Nat

/-- What mysql_init and mysql_real_connect do on a node. -/
inductive Connect
  | noInit
  | refused
  | connected (sock : Nat)

/-- What the library returns while get_db_connect examines a node. -/
structure Trial where
  connect : Connect
  ping : Int

def SqlConnPool.set (sp : SqlConnPool) (index : Nat) (node : SqlNode) : SqlConnPool :=
  { sp with sql_pool := Function.update sp.sql_pool index node }

/-- The mutex is initialised here, also when the caller holds it. -/
def createDbConnect (sp : SqlConnPool) (node : SqlNode) (connect : Connect) : Int × SqlNode :=
  if sp.shutdown then (-1, node)
  else
    let node := { node with locked := false }
    match connect with
    | .noInit => (-1, node)
    | .refused => (1, { node with mysql_sock := none, sql_state := .disconn })
    | .connected sock => (0, { node with mysql_sock := some sock, used := 0, sql_state := .conn })

def SqlConnPool.addNode (sp : SqlConnPool) (index : Nat) (node : SqlNode) : SqlConnPool :=
  { sp.set index { node with index := index } with pool_number := sp.pool_number + 1 }

def createNodes (connect : Nat → Connect) : List Nat → SqlConnPool → SqlConnPool × Bool
  | [], sp => (sp, true)
  | index :: rest, sp =>
    let r := createDbConnect sp (sp.sql_pool index) (connect index)
    if r.1 ≠ 0 then (sp.set index r.2, false) else createNodes connect rest (sp.addNode index r.2)

def SqlConnPool.closeNode (sp : SqlConnPool) (index : Nat) : SqlConnPool :=
  let node := sp.sql_pool index
  { sp.set index { node with mysql_sock := none, sql_state := .disconn } with
    pool_number := sp.pool_number - 1
    closed := sp.closed ++ node.mysql_sock.toList }

/-- Every iteration lowers pool_number, so that many iterations are enough. -/
def destroyLoop : Nat → Nat → SqlConnPool → SqlConnPool
  | 0, _, sp => sp
  | fuel + 1, index, sp =>
    if index < sp.pool_number then destroyLoop fuel (index + 1) (sp.closeNode index) else sp

def sqlPoolDestroy (sp : SqlConnPool) : SqlConnPool :=
  destroyLoop sp.pool_number 0 { sp with shutdown := true }

def corrected (connect_pool_number : Int) : Nat :=
  let number := if connect_pool_number < 1 then 1 else connect_pool_number.toNat
  if poolMaxNumber < number then poolMaxNumber else number

/-- The pool or NULL, and the connections closed before the return; memory is
what malloc returns. -/
def sqlPoolCreate (memory : Option (Nat → SqlNode)) (connect_pool_number : Int) (connect : Nat → Connect) :
    Option SqlConnPool × List Nat :=
  match memory with
  | none => (none, [])
  | some sql_pool =>
    match createNodes connect (List.range (corrected connect_pool_number)) ⟨false, sql_pool, 0, 0, []⟩ with
    | (sp, true) => (some sp, sp.closed)
    | (sp, false) => (none, (sqlPoolDestroy sp).closed)

def releaseNode (sp : SqlConnPool) (index : Nat) : SqlConnPool :=
  { sp.set index { sp.sql_pool index with used := 0, locked := false } with busy_number := sp.busy_number - 1 }

/-- What the caller has when it holds the mutex of a node: a result of 0 and the node, or a failure. -/
def reconnected (sp : SqlConnPool) (node : SqlNode) (connect : Connect) : Int × SqlNode :=
  if node.sql_state = .disconn then createDbConnect sp node connect else (0, node)

/-- One iteration of the scan, and whether it ends the scan with a node. -/
def tryNode (sp : SqlConnPool) (index : Nat) (trial : Trial) : SqlConnPool × Bool :=
  if (sp.sql_pool index).locked then (sp, false)
  else
    let r := reconnected sp { sp.sql_pool index with locked := true } trial.connect
    if r.1 ≠ 0 then (releaseNode (sp.set index r.2) index, false)
    else if trial.ping ≠ 0 then (releaseNode (sp.set index { r.2 with sql_state := .disconn }) index, false)
    else ({ sp.set index { r.2 with used := 1 } with busy_number := sp.busy_number + 1 }, true)

def scan (trial : Nat → Trial) : List Nat → SqlConnPool → SqlConnPool × Option Nat
  | [], sp => (sp, none)
  | index :: rest, sp =>
    match tryNode sp index (trial index) with
    | (sp, true) => (sp, some index)
    | (sp, false) => scan trial rest sp

def order (pool_number start_index : Nat) : List Nat :=
  (List.range pool_number).map fun i => (start_index + i) % pool_number

/-- random is what rand returns; none where the pool is empty and the remainder is by 0. -/
def getDbConnect (sp : SqlConnPool) (random : Nat) (trial : Nat → Trial) : Option (SqlConnPool × Option Nat) :=
  if sp.shutdown then some (sp, none)
  else if sp.pool_number = 0 then none
  else some (scan trial (order sp.pool_number (random % sp.pool_number)) sp)

@[simp] theorem set_self (sp : SqlConnPool) (index : Nat) (node : SqlNode) :
    (sp.set index node).sql_pool index = node := Function.update_self ..

theorem set_of_ne {index other : Nat} (h : other ≠ index) (sp : SqlConnPool) (node : SqlNode) :
    (sp.set index node).sql_pool other = sp.sql_pool other := Function.update_of_ne h ..

theorem getDbConnect_live {sp : SqlConnPool} (hLive : sp.shutdown = false) (hSize : 0 < sp.pool_number) (random : Nat)
    (trial : Nat → Trial) :
    getDbConnect sp random trial = some (scan trial (order sp.pool_number (random % sp.pool_number)) sp) := by
  rw [getDbConnect, if_neg (by simp [hLive]), if_neg (Nat.pos_iff_ne_zero.mp hSize)]

@[simp] theorem set_busy (sp : SqlConnPool) (index : Nat) (node : SqlNode) :
    (sp.set index node).busy_number = sp.busy_number := rfl

@[simp] theorem release_busy (sp : SqlConnPool) (index : Nat) :
    (releaseNode sp index).busy_number = sp.busy_number - 1 := rfl

theorem reconnected_conn {node : SqlNode} (h : node.sql_state = .conn) (sp : SqlConnPool) (connect : Connect) :
    reconnected sp node connect = (0, node) := by
  rw [reconnected, if_neg]
  rw [h]
  decide

theorem tryNode_cases (sp : SqlConnPool) (index : Nat) (trial : Trial) :
    ((sp.sql_pool index).locked = true ∧ tryNode sp index trial = (sp, false)) ∨
    ((sp.sql_pool index).locked = false ∧
      ∃ node, tryNode sp index trial = (releaseNode (sp.set index node) index, false)) ∨
    ((sp.sql_pool index).locked = false ∧ ∃ node,
      reconnected sp { sp.sql_pool index with locked := true } trial.connect = (0, node) ∧ trial.ping = 0 ∧
      tryNode sp index trial =
        ({ sp.set index { node with used := 1 } with busy_number := sp.busy_number + 1 }, true)) := by
  cases hLocked : (sp.sql_pool index).locked with
  | true => exact .inl ⟨rfl, if_pos hLocked⟩
  | false =>
    rw [tryNode, if_neg (by simp [hLocked])]
    obtain ⟨res, node⟩ := reconnected sp { sp.sql_pool index with locked := true } trial.connect
    by_cases hRes : res = 0
    · by_cases hPing : trial.ping = 0
      · exact .inr (.inr ⟨rfl, node, by rw [hRes], hPing, by simp [hRes, hPing]⟩)
      · exact .inr (.inl ⟨rfl, { node with sql_state := .disconn }, by simp [hRes, hPing]⟩)
    · exact .inr (.inl ⟨rfl, node, by simp [hRes]⟩)

theorem tryNode_locked {sp : SqlConnPool} {index : Nat} (h : (sp.sql_pool index).locked = true) (t : Trial) :
    tryNode sp index t = (sp, false) := if_pos h

theorem tryNode_answers {sp : SqlConnPool} {index : Nat} {t : Trial} (hFree : (sp.sql_pool index).locked = false)
    (hConn : (sp.sql_pool index).sql_state = .conn) (hPing : t.ping = 0) :
    tryNode sp index t =
      ({ sp.set index { sp.sql_pool index with locked := true, used := 1 } with
        busy_number := sp.busy_number + 1 }, true) := by
  have hReady := @reconnected_conn { sp.sql_pool index with locked := true } hConn sp t.connect
  simp [tryNode, hFree, hReady, hPing]

theorem tryNode_keeps (sp : SqlConnPool) (index : Nat) (trial : Trial) :
    (tryNode sp index trial).1.pool_number = sp.pool_number ∧ (tryNode sp index trial).1.shutdown = sp.shutdown := by
  obtain ⟨_, hTry⟩ | ⟨_, node, hTry⟩ | ⟨_, node, _, _, hTry⟩ := tryNode_cases sp index trial
  · rw [hTry]
    exact ⟨rfl, rfl⟩
  · rw [hTry]
    exact ⟨rfl, rfl⟩
  · rw [hTry]
    exact ⟨rfl, rfl⟩

theorem scan_keeps (trial : Nat → Trial) (indices : List Nat) (sp : SqlConnPool) :
    (scan trial indices sp).1.pool_number = sp.pool_number ∧ (scan trial indices sp).1.shutdown = sp.shutdown := by
  induction indices generalizing sp with
  | nil => exact ⟨rfl, rfl⟩
  | cons index rest ih =>
    obtain ⟨hNumber, hShutdown⟩ := tryNode_keeps sp index (trial index)
    rw [scan]
    split
    · rename_i hTry
      rw [hTry] at hNumber hShutdown
      exact ⟨hNumber, hShutdown⟩
    · rename_i hTry
      rw [hTry] at hNumber hShutdown
      obtain ⟨hRest, hRestShut⟩ := ih _
      exact ⟨hRest.trans hNumber, hRestShut.trans hShutdown⟩

theorem mem_order {pool_number start_index index : Nat} (h : index ∈ order pool_number start_index) :
    index < pool_number := by
  obtain ⟨i, hi, rfl⟩ := List.mem_map.mp h
  exact Nat.mod_lt _ (Nat.zero_lt_of_lt (List.mem_range.mp hi))

theorem createDbConnect_cases (sp : SqlConnPool) (node : SqlNode) (connect : Connect) :
    (∃ s created, sp.shutdown = false ∧ connect = .connected s ∧ createDbConnect sp node connect = (0, created) ∧
        created = { node with locked := false, mysql_sock := some s, used := 0, sql_state := .conn }) ∨
      ((sp.shutdown = true ∨ ∀ s, connect ≠ .connected s) ∧ (createDbConnect sp node connect).1 ≠ 0) := by
  rw [createDbConnect]
  cases hShutdown : sp.shutdown with
  | true => exact .inr ⟨.inl rfl, by simp⟩
  | false =>
    cases connect with
    | noInit => exact .inr ⟨.inr (by simp), by simp⟩
    | refused => exact .inr ⟨.inr (by simp), by simp⟩
    | connected s => exact .inl ⟨s, _, rfl, rfl, rfl, rfl⟩

structure Fresh (node : SqlNode) : Prop where
  conn : node.sql_state = .conn
  free : node.locked = false
  unused : node.used = 0

theorem createDbConnect_fresh {sp : SqlConnPool} {node : SqlNode} {connect : Connect}
    (h : (createDbConnect sp node connect).1 = 0) : Fresh (createDbConnect sp node connect).2 := by
  obtain ⟨s, created, _, _, hEq, rfl⟩ | ⟨_, hFailed⟩ := createDbConnect_cases sp node connect
  · rw [hEq]
    exact ⟨rfl, rfl, rfl⟩
  · exact absurd h hFailed

section created

variable {P : SqlNode → Prop} (hIndex : ∀ node index, P node → P { node with index := index })

include hIndex

theorem addNode_all {sp : SqlConnPool} {node : SqlNode} (hNode : P node)
    (h : ∀ index < sp.pool_number, P (sp.sql_pool index)) :
    ∀ index < (sp.addNode sp.pool_number node).pool_number, P ((sp.addNode sp.pool_number node).sql_pool index) := by
  intro index hLt
  obtain rfl | hNe := eq_or_ne index sp.pool_number
  · rw [SqlConnPool.addNode, set_self]
    exact hIndex node sp.pool_number hNode
  · rw [SqlConnPool.addNode, set_of_ne hNe]
    exact h index (Nat.lt_of_le_of_ne (Nat.le_of_lt_succ hLt) hNe)

variable (hConnected : ∀ sp node connect,
  (createDbConnect sp node connect).1 = 0 → P (createDbConnect sp node connect).2)

include hConnected

theorem createNodes_all {connect : Nat → Connect} {count : Nat} {sp sp' : SqlConnPool}
    (h : createNodes connect (List.range' sp.pool_number count) sp = (sp', true))
    (hAll : ∀ index < sp.pool_number, P (sp.sql_pool index)) :
    sp'.shutdown = sp.shutdown ∧ sp'.pool_number = sp.pool_number + count ∧ sp'.busy_number = sp.busy_number ∧
      sp'.closed = sp.closed ∧ ∀ index < sp'.pool_number, P (sp'.sql_pool index) := by
  induction count generalizing sp with
  | zero =>
    cases h
    exact ⟨rfl, rfl, rfl, rfl, hAll⟩
  | succ count ih =>
    rw [List.range'_succ, createNodes] at h
    split at h
    · cases h
    · rename_i hRes
      have hNode := hConnected _ _ _ (not_not.mp hRes)
      obtain ⟨hShutdown, hNumber, hBusy, hClosed, hRest⟩ := ih h (addNode_all hIndex hNode hAll)
      refine ⟨hShutdown, ?_, hBusy, hClosed, hRest⟩
      rw [hNumber, SqlConnPool.addNode, Nat.add_assoc, Nat.add_comm 1]

theorem sqlPoolCreate_all {memory : Option (Nat → SqlNode)} {connect_pool_number : Int} {connect : Nat → Connect}
    {sp : SqlConnPool} (h : (sqlPoolCreate memory connect_pool_number connect).1 = some sp) :
    sp.shutdown = false ∧ sp.pool_number = corrected connect_pool_number ∧ sp.busy_number = 0 ∧
      sp.closed = [] ∧ ∀ index < sp.pool_number, P (sp.sql_pool index) := by
  unfold sqlPoolCreate at h
  cases memory with
  | none => cases h
  | some sql_pool =>
    dsimp only at h
    split at h
    · rename_i created hNodes
      cases h
      rw [List.range_eq_range'] at hNodes
      obtain ⟨hShutdown, hNumber, hBusy, hClosed, hAll⟩ := @createNodes_all P hIndex hConnected connect _
        ⟨false, sql_pool, 0, 0, []⟩ sp hNodes (fun _ hNone => absurd hNone (Nat.not_lt_zero _))
      exact ⟨hShutdown, hNumber.trans (Nat.zero_add _), hBusy, hClosed, hAll⟩
    · cases h

end created

theorem corrected_range (connect_pool_number : Int) :
    0 < corrected connect_pool_number ∧ corrected connect_pool_number ≤ poolMaxNumber := by
  have hMax : poolMaxNumber = 20 := rfl
  rw [corrected]
  constructor
  · repeat' split
    all_goals omega
  · repeat' split
    all_goals omega

theorem sqlPoolCreate_some {memory : Option (Nat → SqlNode)} {connect_pool_number : Int} {connect : Nat → Connect}
    {sp : SqlConnPool} (h : (sqlPoolCreate memory connect_pool_number connect).1 = some sp) :
    sp.shutdown = false ∧ sp.pool_number = corrected connect_pool_number ∧ sp.busy_number = 0 ∧
      sp.closed = [] ∧ ∀ index < sp.pool_number, Fresh (sp.sql_pool index) := by
  apply sqlPoolCreate_all
  · intro node index hNode
    exact ⟨hNode.conn, hNode.free, hNode.unused⟩
  · intro sp node connect
    exact createDbConnect_fresh
  · exact h

def blank : SqlNode := ⟨none, false, 0, 0, .disconn⟩

def opened : Nat → Connect := fun index => .connected index

end MonitorSystem.DbPool
