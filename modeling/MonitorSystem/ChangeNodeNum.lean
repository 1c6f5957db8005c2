import Mathlib.Data.List.Nodup
import MonitorSystem.DbPool
import MonitorSystem.Lib.Traverse

/-! # Closing the pool and changing its size

sql_pool_destroy runs to pool_number, which every iteration lowers.
-/

namespace MonitorSystem.ChangeNodeNum

open DbPool Lib.Traverse

def num : Nat := 5

/-- The loop that creates the nodes with the given indices; none where it uses a
node behind the end of the array. -/
def growNodes (connect : Nat → Connect) : List Nat → SqlConnPool → Option (SqlConnPool × Bool)
  | [], sp => some (sp, true)
  | index :: rest, sp =>
    if sp.shutdown = false ∧ poolMaxNumber ≤ index then none
    else
      let r := createDbConnect sp (sp.sql_pool index) (connect index)
      if r.1 ≠ 0 then some (sp.set index r.2, false) else growNodes connect rest (sp.addNode index r.2)

/-- The next node has the index below the argument. -/
def shrinkLoop (endindex : Int) : Nat → SqlConnPool → SqlConnPool
  | 0, sp => sp
  | index + 1, sp => if endindex < index then shrinkLoop endindex index (sp.closeNode index) else sp

/-- The pool, and whether it is returned and not NULL; none where it leaves the array. -/
def changeNodeNum (sp : SqlConnPool) (op : Int) (connect : Nat → Connect) : Option (SqlConnPool × Bool) :=
  if op = 1 then
    (growNodes connect (List.range' sp.pool_number num) sp).map fun r =>
      if r.2 = true then r else (sqlPoolDestroy r.1, false)
  else if op = 0 then some (shrinkLoop (sp.pool_number - num - 1) sp.pool_number sp, true)
  else some (sp, true)

def sock (sp : SqlConnPool) (index : Nat) : Option Nat := (sp.sql_pool index).mysql_sock

def handles (sp : SqlConnPool) : List Nat := (List.range sp.pool_number).filterMap (sock sp)

/-- Every connection was closed, once, and every node is marked. -/
structure Destroyed (sp sp' : SqlConnPool) : Prop where
  closed : sp'.closed.Perm (sp.closed ++ handles sp)
  disconn : ∀ index < sp.pool_number,
    sock sp' index = none ∧ (sp'.sql_pool index).sql_state = .disconn
  emptied : sp'.pool_number = 0

/-- The connections that are opened before one fails. -/
def openedBefore : List Connect → List Nat
  | .connected sock :: rest => sock :: openedBefore rest
  | _ => []

def opens (sp : SqlConnPool) (connect : Nat → Connect) (indices : List Nat) : List Nat :=
  if sp.shutdown = true then [] else openedBefore (indices.map connect)

section closing

variable {indices : List Nat} {sp : SqlConnPool}

theorem closeNode_self (sp : SqlConnPool) (index : Nat) :
    (sp.closeNode index).sql_pool index =
      { sp.sql_pool index with mysql_sock := none, sql_state := .disconn } := Function.update_self ..

theorem closeNode_of_ne {index other : Nat} (h : other ≠ index) (sp : SqlConnPool) :
    (sp.closeNode index).sql_pool other = sp.sql_pool other := Function.update_of_ne h ..

theorem closeNodes_number (indices : List Nat) (sp : SqlConnPool) :
    (indices.foldl SqlConnPool.closeNode sp).pool_number = sp.pool_number - indices.length := by
  induction indices generalizing sp with
  | nil => rfl
  | cons index indices ih =>
    rw [List.foldl_cons, ih, SqlConnPool.closeNode, List.length_cons, Nat.sub_sub, Nat.add_comm 1]

theorem closeNodes_closed (hNodup : indices.Nodup) (sp : SqlConnPool) :
    (indices.foldl SqlConnPool.closeNode sp).closed =
      sp.closed ++ indices.filterMap (sock sp) := by
  induction indices generalizing sp with
  | nil => exact (List.append_nil _).symm
  | cons index indices ih =>
    obtain ⟨hFresh, hRest⟩ := List.nodup_cons.mp hNodup
    have hSame : indices.filterMap (sock (sp.closeNode index)) = indices.filterMap (sock sp) := by
      apply List.filterMap_congr
      intro other hMem
      rw [sock, sock, closeNode_of_ne (ne_of_mem_of_not_mem hMem hFresh)]
    have hClosed : (sp.closeNode index).closed = sp.closed ++ (sock sp index).toList := rfl
    rw [List.foldl_cons, ih hRest, hSame, hClosed, List.append_assoc]
    cases hSock : sock sp index with
    | none => rw [List.filterMap_cons_none hSock, Option.toList_none, List.nil_append]
    | some _ => rw [List.filterMap_cons_some hSock, Option.toList_some, List.singleton_append]

theorem closeNodes_marked {index : Nat} (hNodup : indices.Nodup) (h : index ∈ indices) (sp : SqlConnPool) :
    sock (indices.foldl SqlConnPool.closeNode sp) index = none ∧
      ((indices.foldl SqlConnPool.closeNode sp).sql_pool index).sql_state = .disconn := by
  apply @foldl_visit _ _ SqlConnPool.closeNode (fun _ => True)
    (fun sp' => sock sp' index = none ∧ (sp'.sql_pool index).sql_state = .disconn) index
  · intro _ _ _ _
    trivial
  · intro sp' _
    rw [sock, closeNode_self]
    exact ⟨rfl, rfl⟩
  · intro sp' other hNe hMarked
    rw [sock, closeNode_of_ne hNe.symm]
    exact hMarked
  · exact hNodup
  · exact h
  · trivial

end closing

theorem destroyLoop_eq {fuel index : Nat} {sp : SqlConnPool} (h : sp.pool_number ≤ fuel + index) :
    destroyLoop fuel index sp =
      (List.range' index ((sp.pool_number - index + 1) / 2)).foldl SqlConnPool.closeNode sp := by
  induction fuel generalizing index sp with
  | zero =>
    have hDone : (sp.pool_number - index + 1) / 2 = 0 := by omega
    rw [hDone]
    rfl
  | succ fuel ih =>
    have hLess : (sp.closeNode index).pool_number = sp.pool_number - 1 := rfl
    rw [destroyLoop]
    split
    · rename_i hIndex
      have hCount : (sp.pool_number - index + 1) / 2 = (sp.pool_number - 1 - (index + 1) + 1) / 2 + 1 := by omega
      rw [ih (by omega), hLess, hCount, List.range'_succ, List.foldl_cons]
    · have hDone : (sp.pool_number - index + 1) / 2 = 0 := by omega
      rw [hDone]
      rfl

def half (sp : SqlConnPool) : Nat := (sp.pool_number + 1) / 2

theorem sqlPoolDestroy_eq (sp : SqlConnPool) :
    sqlPoolDestroy sp = (List.range (half sp)).foldl SqlConnPool.closeNode { sp with shutdown := true } := by
  have hLoop : sqlPoolDestroy sp = destroyLoop sp.pool_number 0 { sp with shutdown := true } := rfl
  rw [hLoop, destroyLoop_eq (Nat.le_refl _), List.range_eq_range']
  rfl

theorem sqlPoolDestroy_number (sp : SqlConnPool) :
    (sqlPoolDestroy sp).pool_number = sp.pool_number / 2 := by
  rw [sqlPoolDestroy_eq, closeNodes_number, List.length_range]
  change sp.pool_number - half sp = _
  rw [half]
  omega

theorem sqlPoolDestroy_closed (sp : SqlConnPool) :
    (sqlPoolDestroy sp).closed =
      sp.closed ++ (List.range (half sp)).filterMap (sock sp) := by
  rw [sqlPoolDestroy_eq, closeNodes_closed List.nodup_range]
  rfl

theorem destroyed_iff {sp : SqlConnPool} : Destroyed sp (sqlPoolDestroy sp) ↔ sp.pool_number ≤ 1 := by
  constructor
  · intro h
    have hNone := h.emptied
    rw [sqlPoolDestroy_number] at hNone
    omega
  · intro h
    have hHalf : half sp = sp.pool_number := by
      rw [half]
      omega
    constructor
    · rw [sqlPoolDestroy_closed, hHalf]
      rfl
    · intro index hIndex
      rw [sqlPoolDestroy_eq, hHalf]
      exact closeNodes_marked List.nodup_range (List.mem_range.mpr hIndex) _
    · rw [sqlPoolDestroy_number]
      omega

theorem closed_perm_iff {sp : SqlConnPool} :
    (sqlPoolDestroy sp).closed.Perm (sp.closed ++ handles sp) ↔
      ∀ index < sp.pool_number, half sp ≤ index → sock sp index = none := by
  have hSplit : List.range sp.pool_number = List.range (half sp) ++ List.range' (half sp) (sp.pool_number / 2) := by
    have hSum : sp.pool_number = half sp + sp.pool_number / 2 := by
      rw [half]
      omega
    conv_lhs => rw [hSum, List.range_eq_range', ← List.range'_append_1, Nat.zero_add, ← List.range_eq_range']
  have hRest : (sqlPoolDestroy sp).closed.Perm (sp.closed ++ handles sp) ↔
      (List.range' (half sp) (sp.pool_number / 2)).filterMap (sock sp) = [] := by
    rw [sqlPoolDestroy_closed, handles, hSplit, List.filterMap_append, ← List.append_assoc]
    constructor
    · intro hPerm
      have hLength := hPerm.length_eq
      simp only [List.length_append] at hLength
      exact List.eq_nil_of_length_eq_zero (by omega)
    · intro hNone
      rw [hNone, List.append_nil]
  rw [hRest, List.filterMap_eq_nil_iff]
  have hHalf : half sp = (sp.pool_number + 1) / 2 := rfl
  constructor
  · intro hAll index hIndex hUpper
    exact hAll index (List.mem_range'_1.mpr ⟨hUpper, by omega⟩)
  · intro hAll index hMem
    obtain ⟨hUpper, hIndex⟩ := List.mem_range'_1.mp hMem
    exact hAll index (by omega) hUpper

section creating

variable {connect : Nat → Connect} {sp : SqlConnPool}

theorem opens_connected {index s : Nat} (hLive : sp.shutdown = false) (h : connect index = .connected s)
    (rest : List Nat) : opens sp connect (index :: rest) = s :: opens sp connect rest := by
  rw [opens, opens, hLive, List.map_cons, h]
  rfl

theorem opens_failed {index : Nat} (h : sp.shutdown = true ∨ ∀ s, connect index ≠ .connected s) (rest : List Nat) :
    opens sp connect (index :: rest) = [] := by
  rw [opens]
  split
  · rfl
  · rename_i hLive
    rw [List.map_cons]
    cases hConnect : connect index with
    | noInit | refused => rfl
    | connected s => exact absurd hConnect (h.resolve_left hLive s)

theorem sock_addNode (sp : SqlConnPool) (node : SqlNode) :
    sock (sp.addNode sp.pool_number node) sp.pool_number = node.mysql_sock := by
  rw [sock, SqlConnPool.addNode, set_self]

theorem handles_set {index : Nat} (h : sp.pool_number ≤ index) (node : SqlNode) :
    handles (sp.set index node) = handles sp := by
  apply List.filterMap_congr
  intro other hMem
  rw [sock, sock, set_of_ne]
  exact Nat.ne_of_lt (Nat.lt_of_lt_of_le (List.mem_range.mp hMem) h)

theorem handles_addNode {node : SqlNode} {s : Nat} (h : node.mysql_sock = some s) :
    handles (sp.addNode sp.pool_number node) = handles sp ++ [s] := by
  have hOld := @handles_set sp sp.pool_number (Nat.le_refl _) { node with index := sp.pool_number }
  have hNumber : (sp.addNode sp.pool_number node).pool_number = sp.pool_number + 1 := rfl
  have hNew : sock (sp.addNode sp.pool_number node) sp.pool_number = some s := (sock_addNode sp node).trans h
  rw [handles, hNumber, List.range_succ, List.filterMap_append, List.filterMap_cons_some hNew, ← hOld]
  rfl

theorem createNodes_spec {count : Nat} {sp sp' : SqlConnPool} {done : Bool}
    (h : createNodes connect (List.range' sp.pool_number count) sp = (sp', done)) :
    sp'.closed = sp.closed ∧ handles sp' = handles sp ++ opens sp connect (List.range' sp.pool_number count) ∧
      sp'.pool_number = sp.pool_number + (opens sp connect (List.range' sp.pool_number count)).length ∧
      (done = true ↔ (opens sp connect (List.range' sp.pool_number count)).length = count) := by
  induction count generalizing sp with
  | zero =>
    obtain ⟨rfl, rfl⟩ := Prod.mk.inj h
    have hNone : opens sp connect (List.range' sp.pool_number 0) = [] := by
      rw [opens]
      split <;> rfl
    rw [hNone, List.append_nil]
    exact ⟨rfl, rfl, rfl, iff_of_true rfl rfl⟩
  | succ count ih =>
    rw [List.range'_succ, createNodes] at h
    rw [List.range'_succ]
    obtain ⟨s, created, hLive, hConnect, hCreated, hNode⟩ | ⟨hFailed, hRes⟩ :=
      createDbConnect_cases sp (sp.sql_pool sp.pool_number) (connect sp.pool_number)
    · have hSock : created.mysql_sock = some s := congrArg SqlNode.mysql_sock hNode
      rw [hCreated, if_neg (not_not.mpr rfl)] at h
      obtain ⟨hClosed, hHandles, hNumber, hDone⟩ := @ih (sp.addNode sp.pool_number _) h
      have hSame (node : SqlNode) : opens (sp.addNode sp.pool_number node) connect
          (List.range' (sp.pool_number + 1) count) = opens sp connect (List.range' (sp.pool_number + 1) count) := rfl
      have hNext (node : SqlNode) : (sp.addNode sp.pool_number node).pool_number = sp.pool_number + 1 := rfl
      rw [hNext, hSame] at hHandles hNumber hDone
      rw [opens_connected hLive hConnect, List.length_cons, hHandles, handles_addNode hSock, List.append_assoc]
      exact ⟨hClosed, rfl, by omega, hDone.trans Nat.succ_inj.symm⟩
    · rw [if_pos hRes] at h
      cases h
      rw [opens_failed hFailed, List.append_nil, handles_set (Nat.le_refl _)]
      exact ⟨rfl, rfl, rfl, by simp⟩

theorem createNodes_sock {count : Nat} {sp sp' : SqlConnPool} {done : Bool}
    (h : createNodes connect (List.range' sp.pool_number count) sp = (sp', done)) :
    (∀ index < sp.pool_number, sock sp' index = sock sp index) ∧
      ∀ index, sp.pool_number ≤ index → index < sp'.pool_number → sock sp' index ≠ none := by
  induction count generalizing sp with
  | zero =>
    obtain ⟨rfl, rfl⟩ := Prod.mk.inj h
    exact ⟨fun _ _ => rfl, fun index hLe hLt => absurd hLt (Nat.not_lt.mpr hLe)⟩
  | succ count ih =>
    rw [List.range'_succ, createNodes] at h
    obtain ⟨s, created, hLive, hConnect, hCreated, hNode⟩ | ⟨hFailed, hRes⟩ :=
      createDbConnect_cases sp (sp.sql_pool sp.pool_number) (connect sp.pool_number)
    · have hSock : created.mysql_sock = some s := congrArg SqlNode.mysql_sock hNode
      rw [hCreated, if_neg (not_not.mpr rfl)] at h
      obtain ⟨hOld, hNew⟩ := @ih (sp.addNode sp.pool_number _) h
      constructor
      · intro index hIndex
        rw [hOld index (Nat.lt_succ_of_lt hIndex), sock, SqlConnPool.addNode, set_of_ne (Nat.ne_of_lt hIndex), sock]
      · intro index hLe hLt
        obtain rfl | hLt' := Nat.eq_or_lt_of_le hLe
        · rw [hOld _ (Nat.lt_succ_self _), sock_addNode, hSock]
          exact Option.some_ne_none s
        · exact hNew index hLt' hLt
    · rw [if_pos hRes] at h
      cases h
      constructor
      · intro index hIndex
        rw [sock, set_of_ne (Nat.ne_of_lt hIndex), sock]
      · intro index hLe hLt
        exact absurd hLt (Nat.not_lt.mpr hLe)

theorem failed_closed_iff {count : Nat} {sp sp' : SqlConnPool}
    (h : createNodes connect (List.range' sp.pool_number count) sp = (sp', false)) :
    (sqlPoolDestroy sp').closed.Perm (sp.closed ++ handles sp ++ opens sp connect (List.range' sp.pool_number count)) ↔
      sp.pool_number + (opens sp connect (List.range' sp.pool_number count)).length ≤ 1 ∨
        opens sp connect (List.range' sp.pool_number count) = [] ∧
          ∀ index < sp.pool_number, half sp ≤ index → sock sp index = none := by
  obtain ⟨hClosed, hHandles, hNumber, _⟩ := createNodes_spec h
  obtain ⟨hOld, hNew⟩ := createNodes_sock h
  have hHalf : half sp' = (sp'.pool_number + 1) / 2 := rfl
  rw [List.append_assoc, ← hHandles, ← hClosed, closed_perm_iff]
  cases hOpens : opens sp connect (List.range' sp.pool_number count) with
  | nil =>
    rw [hOpens, List.length_nil, Nat.add_zero] at hNumber
    have hSame : half sp' = half sp := congrArg (fun number => (number + 1) / 2) hNumber
    rw [hNumber, hSame, List.length_nil, Nat.add_zero]
    constructor
    · intro hAll
      refine .inr ⟨rfl, ?_⟩
      intro index hIndex hUpper
      rw [← hOld index hIndex]
      exact hAll index hIndex hUpper
    · rintro (hFew | ⟨_, hAll⟩) index hIndex hUpper
      · omega
      · rw [hOld index hIndex]
        exact hAll index hIndex hUpper
  | cons s rest =>
    rw [hOpens, List.length_cons] at hNumber
    rw [List.length_cons, or_iff_left (by rintro ⟨hNil, _⟩; cases hNil), ← hNumber]
    constructor
    · intro hAll
      by_contra hMany
      -- the last node is new and in the upper half
      exact hNew (sp'.pool_number - 1) (by omega) (by omega) (hAll _ (by omega) (by omega))
    · intro hFew index hIndex hUpper
      omega

end creating

def InArray (sp : SqlConnPool) (connect : Nat → Connect) (count : Nat) : Prop :=
  sp.shutdown = true ∨ ∀ k < count, k ≤ (opens sp connect (List.range' sp.pool_number count)).length →
    sp.pool_number + k < poolMaxNumber

instance (sp : SqlConnPool) (connect : Nat → Connect) (count : Nat) : Decidable (InArray sp connect count) :=
  inferInstanceAs (Decidable (_ ∨ ∀ k < count, _ → _))

theorem inArray_addNode {connect : Nat → Connect} {count : Nat} {sp : SqlConnPool}
    (hIn : sp.pool_number < poolMaxNumber) (node : SqlNode) :
    InArray (sp.addNode sp.pool_number node) connect count ↔ sp.shutdown = true ∨ ∀ k < count + 1,
      k ≤ (opens sp connect (List.range' (sp.pool_number + 1) count)).length + 1 → sp.pool_number + k < poolMaxNumber := by
  apply or_congr_right
  constructor
  · intro hAll k hCount hCreated
    cases k with
    | zero => exact hIn
    | succ k =>
      have hNext := hAll k (Nat.lt_of_succ_lt_succ hCount) (Nat.le_of_succ_le_succ hCreated)
      rwa [SqlConnPool.addNode, Nat.add_assoc, Nat.add_comm 1] at hNext
  · intro hAll k hCount hCreated
    have hNext := hAll (k + 1) (Nat.succ_lt_succ hCount) (Nat.succ_le_succ hCreated)
    rwa [SqlConnPool.addNode, Nat.add_assoc, Nat.add_comm 1]

theorem growNodes_eq (connect : Nat → Connect) (count : Nat) (sp : SqlConnPool) :
    (InArray sp connect count → growNodes connect (List.range' sp.pool_number count) sp =
        some (createNodes connect (List.range' sp.pool_number count) sp)) ∧
      (¬ InArray sp connect count → growNodes connect (List.range' sp.pool_number count) sp = none) := by
  induction count generalizing sp with
  | zero => exact ⟨fun _ => rfl, fun h => absurd (.inr fun _ hNone _ => absurd hNone (Nat.not_lt_zero _)) h⟩
  | succ count ih =>
    rw [InArray, List.range'_succ, growNodes, createNodes]
    by_cases hOut : sp.shutdown = false ∧ poolMaxNumber ≤ sp.pool_number
    · rw [if_pos hOut]
      refine ⟨fun h => ?_, fun _ => rfl⟩
      obtain hShutdown | hAll := h
      · rw [hOut.1] at hShutdown
        cases hShutdown
      · exact absurd (hAll 0 (Nat.succ_pos _) (Nat.zero_le _)) (Nat.not_lt.mpr hOut.2)
    · rw [if_neg hOut]
      dsimp only
      obtain ⟨s, created, hLive, hConnect, hCreated, _⟩ | ⟨hFailed, hRes⟩ :=
        createDbConnect_cases sp (sp.sql_pool sp.pool_number) (connect sp.pool_number)
      · have hIn : sp.pool_number < poolMaxNumber := Nat.not_le.mp fun h => hOut ⟨hLive, h⟩
        rw [hCreated, if_neg (not_not.mpr rfl), if_neg (not_not.mpr rfl), opens_connected hLive hConnect,
          List.length_cons, ← inArray_addNode hIn created]
        exact ih (sp.addNode sp.pool_number created)
      · rw [if_pos hRes, if_pos hRes, opens_failed hFailed]
        refine ⟨fun _ => rfl, fun h => absurd ?_ h⟩
        rw [List.length_nil]
        cases hShutdown : sp.shutdown with
        | true => exact .inl rfl
        | false =>
          refine .inr fun k _ hZero => ?_
          obtain rfl := Nat.le_zero.mp hZero
          exact Nat.not_le.mp fun h => hOut ⟨hShutdown, h⟩

/-- NULL is returned when every connection opened before has been closed. -/
def CreateCloses (sql_pool : Nat → SqlNode) (connect_pool_number : Int) (connect : Nat → Connect) : Prop :=
  ∀ closed, sqlPoolCreate (some sql_pool) connect_pool_number connect = (none, closed) →
    closed.Perm (openedBefore ((List.range (corrected connect_pool_number)).map connect))

def GrowCloses (sp : SqlConnPool) (connect : Nat → Connect) : Prop :=
  ∃ sp' returned, changeNodeNum sp 1 connect = some (sp', returned) ∧ (returned = false →
    sp'.closed.Perm (sp.closed ++ handles sp ++ opens sp connect (List.range' sp.pool_number num)))

theorem createCloses_iff {sql_pool : Nat → SqlNode} {connect_pool_number : Int} {connect : Nat → Connect} :
    CreateCloses sql_pool connect_pool_number connect ↔
      (openedBefore ((List.range (corrected connect_pool_number)).map connect)).length = corrected connect_pool_number ∨
        (openedBefore ((List.range (corrected connect_pool_number)).map connect)).length ≤ 1 := by
  cases hNodes : createNodes connect (List.range (corrected connect_pool_number)) ⟨false, sql_pool, 0, 0, []⟩ with
  | mk sp done =>
    have hCreate : sqlPoolCreate (some sql_pool) connect_pool_number connect =
        if done = true then (some sp, sp.closed) else (none, (sqlPoolDestroy sp).closed) := by
      rw [sqlPoolCreate, hNodes]
      cases done <;> rfl
    rw [List.range_eq_range'] at hNodes
    obtain ⟨_, _, _, hDone⟩ := @createNodes_spec connect _ ⟨false, sql_pool, 0, 0, []⟩ sp done hNodes
    rw [CreateCloses, hCreate, List.range_eq_range']
    cases done with
    | true =>
      refine iff_of_true (fun closed h => ?_) (.inl (hDone.mp rfl))
      cases h
    | false =>
      have hFailed : (sqlPoolDestroy sp).closed.Perm
            (openedBefore ((List.range' 0 (corrected connect_pool_number)).map connect)) ↔
          0 + (openedBefore ((List.range' 0 (corrected connect_pool_number)).map connect)).length ≤ 1 ∨
            openedBefore ((List.range' 0 (corrected connect_pool_number)).map connect) = [] ∧
              ∀ index < 0, half ⟨false, sql_pool, 0, 0, []⟩ ≤ index → (sql_pool index).mysql_sock = none :=
        @failed_closed_iff connect _ ⟨false, sql_pool, 0, 0, []⟩ sp hNodes
      rw [Nat.zero_add] at hFailed
      rw [or_iff_right (fun hAll => by cases hDone.mpr hAll)]
      constructor
      · intro hAll
        obtain hFew | ⟨hNone, _⟩ := hFailed.mp (hAll _ rfl)
        · exact hFew
        · rw [hNone]
          exact Nat.zero_le 1
      · intro hFew closed h
        cases h
        exact hFailed.mpr (.inl hFew)

theorem growCloses_iff {sp : SqlConnPool} {connect : Nat → Connect} :
    GrowCloses sp connect ↔ InArray sp connect num ∧
      ((opens sp connect (List.range' sp.pool_number num)).length = num ∨
        sp.pool_number + (opens sp connect (List.range' sp.pool_number num)).length ≤ 1 ∨
        opens sp connect (List.range' sp.pool_number num) = [] ∧
          ∀ index < sp.pool_number, half sp ≤ index → sock sp index = none) := by
  obtain ⟨hSome, hNone⟩ := growNodes_eq connect num sp
  by_cases hIn : InArray sp connect num
  · rw [and_iff_right hIn]
    cases hNodes : createNodes connect (List.range' sp.pool_number num) sp with
    | mk sp' done =>
      have hChange :
          changeNodeNum sp 1 connect = some (if done = true then (sp', done) else (sqlPoolDestroy sp', false)) := by
        rw [changeNodeNum, if_pos rfl, hSome hIn, hNodes]
        rfl
      obtain ⟨_, _, _, hDone⟩ := createNodes_spec hNodes
      rw [GrowCloses, hChange]
      cases done with
      | true =>
        refine iff_of_true ⟨sp', true, rfl, fun h => by cases h⟩ (.inl (hDone.mp rfl))
      | false =>
        rw [or_iff_right (fun hAll => by cases hDone.mpr hAll), ← failed_closed_iff hNodes]
        constructor
        · rintro ⟨destroyed, returned, hReturn, hClosed⟩
          cases hReturn
          exact hClosed rfl
        · intro hClosed
          exact ⟨sqlPoolDestroy sp', false, rfl, fun _ => hClosed⟩
  · refine iff_of_false ?_ (fun h => hIn h.1)
    rintro ⟨sp', returned, hReturn, _⟩
    rw [changeNodeNum, if_pos rfl, hNone hIn] at hReturn
    cases hReturn

/-- The destruction closes a pool of at most one connection. -/
theorem closes_iff (sp : SqlConnPool) (sql_pool : Nat → SqlNode) (connect_pool_number : Int)
    (connect : Nat → Connect) :
    (Destroyed sp (sqlPoolDestroy sp) ↔ sp.pool_number ≤ 1) ∧
    (CreateCloses sql_pool connect_pool_number connect ↔
      (openedBefore ((List.range (corrected connect_pool_number)).map connect)).length = corrected connect_pool_number ∨
        (openedBefore ((List.range (corrected connect_pool_number)).map connect)).length ≤ 1) ∧
    (GrowCloses sp connect ↔ InArray sp connect num ∧
      ((opens sp connect (List.range' sp.pool_number num)).length = num ∨
        sp.pool_number + (opens sp connect (List.range' sp.pool_number num)).length ≤ 1 ∨
        opens sp connect (List.range' sp.pool_number num) = [] ∧
          ∀ index < sp.pool_number, half sp ≤ index → sock sp index = none)) :=
  ⟨destroyed_iff, createCloses_iff, growCloses_iff⟩

def shrunk (sp : SqlConnPool) : List Nat :=
  (List.range' (sp.pool_number - num) (sp.pool_number - (sp.pool_number - num))).reverse

theorem shrinkLoop_eq {endindex : Int} {stop index : Nat} (hStop : ∀ i : Nat, endindex < i ↔ stop ≤ i)
    (sp : SqlConnPool) :
    shrinkLoop endindex index sp = (List.range' stop (index - stop)).reverse.foldl SqlConnPool.closeNode sp := by
  induction index generalizing sp with
  | zero =>
    rw [Nat.zero_sub]
    rfl
  | succ index ih =>
    rw [shrinkLoop]
    split
    · rename_i hMore
      have hLe := (hStop index).mp hMore
      rw [ih, Nat.succ_sub hLe, List.range'_1_concat, Nat.add_sub_cancel' hLe, List.reverse_append]
      rfl
    · rename_i hEnd
      have hLt : index < stop := Nat.not_le.mp fun h => hEnd ((hStop index).mpr h)
      rw [Nat.sub_eq_zero_of_le hLt]
      rfl

theorem changeNodeNum_shrink (sp : SqlConnPool) (connect : Nat → Connect) :
    changeNodeNum sp 0 connect = some ((shrunk sp).foldl SqlConnPool.closeNode sp, true) := by
  have hStop (i : Nat) : (sp.pool_number - num - 1 : Int) < i ↔ sp.pool_number - num ≤ i := by
    omega
  rw [changeNodeNum, if_neg (by decide), if_pos rfl, shrinkLoop_eq hStop]
  rfl

/-- Two connections are open, and one of them stays so. -/
theorem destroy_leaves_one : ¬ ((∀ sp, sp.pool_number ≤ poolMaxNumber → Destroyed sp (sqlPoolDestroy sp)) ∧
    (∀ sql_pool connect_pool_number connect, CreateCloses sql_pool connect_pool_number connect) ∧
    ∀ sp connect, sp.pool_number + num ≤ poolMaxNumber → GrowCloses sp connect) := by
  rintro ⟨hAll, _⟩
  have hTwo := hAll ⟨false, fun index => ⟨some index, false, 0, index, .conn⟩, 2, 0, []⟩ (by decide)
  cases hTwo.emptied

end MonitorSystem.ChangeNodeNum
