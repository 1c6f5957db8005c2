import MonitorSystem.ParseValue
import MonitorSystem.Insert

/-! # The memory that reports take

The client builds the tree of a report, and the server parses the text to a tree
of its own. Neither is deleted on the way of a report that is sent and inserted,
so what both processes have allocated grows with every report.
-/

namespace MonitorSystem.Leaks

open Msg CJson Report Lib.CString Lib.Cleanup Parsing
open MonitorSystem.Insert (Effect strcatSql sqlSize headOf memHead memItems cpuHead cpuItems diskHead diskItems
  sysHead sysItems)

section Model

variable (grants : Nat → Bool)

def cJSONCreateString (string : Option Bytes) : Parser (Nat × Data) := do
  let item ← allocate grants
  match string with
  | none => do
    deallocate item
    Step.fail
  | some string => do
    let valuestring ← (allocate grants).onFail (deallocate item)
    return (item, .string ⟨valuestring, string⟩)

/-- An object under construction: its block and its members. -/
abbrev Object := Nat × List (Nat × Text × Data)

/-- The item gets a copy of the name; without that, or without an object, it is deleted. -/
def addItem (object : Option Object) (name : Bytes) (string : Option Bytes) : Parser Object := do
  let item ← cJSONCreateString grants string
  match object with
  | none => do
    cJSONDelete item
    Step.fail
  | some object => do
    let newKey ← (allocate grants).onFail (cJSONDelete item)
    return (object.1, object.2 ++ [(item.1, ⟨newKey, name⟩, item.2)])

def cJSONAddStringToObject (object : Option Object) (name : Bytes) (string : Option Bytes) : Parser (Option Object) := do
  let added ← (addItem grants object name string).attempt
  match added with
  | some object => return some object
  | none => return object

def addStrings : List (Bytes × Option Bytes) → Option Object → Parser (Option Object)
  | [], object => pure object
  | (name, string) :: next, object => do
    let object ← cJSONAddStringToObject grants object name string
    addStrings next object

/-- The tree that send_data_to_server prints; the result of cJSON_CreateObject is not looked at. -/
def createReport (fields : List (Bytes × Option Bytes)) : Parser (Option (Nat × Data)) := do
  let item ← (allocate grants).attempt
  let object ← addStrings grants fields (item.map fun block => (block, []))
  return object.map fun object => (object.1, .object object.2)

/-- One branch, with the tree of the text in memory: a null item, a null valuestring or a text too
long for sql is undefined. -/
def branch (head : Bytes) (items : List Bytes) (msg : MonitorMsgDs) : Parser (Option Bytes) := do
  moveTo 0
  let mem_data ← (cJSONParse grants msg.text).attempt
  let parsed := mem_data.map fun item => value item.2
  match items.mapM fun name => (cJSONGetObjectItem parsed name).bind CJSON.valuestring with
  | none => Step.undefined
  | some values =>
    if (strcatSql head values).length < sqlSize then return some (strcatSql head values) else Step.undefined

def dealWithMonitorMsg (msg : MonitorMsgDs) : Parser (Option Bytes) :=
  if msg.type = sysMem then branch grants memHead memItems msg
  else if msg.type = sysCpu then branch grants cpuHead cpuItems msg
  else if msg.type = sysDisk then branch grants diskHead diskItems msg
  else if msg.type = sysSys then branch grants sysHead sysItems msg
  else return none

def handleAll : List MonitorMsgDs → Parser (List Bytes)
  | [] => pure []
  | msg :: next => do
    let sql ← dealWithMonitorMsg grants msg
    let sqls ← handleAll next
    return sql.toList ++ sqls

end Model

def present (fields : List (Bytes × Option Bytes)) : List (Bytes × Bytes) :=
  fields.filterMap fun field => field.2.map fun string => (field.1, string)

mutual

def size : CJSON → Nat
  | .null | .false | .true | .number _ => 0
  | .string _ => 1
  | .array child => sizes child
  | .object child => memberSizes child

def sizes : List CJSON → Nat
  | [] => 0
  | v :: next => size v + sizes next + 1

def memberSizes : List (Bytes × CJSON) → Nat
  | [] => 0
  | (_, v) :: next => size v + memberSizes next + 2

end

def treeSize (text : Bytes) : Nat := match CJson.cJSONParse text with
  | some v => size v + 1
  | none => 0

section Client

variable {grants : Nat → Bool} {p : ParseBuffer} {live : Multiset Nat}

theorem createString_spec (string : Option Bytes) : (cJSONCreateString grants string).Meets p
    (fun item q => q.live = p.live + itemBlocks item ∧ ∃ s, string = some s ∧ value item.2 = .string s)
    (fun q => q.live = p.live ∧ (string = none ∨ ∃ n, grants n = false)) := by
  refine (allocate_spec.mono (fun _ _ h => h) fun q hq => ⟨hq.1, .inr hq.2⟩).bind ?_
  rintro item q ⟨_, hItem⟩
  cases string with
  | none =>
    refine (deallocate_spec hItem).bind ?_
    rintro _ t ⟨_, hFreed⟩
    exact Step.Meets.fail ⟨hFreed, .inl rfl⟩
  | some s =>
    refine Step.Meets.bind (Step.Meets.onFail allocate_spec ?_) ?_
    · rintro t ⟨hSame, hDenied⟩
      refine (deallocate_spec (hSame.trans hItem)).mono ?_ fun _ h => h
      rintro _ u ⟨_, hFreed⟩
      exact ⟨hFreed, .inr hDenied⟩
    · rintro copy t ⟨_, hCopy⟩
      refine Step.Meets.pure ⟨?_, s, rfl, rfl⟩
      rw [hCopy, hItem, itemBlocks, blocks, Multiset.add_cons, add_comm p.live, Multiset.singleton_add, Multiset.cons_swap]

theorem addItem_none (name : Bytes) (string : Option Bytes) :
    (addItem grants none name string).Meets p (fun _ _ => False) (fun q => q.live = p.live) := by
  refine ((createString_spec string).mono (fun _ _ h => h) fun _ h => h.1).bind ?_
  rintro item q ⟨hItem, _⟩
  refine (cJSONDelete_spec item q p.live (fun t => t.live = p.live) hItem).bind ?_
  rintro _ t ⟨_, hFreed⟩
  exact Step.Meets.fail hFreed

theorem addItem_spec {block : Nat} {members : List (Nat × Text × Data)} (hLive : p.live = live + memberBlocks members)
    (name : Bytes) (string : Option Bytes) : (addItem grants (some (block, members)) name string).Meets p
      (fun object q => object.1 = block ∧ q.live = live + memberBlocks object.2 ∧
        ∃ s, string = some s ∧ memberValues object.2 = memberValues members ++ [(name, .string s)])
      (fun q => q.live = p.live ∧ (string = none ∨ ∃ n, grants n = false)) := by
  refine (createString_spec string).bind ?_
  rintro item q ⟨hItem, s, hString, hValue⟩
  refine Step.Meets.bind (Step.Meets.onFail allocate_spec ?_) ?_
  · rintro t ⟨hSame, hDenied⟩
    refine (cJSONDelete_spec item t p.live _ (hSame.trans hItem)).mono ?_ fun _ h => h
    rintro _ u ⟨_, hFreed⟩
    exact ⟨hFreed, .inr hDenied⟩
  · rintro newKey t ⟨_, hKey⟩
    refine Step.Meets.pure ⟨rfl, ?_, s, hString, ?_⟩
    · rw [hKey, hItem, hLive, memberBlocks_append, itemBlocks, memberBlocks, memberBlocks, add_zero]
      simp only [Multiset.add_cons, add_assoc]
      exact Multiset.cons_swap _ _ _
    · rw [memberValues_eq, memberValues_eq, List.map_append, List.map_singleton, hValue]

theorem addString_none (name : Bytes) (string : Option Bytes) :
    (cJSONAddStringToObject grants none name string).Meets p (fun object q => object = none ∧ q.live = p.live)
      (fun _ => False) := by
  have hAdded : (addItem grants none name string).attempt.Meets p (fun r q => r = none ∧ q.live = p.live)
      (fun _ => False) :=
    (addItem_none name string).attempt (fun _ _ h => h.elim) fun q hq => ⟨rfl, hq⟩
  refine hAdded.bind ?_
  rintro r q ⟨rfl, hLeft⟩
  exact Step.Meets.pure ⟨rfl, hLeft⟩

theorem addString_spec {block : Nat} {members : List (Nat × Text × Data)} (hLive : p.live = live + memberBlocks members)
    (name : Bytes) (string : Option Bytes) : (cJSONAddStringToObject grants (some (block, members)) name string).Meets p
      (fun object q => ∃ added, object = some (block, added) ∧ q.live = live + memberBlocks added ∧
        ((∃ s, string = some s ∧ memberValues added = memberValues members ++ [(name, .string s)]) ∨
          added = members ∧ (string = none ∨ ∃ n, grants n = false)))
      (fun _ => False) := by
  have hAdded : (addItem grants (some (block, members)) name string).attempt.Meets p
      (fun r q => (∃ object, r = some object ∧ object.1 = block ∧ q.live = live + memberBlocks object.2 ∧
          ∃ s, string = some s ∧ memberValues object.2 = memberValues members ++ [(name, .string s)]) ∨
        r = none ∧ q.live = p.live ∧ (string = none ∨ ∃ n, grants n = false)) (fun _ => False) :=
    (addItem_spec hLive name string).attempt (fun object q hq => .inl ⟨object, rfl, hq⟩) fun q hq => .inr ⟨rfl, hq⟩
  refine hAdded.bind ?_
  rintro r q (⟨object, rfl, rfl, hLeft, hString⟩ | ⟨rfl, hLeft, hNone⟩)
  · exact Step.Meets.pure ⟨object.2, rfl, hLeft, .inl hString⟩
  · exact Step.Meets.pure ⟨members, rfl, hLeft.trans hLive, .inr ⟨rfl, hNone⟩⟩

theorem present_cons (name : Bytes) (string : Option Bytes) (next : List (Bytes × Option Bytes)) :
    present ((name, string) :: next) = (string.map fun s => (name, s)).toList ++ present next := by
  cases string <;> rfl

theorem addStrings_none (fields : List (Bytes × Option Bytes)) :
    (addStrings grants fields none).Meets p (fun object q => object = none ∧ q.live = p.live) (fun _ => False) := by
  induction fields generalizing p with
  | nil => exact Step.Meets.pure ⟨rfl, rfl⟩
  | cons field next ih =>
    obtain ⟨name, string⟩ := field
    refine (addString_none name string).bind ?_
    rintro object q ⟨rfl, hLeft⟩
    refine ih.mono ?_ fun _ h => h
    rintro object t ⟨hNone, hAll⟩
    exact ⟨hNone, hAll.trans hLeft⟩

theorem addStrings_spec (fields : List (Bytes × Option Bytes)) {block : Nat} {members : List (Nat × Text × Data)}
    (hLive : p.live = live + memberBlocks members) : (addStrings grants fields (some (block, members))).Meets p
      (fun object q => ∃ added, object = some (block, added) ∧ q.live = live + memberBlocks added ∧
        ∃ kept, kept.Sublist (present fields) ∧
          memberValues added = memberValues members ++ kept.map (fun m => (m.1, .string m.2)) ∧
          (kept = present fields ∨ ∃ n, grants n = false))
      (fun _ => False) := by
  induction fields generalizing p members with
  | nil => exact Step.Meets.pure ⟨members, rfl, hLive, [], List.Sublist.refl _, (List.append_nil _).symm, .inl rfl⟩
  | cons field next ih =>
    obtain ⟨name, string⟩ := field
    rw [addStrings, present_cons]
    refine (addString_spec hLive name string).bind ?_
    rintro object q ⟨added, rfl, hLeft, ⟨s, rfl, hValues⟩ | ⟨rfl, hNone⟩⟩
    · refine (ih hLeft).mono ?_ fun _ h => h
      rintro object t ⟨all, rfl, hAll, kept, hKept, hText, hWhole⟩
      refine ⟨all, rfl, hAll, (name, s) :: kept, hKept.cons_cons _, ?_, hWhole.imp_left fun hEq => by rw [hEq]; rfl⟩
      rw [hText, hValues, List.append_assoc]
      rfl
    · refine (ih hLeft).mono ?_ fun _ h => h
      rintro object t ⟨all, rfl, hAll, kept, hKept, hText, hWhole⟩
      refine ⟨all, rfl, hAll, kept, hKept.trans (List.sublist_append_right _ _), hText, ?_⟩
      obtain rfl | hDenied := hNone
      · exact hWhole
      · exact .inr hDenied

theorem allocate_attempt : (allocate grants).attempt.Meets p
    (fun r q => (∃ block, r = some block ∧ grants p.requests = true ∧ q.live = block ::ₘ p.live) ∨
      r = none ∧ grants p.requests = false ∧ q.live = p.live) (fun _ => False) := by
  cases hGrant : grants p.requests with
  | true =>
    rw [Step.Meets, Step.attempt, allocate, if_pos hGrant]
    exact .inl ⟨p.requests, rfl, rfl, rfl⟩
  | false =>
    rw [Step.Meets, Step.attempt, allocate, if_neg (by rw [hGrant]; exact Bool.false_ne_true)]
    exact .inr ⟨rfl, rfl, rfl⟩

/-- There is no report when the first allocation fails, and then nothing stays allocated. Otherwise it is an
object of some of the strings in their order, all of them when no allocation fails, and there are no other
blocks than those of the report. -/
theorem createReport_spec (grants : Nat → Bool) (fields : List (Bytes × Option Bytes)) (p : ParseBuffer) :
    (createReport grants fields).Meets p
      (fun report q =>
        (∃ item, report = some item ∧ grants p.requests = true ∧ q.live = p.live + itemBlocks item ∧
          ∃ kept, kept.Sublist (present fields) ∧ value item.2 = .object (kept.map fun m => (m.1, .string m.2)) ∧
            (kept = present fields ∨ ∃ n, grants n = false)) ∨
        report = none ∧ grants p.requests = false ∧ q.live = p.live)
      (fun _ => False) := by
  refine allocate_attempt.bind ?_
  rintro r q (⟨block, rfl, hGrant, hItem⟩ | ⟨rfl, hDenied, hSame⟩)
  · have hStart : q.live = (block ::ₘ p.live) + memberBlocks [] := by rw [hItem, memberBlocks, add_zero]
    refine (addStrings_spec fields hStart).bind ?_
    rintro object t ⟨members, rfl, hLeft, kept, hKept, hText, hWhole⟩
    refine Step.Meets.pure (.inl ⟨(block, .object members), rfl, hGrant, ?_, kept, hKept, ?_, hWhole⟩)
    · rw [hLeft, itemBlocks, blocks, Multiset.cons_add, Multiset.add_cons]
    · rw [value, hText, memberValues, List.nil_append]
  · refine (addStrings_none fields).bind ?_
    rintro object t ⟨rfl, hLeft⟩
    exact Step.Meets.pure (.inr ⟨rfl, hDenied, hLeft.trans hSame⟩)

end Client

section Server

variable {grants : Nat → Bool} {p : ParseBuffer}

theorem branch_ne_nothing (head : Bytes) (items : List Bytes) (msg : MonitorMsgDs) :
    Insert.branch head items msg ≠ .nothing := by
  rw [Insert.branch]
  split
  · exact Effect.noConfusion
  · split <;> exact Effect.noConfusion

theorem card_elementBlocks {child : List (Nat × Data)} (h : ∀ e ∈ child, (blocks e.2).card = size (value e.2)) :
    (elementBlocks child).card = sizes (elementValues child) := by
  induction child with
  | nil => rfl
  | cons e next ih =>
    obtain ⟨block, data⟩ := e
    have hOne : (blocks data).card = size (value data) := h _ List.mem_cons_self
    rw [elementBlocks, elementValues, sizes, Multiset.card_cons, Multiset.card_add,
      ih fun e he => h e (List.mem_cons_of_mem _ he), hOne]

theorem card_memberBlocks {child : List (Nat × Text × Data)} (h : ∀ m ∈ child, (blocks m.2.2).card = size (value m.2.2)) :
    (memberBlocks child).card = memberSizes (memberValues child) := by
  induction child with
  | nil => rfl
  | cons m next ih =>
    obtain ⟨block, name, data⟩ := m
    have hOne : (blocks data).card = size (value data) := h _ List.mem_cons_self
    rw [memberBlocks, memberValues, memberSizes, Multiset.card_cons, Multiset.card_cons, Multiset.card_add,
      ih fun m hm => h m (List.mem_cons_of_mem _ hm), hOne]

theorem card_blocks (data : Data) : (blocks data).card = size (value data) := by
  induction data using Data.cases_in with
  | hNull => rfl
  | hFalse => rfl
  | hTrue => rfl
  | hNumber text => rfl
  | hString s => rfl
  | hArray child ih => exact card_elementBlocks ih
  | hObject child ih => exact card_memberBlocks ih

theorem parse_run (hGrants : ∀ n, grants n = true) (hStart : p.offset = 0) (text : Bytes) :
    ∃ r q, (cJSONParse grants text).attempt p = some (some r, q) ∧
      (r.map fun item => value item.2) = CJson.cJSONParse text ∧ q.live.card = p.live.card + treeSize text := by
  have hParse : (cJSONParse grants text).attempt.Meets p
      (fun r q => (r.map fun item => value item.2) = CJson.cJSONParse text ∧ q.live.card = p.live.card + treeSize text)
      (fun _ => False) := by
    refine (cJSONParse_spec grants text hStart).attempt ?_ ?_
    · rintro item q ⟨hText, hLive⟩
      refine ⟨hText.symm, ?_⟩
      rw [hLive, Multiset.card_add, itemBlocks, Multiset.card_cons, card_blocks, treeSize, hText]
    · rintro q ⟨hLive, hNone | ⟨n, hDenied⟩⟩
      · rw [treeSize, hNone, hLive]
        exact ⟨rfl, rfl⟩
      · rw [hGrants n] at hDenied
        cases hDenied
  exact hParse.result

def ended (q : ParseBuffer) : Effect → Option (Option (Option Bytes) × ParseBuffer)
  | .nothing => some (some none, q)
  | .query sql => some (some (some sql), q)
  | .fault => none

theorem branch_run (hGrants : ∀ n, grants n = true) (head : Bytes) (items : List Bytes) (msg : MonitorMsgDs) :
    ∃ q, q.live.card = p.live.card + treeSize msg.text ∧
      branch grants head items msg p = ended q (Insert.branch head items msg) := by
  obtain ⟨r, q, hRun, hValue, hCard⟩ := @parse_run grants { p with offset := 0 } hGrants rfl msg.text
  refine ⟨q, hCard, ?_⟩
  have hMove : moveTo 0 p = some (some (), { p with offset := 0 }) := rfl
  rw [branch, Step.bind_of_some hMove, Step.bind_of_some hRun, Insert.branch]
  rw [hValue]
  cases items.mapM fun name => (cJSONGetObjectItem (CJson.cJSONParse msg.text) name).bind CJSON.valuestring with
  | none => rfl
  | some values =>
    dsimp only
    split <;> rfl

theorem dealWithMonitorMsg_run (hGrants : ∀ n, grants n = true) (msg : MonitorMsgDs) :
    ∃ q, q.live.card = p.live.card + (if Insert.dealWithMonitorMsg msg = .nothing then 0 else treeSize msg.text) ∧
      dealWithMonitorMsg grants msg p = ended q (Insert.dealWithMonitorMsg msg) := by
  have hBranch : ∀ head items, ∃ q,
      q.live.card = p.live.card + (if Insert.branch head items msg = .nothing then 0 else treeSize msg.text) ∧
        branch grants head items msg p = ended q (Insert.branch head items msg) := by
    intro head items
    rw [if_neg (branch_ne_nothing head items msg)]
    exact branch_run hGrants head items msg
  rw [dealWithMonitorMsg, Insert.dealWithMonitorMsg]
  split
  · exact hBranch memHead memItems
  split
  · exact hBranch cpuHead cpuItems
  split
  · exact hBranch diskHead diskItems
  split
  · exact hBranch sysHead sysItems
  · exact ⟨p, rfl, rfl⟩

theorem memberSizes_strings (members : List (Bytes × Bytes)) :
    memberSizes (members.map fun m => (m.1, .string m.2)) = 3 * members.length := by
  induction members with
  | nil => rfl
  | cons m next ih =>
    rw [List.map_cons, memberSizes, ih, size, List.length_cons]
    omega

theorem treeSize_printed (members : List (Bytes × Bytes)) (rest : Bytes) :
    treeSize (cJSONPrint members ++ rest) = 3 * members.length + 1 := by
  rw [treeSize, cJSONParse_cJSONPrint]
  dsimp only
  rw [size, memberSizes_strings]

/-- A message with a report that has all members, and whose statement fits into sql. -/
structure Complete where
  kind : Kind
  values : List Bytes
  msg : MonitorMsgDs
  type_eq : msg.type = kind.type
  printed : cJSONPrint (kind.columns.zip values) <+: msg.text
  allColumns : values.length = kind.columns.length
  noNul : ∀ v ∈ values, 0 ∉ v
  fits : (strcatSql (headOf kind) values).length < sqlSize

def Complete.sql (report : Complete) : Bytes := strcatSql (headOf report.kind) report.values

theorem Complete.effect (report : Complete) : Insert.dealWithMonitorMsg report.msg = .query report.sql := by
  rw [Insert.dealWithMonitorMsg_kind report.type_eq]
  exact Insert.branch_printed report.printed report.allColumns report.noNul _ report.fits

theorem Complete.tree (report : Complete) : treeSize report.msg.text = 3 * report.kind.columns.length + 1 := by
  obtain ⟨rest, hRest⟩ := report.printed
  rw [← hRest, treeSize_printed, List.length_zip, report.allColumns, Nat.min_self]

/-- Every report that the server inserts takes three blocks for each member and one more, for good. -/
theorem reports_leak (grants : Nat → Bool) (hGrants : ∀ n, grants n = true) (reports : List Complete) (p : ParseBuffer) :
    (handleAll grants (reports.map Complete.msg)).Meets p
      (fun sqls q => sqls.map Effect.query = reports.map (fun report => Insert.dealWithMonitorMsg report.msg) ∧
        q.live.card = p.live.card + (reports.map fun report => 3 * report.kind.columns.length + 1).sum)
      (fun _ => False) := by
  induction reports generalizing p with
  | nil => exact Step.Meets.pure ⟨rfl, rfl⟩
  | cons report next ih =>
    obtain ⟨q, hCard, hRun⟩ := @dealWithMonitorMsg_run grants p hGrants report.msg
    rw [report.effect] at hCard hRun
    rw [if_neg (by simp), report.tree] at hCard
    refine Step.Meets.next hRun ((ih q).bind ?_)
    rintro sqls t ⟨hSqls, hLeft⟩
    refine Step.Meets.pure ⟨?_, ?_⟩
    · rw [List.map_append, hSqls, List.map_cons, report.effect]
      rfl
    · rw [hLeft, hCard, List.map_cons, List.sum_cons, add_assoc]

def memValues : List Bytes := [lit "2021-12-13 10:00:00", lit "15", lit "4", lit "27", lit "30"]

def diskValues : List Bytes := [lit "2021-12-13 10:00:01", lit "500", lit "120", lit "380", lit "24%"]

def sentMessage (kind : Kind) (values : List Bytes) (hFits : (cJSONPrint (kind.columns.zip values)).length < msgBuffSize) :
    MonitorMsgDs where
  type := kind.type
  buff := cJSONPrint (kind.columns.zip values) ++
    0 :: List.replicate (msgBuffSize - (cJSONPrint (kind.columns.zip values)).length - 1) 0
  buff_length := by
    rw [List.length_append, List.length_cons, List.length_replicate]
    omega

def Complete.sent (kind : Kind) (values : List Bytes) (hFits : (cJSONPrint (kind.columns.zip values)).length < msgBuffSize)
    (hColumns : values.length = kind.columns.length) (hNoNul : ∀ v ∈ values, 0 ∉ v)
    (hSql : (strcatSql (headOf kind) values).length < sqlSize) : Complete where
  kind := kind
  values := values
  msg := sentMessage kind values hFits
  type_eq := rfl
  printed := by
    have hText : (sentMessage kind values hFits).text = cJSONPrint (kind.columns.zip values) :=
      cstr_terminated (noNul_cJSONPrint _) _
    exact ⟨[], by rw [List.append_nil, hText]⟩
  allColumns := hColumns
  noNul := hNoNul
  fits := hSql

def memReport : Complete :=
  Complete.sent .mem memValues (by decide +kernel) (by decide +kernel) (by decide +kernel) (by decide +kernel)

def diskReport : Complete :=
  Complete.sent .disk diskValues (by decide +kernel) (by decide +kernel) (by decide +kernel) (by decide +kernel)

/-- A thousand reports of each of two kinds. -/
theorem reports_leak_thousand : (handleAll (fun _ => true)
    ((List.replicate 1000 [memReport, diskReport]).flatten.map Complete.msg)).Meets ⟨0, 0, 0⟩
      (fun sqls q => sqls.length = 2000 ∧ q.live.card = 32000) (fun _ => False) := by
  generalize hReports : (List.replicate 1000 [memReport, diskReport]).flatten = reports
  refine (reports_leak (fun _ => true) (fun _ => rfl) reports ⟨0, 0, 0⟩).mono ?_ fun _ h => h
  rintro sqls q ⟨hSqls, hLeft⟩
  have hOne : ([memReport, diskReport].map fun report => 3 * report.kind.columns.length + 1).sum = 32 := by decide
  have hBlocks : (reports.map fun report => 3 * report.kind.columns.length + 1).sum = 32000 := by
    rw [← hReports, List.map_flatten, List.map_replicate, List.sum_flatten, List.map_replicate, List.sum_replicate_nat, hOne]
  constructor
  · have hLength := congrArg List.length hSqls
    rw [List.length_map, List.length_map] at hLength
    rw [hLength, ← hReports, List.length_flatten, List.map_replicate, List.sum_replicate_nat]
    rfl
  · rw [hLeft, hBlocks]
    rfl

end Server

end MonitorSystem.Leaks
