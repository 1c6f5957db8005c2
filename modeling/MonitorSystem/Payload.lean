import MonitorSystem.Insert

/-! # Payloads that the sender is free to choose

An authenticated client may put any 500 bytes behind one of the four data
types. cJSON_Parse takes the length of the payload with strlen, and the members
are used without a look at what the look-ups return.
-/

namespace MonitorSystem.Payload

open Msg CJson Report MonitorSystem.Insert Lib.CString

/-- The strings of the members that a branch reads, where every one of them is a string. -/
def strings (kind : Kind) (msg : MonitorMsgDs) : Option (List Bytes) :=
  kind.columns.mapM fun name => (cJSONGetObjectItem (cJSONParse msg.text) name).bind CJSON.valuestring

def isData (type : BitVec 64) : Bool := type = sysMem ∨ type = sysCpu ∨ type = sysDisk ∨ type = sysSys

/-- deal_with_monitor_msg on the memory of a message: without a terminator strlen reads past the payload. -/
def deal (msg : MonitorMsgDs) : Effect :=
  if isData msg.type ∧ 0 ∉ msg.buff then .fault else dealWithMonitorMsg msg

def Safe (kind : Kind) (msg : MonitorMsgDs) : Prop :=
  deal msg = .nothing ∨ ∃ values, strings kind msg = some values ∧ deal msg = .query (strcatSql (headOf kind) values)

/-- How many bytes of values fit sql[500]. -/
def room : Kind → Nat
  | .mem => 362
  | .cpu => 353
  | .disk => 382
  | .sys => 217

theorem isData_kind (kind : Kind) : isData kind.type = true := by
  cases kind <;> decide

theorem length_strcatSql {kind : Kind} {values : List Bytes} (h : values.length = kind.columns.length) :
    (strcatSql (headOf kind) values).length + room kind = values.flatten.length + 499 := by
  have hSep : (lit "', '").length = 4 := rfl
  have hEnd : (lit "')").length = 2 := rfl
  cases values with
  | nil => cases kind <;> cases h
  | cons value values =>
    rw [strcatSql, List.length_append, List.length_append, length_intercalate, hSep, hEnd]
    have hRest : values.length + 1 = kind.columns.length := h
    cases kind with
    | mem =>
      have hHead : (headOf .mem).length = 119 := by decide +kernel
      have hColumns : Kind.mem.columns.length = 5 := rfl
      have hRoom : room .mem = 362 := rfl
      omega
    | cpu =>
      have hHead : (headOf .cpu).length = 120 := by decide +kernel
      have hColumns : Kind.cpu.columns.length = 7 := rfl
      have hRoom : room .cpu = 353 := rfl
      omega
    | disk =>
      have hHead : (headOf .disk).length = 99 := by decide +kernel
      have hColumns : Kind.disk.columns.length = 5 := rfl
      have hRoom : room .disk = 382 := rfl
      omega
    | sys =>
      have hHead : (headOf .sys).length = 224 := by decide +kernel
      have hColumns : Kind.sys.columns.length = 15 := rfl
      have hRoom : room .sys = 217 := rfl
      omega

theorem deal_data {kind : Kind} {msg : MonitorMsgDs} (hType : msg.type = kind.type) (hEnd : 0 ∈ msg.buff) :
    deal msg = branch (headOf kind) kind.columns msg := by
  rw [deal, if_neg (fun h => h.2 hEnd), dealWithMonitorMsg_kind hType]

theorem deal_unterminated {kind : Kind} {msg : MonitorMsgDs} (hType : msg.type = kind.type) (hEnd : 0 ∉ msg.buff) :
    deal msg = .fault := by
  rw [deal, if_pos]
  exact ⟨hType ▸ isData_kind kind, hEnd⟩

theorem deal_query {kind : Kind} {msg : MonitorMsgDs} {values : List Bytes} (hType : msg.type = kind.type)
    (hEnd : 0 ∈ msg.buff) (hStrings : strings kind msg = some values)
    (hRoom : values.flatten.length ≤ room kind) : deal msg = .query (strcatSql (headOf kind) values) := by
  have hLength := length_strcatSql (length_of_mapM hStrings)
  have hFits : (strcatSql (headOf kind) values).length < sqlSize := by
    rw [sqlSize]
    omega
  rw [deal_data hType hEnd, branch]
  rw [strings] at hStrings
  simp only [hStrings, if_pos hFits]

theorem strings_of_not_fault {kind : Kind} {msg : MonitorMsgDs} (hType : msg.type = kind.type)
    (hEnd : 0 ∈ msg.buff) (h : deal msg ≠ .fault) :
    ∃ values, strings kind msg = some values ∧ (strcatSql (headOf kind) values).length < sqlSize := by
  rw [deal_data hType hEnd] at h
  cases hStrings : strings kind msg with
  | none =>
    rw [strings] at hStrings
    exact absurd (by simp only [branch, hStrings]) h
  | some values =>
    refine ⟨values, rfl, ?_⟩
    by_contra hLong
    rw [strings] at hStrings
    exact h (by simp only [branch, hStrings, if_neg hLong])

theorem not_fault_of_safe {kind : Kind} {msg : MonitorMsgDs} (h : Safe kind msg) : deal msg ≠ .fault := by
  intro hFault
  obtain hNothing | ⟨_, _, hQuery⟩ := h
  · cases hFault.symm.trans hNothing
  · cases hFault.symm.trans hQuery

/-- A message is dealt with safely exactly when its payload has a terminator and has every
expected member as a string, together no longer than the statement has room for. -/
theorem safe_iff {kind : Kind} {msg : MonitorMsgDs} (hType : msg.type = kind.type) :
    Safe kind msg ↔
      0 ∈ msg.buff ∧ ∃ values, strings kind msg = some values ∧ values.flatten.length ≤ room kind := by
  by_cases hEnd : 0 ∈ msg.buff
  · constructor
    · intro hSafe
      obtain ⟨values, hStrings, hFits⟩ := strings_of_not_fault hType hEnd (not_fault_of_safe hSafe)
      have hLength := length_strcatSql (length_of_mapM hStrings)
      rw [sqlSize] at hFits
      exact ⟨hEnd, values, hStrings, by omega⟩
    · rintro ⟨_, values, hStrings, hRoom⟩
      exact .inr ⟨values, hStrings, deal_query hType hEnd hStrings hRoom⟩
  · exact iff_of_false (fun hSafe => not_fault_of_safe hSafe (deal_unterminated hType hEnd)) (fun h => hEnd h.1)

def noMembers : MonitorMsgDs where
  type := sysMem
  buff := lit "\x7b\x7d" ++ List.replicate 498 0
  buff_length := by decide +kernel

def unterminated : MonitorMsgDs where
  type := sysMem
  buff := List.replicate 500 0x7b
  buff_length := by decide +kernel

theorem not_safe : ¬ Safe .mem noMembers ∧ ¬ Safe .mem unterminated := by
  constructor
  · intro hSafe
    obtain ⟨values, hStrings, _⟩ := @strings_of_not_fault .mem noMembers rfl (by decide +kernel) (not_fault_of_safe hSafe)
    have hNone : strings .mem noMembers = none := by decide +kernel
    cases hNone.symm.trans hStrings
  · intro hSafe
    exact not_fault_of_safe hSafe (@deal_unterminated .mem unterminated rfl (by decide +kernel))

def wellFormed : MonitorMsgDs where
  type := sysDisk
  buff := lit "\x7b\"now_time\":\"t\",\"disk_size\":\"1\",\"used_space\":\"2\",\"avail_space\":\"3\",\"utilization\":\"4\"\x7d" ++
    List.replicate 415 0
  buff_length := by decide +kernel

theorem safe_wellFormed : Safe .disk wellFormed := by
  apply (safe_iff rfl).mpr
  refine ⟨by decide +kernel, [lit "t", lit "1", lit "2", lit "3", lit "4"], by decide +kernel, by decide +kernel⟩

end MonitorSystem.Payload
