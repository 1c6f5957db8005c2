import MonitorSystem.Report

/-! # How the server turns a message into an INSERT

deal_with_monitor_msg has four branches that differ in the beginning of the
statement and in the members they read, spelled out once more on this side.
-/

namespace MonitorSystem.Insert

open Msg CJson Report Lib.CString

inductive Effect
  | nothing
  | query (sql : Bytes)
  | fault
deriving DecidableEq

def memHead : Bytes :=
  lit "INSERT INTO monitor_mem_data (now_time, total_mem_value, left_mem_value, mem_usage_rate, mem_prediction_rate) VALUES ('"

def memItems : List Bytes :=
  [lit "now_time", lit "total_mem_value", lit "left_mem_value", lit "mem_usage_rate",
    lit "mem_prediction_rate"]

def cpuHead : Bytes :=
  lit "INSERT INTO monitor_cpu_data (now_time, load_avg_1, load_avg_2, load_avg_3, utilization, temperature, warning) VALUES ('"

def cpuItems : List Bytes :=
  [lit "now_time", lit "load_avg_1", lit "load_avg_2", lit "load_avg_3", lit "utilization",
    lit "temperature", lit "warning"]

def diskHead : Bytes :=
  lit "INSERT INTO monitor_disk_data (now_time, disk_size, used_space, avail_space, utilization) VALUES ('"

def diskItems : List Bytes :=
  [lit "now_time", lit "disk_size", lit "used_space", lit "avail_space", lit "utilization"]

def sysHead : Bytes :=
  lit "INSERT INTO monitor_sys_data (now_time, hostname, os_version, kernel_version, running_time, load_avg_1, load_avg_2, load_avg_3, disk_size, disk_utilization, mem_size, mem_utilization, disk_stat, mem_stat, cpu_stat) VALUES ('"

def sysItems : List Bytes :=
  [lit "now_time", lit "hostname", lit "os_version", lit "kernel_version", lit "running_time",
    lit "load_avg_1", lit "load_avg_2", lit "load_avg_3", lit "disk_size", lit "disk_utilization",
    lit "mem_size", lit "mem_utilization", lit "disk_stat", lit "mem_stat", lit "cpu_stat"]

def sqlSize : Nat := 500

def strcatSql (head : Bytes) (values : List Bytes) : Bytes :=
  head ++ (lit "', '").intercalate values ++ lit "')"

/-- One branch; a null item, a null valuestring or a text too long for sql is a fault. -/
def branch (head : Bytes) (items : List Bytes) (msg : MonitorMsgDs) : Effect :=
  let mem_data := cJSONParse msg.text
  match items.mapM fun name => (cJSONGetObjectItem mem_data name).bind CJSON.valuestring with
  | none => .fault
  | some values =>
    if (strcatSql head values).length < sqlSize then .query (strcatSql head values) else .fault

def dealWithMonitorMsg (msg : MonitorMsgDs) : Effect :=
  if msg.type = sysMem then branch memHead memItems msg
  else if msg.type = sysCpu then branch cpuHead cpuItems msg
  else if msg.type = sysDisk then branch diskHead diskItems msg
  else if msg.type = sysSys then branch sysHead sysItems msg
  else .nothing

structure Row where
  table : Bytes
  columns : List Bytes
  values : List Bytes

def Row.text (row : Row) : Bytes :=
  lit "INSERT INTO " ++ row.table ++ lit " (" ++ (lit ", ").intercalate row.columns ++
    lit ") VALUES ('" ++ (lit "', '").intercalate row.values ++ lit "')"

def tableOf : Kind → Bytes
  | .mem => lit "monitor_mem_data"
  | .cpu => lit "monitor_cpu_data"
  | .disk => lit "monitor_disk_data"
  | .sys => lit "monitor_sys_data"

def rowOf (kind : Kind) (line : Bytes) : Row := ⟨tableOf kind, kind.columns, kind.values line⟩

def headOf : Kind → Bytes
  | .mem => memHead
  | .cpu => cpuHead
  | .disk => diskHead
  | .sys => sysHead

theorem headOf_eq (kind : Kind) : headOf kind =
    lit "INSERT INTO " ++ tableOf kind ++ lit " (" ++ (lit ", ").intercalate kind.columns ++
      lit ") VALUES ('" := by
  cases kind <;> decide +kernel

theorem dealWithMonitorMsg_kind {kind : Kind} {msg : MonitorMsgDs} (h : msg.type = kind.type) :
    dealWithMonitorMsg msg = branch (headOf kind) kind.columns msg := by
  cases kind <;> simp only [dealWithMonitorMsg, h, Kind.type] <;> rfl

theorem mapM_eq_some {keys values : List Bytes} {f : Bytes → Option Bytes}
    (hLength : values.length = keys.length)
    (h : ∀ (i : Nat) k v, keys[i]? = some k → values[i]? = some v → f k = some v) :
    keys.mapM f = some values := by
  induction keys generalizing values with
  | nil =>
    rw [List.length_nil, List.length_eq_zero_iff] at hLength
    rw [hLength]
    rfl
  | cons key keys ih =>
    cases values with
    | nil => cases hLength
    | cons value values =>
      have hHead := h 0 key value rfl rfl
      have hTail := ih (by simpa using hLength) fun i k v hk hv => h (i + 1) k v hk hv
      simp [List.mapM_cons, hHead, hTail]

theorem length_of_mapM {f : Bytes → Option Bytes} {keys values : List Bytes} (h : keys.mapM f = some values) :
    values.length = keys.length := by
  induction keys generalizing values with
  | nil =>
    cases h
    rfl
  | cons key keys ih =>
    rw [List.mapM_cons] at h
    obtain ⟨value, _, h⟩ := Option.bind_eq_some_iff.mp h
    obtain ⟨rest, hRest, h⟩ := Option.bind_eq_some_iff.mp h
    cases h
    rw [List.length_cons, List.length_cons, ih hRest]

theorem items_printed {kind : Kind} {msg : MonitorMsgDs} {values : List Bytes}
    (hText : cJSONPrint (kind.columns.zip values) <+: msg.text) (hLength : values.length = kind.columns.length)
    (hValues : ∀ v ∈ values, 0 ∉ v) : (kind.columns.mapM fun name =>
      (cJSONGetObjectItem (cJSONParse msg.text) name).bind CJSON.valuestring) = some values := by
  apply mapM_eq_some hLength
  intro i k v hk hv
  obtain ⟨rest, hRest⟩ := hText
  rw [← hRest, cJSONParse_cJSONPrint,
    cJSONGetObjectItem_zip (noNul_columns kind) (columns_distinct kind) hk, hv]
  exact congrArg some (cstr_of_noNul (hValues v (List.mem_of_getElem? hv)))

theorem branch_printed {kind : Kind} {msg : MonitorMsgDs} {values : List Bytes}
    (hText : cJSONPrint (kind.columns.zip values) <+: msg.text) (hLength : values.length = kind.columns.length)
    (hValues : ∀ v ∈ values, 0 ∉ v) (head : Bytes) (hSql : (strcatSql head values).length < sqlSize) :
    branch head kind.columns msg = .query (strcatSql head values) := by
  rw [branch]
  simp only [items_printed hText hLength hValues, if_pos hSql]

theorem rowOf_text (kind : Kind) (line : Bytes) :
    (rowOf kind line).text = strcatSql (headOf kind) (kind.values line) := by
  rw [strcatSql, headOf_eq]
  rfl

/-- A report line with enough tokens ends up in the columns the client named. -/
theorem insert_of_report (kind : Kind) (m stack : MonitorMsgDs)
    (hNeed : kind.need ≤ (tokens delim m.text).length)
    (hTime : ∀ now_time ∈ (kind.values m.text).head?, now_time.length < nowTimeSize)
    (hJson : (cJSONPrint (kind.columns.zip (kind.values m.text))).length < msgBuffSize)
    (hSql : (rowOf kind m.text).text.length < sqlSize)
    (hCalm : kind = .sys → ∀ name ∈ statKeys, (name, lit "warning") ∉ kind.columns.zip (kind.values m.text)) :
    ∃ out, serialise kind m stack = some out ∧ out.urgent = false ∧
      dealWithMonitorMsg out.msg = .query (rowOf kind m.text).text := by
  obtain ⟨msg, hType, hText, hOut⟩ := serialise_calm stack hNeed hTime hJson hCalm
  rw [rowOf_text] at hSql ⊢
  refine ⟨_, hOut, rfl, ?_⟩
  rw [dealWithMonitorMsg_kind hType]
  exact branch_printed (hText ▸ List.prefix_rfl) (memData_columns hNeed hTime).2 (noNul_values kind m) _ hSql

def sampleLine : Bytes := lit "2021-12-13 10:00:00  15 4\" 27\n30\n"

def sample : MonitorMsgDs where
  type := sysMem
  buff := sampleLine ++ 0 :: List.replicate 466 0
  buff_length := by decide +kernel

theorem insert_of_sample : ∃ out, serialise .mem sample (cleared 0) = some out ∧ out.urgent = false ∧
    dealWithMonitorMsg out.msg = .query (lit "INSERT INTO monitor_mem_data (now_time, total_mem_value, left_mem_value, mem_usage_rate, mem_prediction_rate) VALUES ('2021-12-13 10:00:00', '15', '4\"', '27', '30')") := by
  have hText : sample.text = sampleLine := cstr_terminated (by decide +kernel) _
  have hRow : (rowOf .mem sample.text).text = lit "INSERT INTO monitor_mem_data (now_time, total_mem_value, left_mem_value, mem_usage_rate, mem_prediction_rate) VALUES ('2021-12-13 10:00:00', '15', '4\"', '27', '30')" := by
    rw [hText]
    decide +kernel
  rw [← hRow]
  apply insert_of_report .mem sample (cleared 0)
  · rw [hText]
    decide +kernel
  · rw [hText]
    decide +kernel
  · rw [hText]
    decide +kernel
  · rw [hRow]
    decide +kernel
  · intro hSys
    cases hSys

end MonitorSystem.Insert
