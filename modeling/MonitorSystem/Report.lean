import MonitorSystem.CJson
import MonitorSystem.Msg

/-! # How the client turns a report line into a message

send_data_to_server has four branches that differ in the message type and in
the JSON keys. The system branch also decides between the two transports.
-/

namespace MonitorSystem.Report

open Msg CJson Lib.CString

inductive Kind
  | mem
  | cpu
  | disk
  | sys
deriving DecidableEq

def Kind.type : Kind → BitVec 64
  | .mem => sysMem
  | .cpu => sysCpu
  | .disk => sysDisk
  | .sys => sysSys

def memKeys : List Bytes :=
  [lit "total_mem_value", lit "left_mem_value", lit "mem_usage_rate", lit "mem_prediction_rate"]

def cpuKeys : List Bytes :=
  [lit "load_avg_1", lit "load_avg_2", lit "load_avg_3", lit "utilization", lit "temperature",
    lit "warning"]

def diskKeys : List Bytes :=
  [lit "disk_size", lit "used_space", lit "avail_space", lit "utilization"]

def sysKeys : List Bytes :=
  [lit "hostname", lit "os_version", lit "kernel_version", lit "running_time", lit "load_avg_1",
    lit "load_avg_2", lit "load_avg_3", lit "disk_size", lit "disk_utilization", lit "mem_size",
    lit "mem_utilization", lit "disk_stat", lit "mem_stat", lit "cpu_stat"]

def Kind.keys : Kind → List Bytes
  | .mem => memKeys
  | .cpu => cpuKeys
  | .disk => diskKeys
  | .sys => sysKeys

def delim (b : UInt8) : Bool := b = 0x20 ∨ b = 0x0a

def nowTimeSize : Nat := 30

/-- One cJSON_AddStringToObject with the next strtok(NULL, delim) for every key. -/
def addStrings : List Bytes → Bytes → List (Bytes × Bytes) → List (Bytes × Bytes)
  | [], _, members => members
  | key :: keys, line, members =>
    match strtok delim line with
    | none => addStrings keys line (cJSONAddStringToObject members key none)
    | some (token, rest) => addStrings keys rest (cJSONAddStringToObject members key (some token))

/-- The JSON object of a report line; none where the code copies a null token
or overflows now_time. -/
def memData (keys : List Bytes) (line : Bytes) : Option (List (Bytes × Bytes)) :=
  match strtok delim line with
  | none => none
  | some (date, rest) =>
    match strtok delim rest with
    | none => none
    | some (clock, rest) =>
      let now_time := date ++ lit " " ++ clock
      if now_time.length < nowTimeSize then
        some (addStrings keys rest (cJSONAddStringToObject [] (lit "now_time") (some now_time)))
      else none

def statOf (mem_data : List (Bytes × Bytes)) (name : Bytes) : Option Bytes :=
  (cJSONGetObjectItem (some (.object (mem_data.map fun m => (m.1, .string m.2)))) name).bind
    CJSON.valuestring

def statKeys : List Bytes := [lit "disk_stat", lit "mem_stat", lit "cpu_stat"]

/-- The test for urgent data, evaluated from the left; none for a null item. -/
def anyWarning (mem_data : List (Bytes × Bytes)) : List Bytes → Option Bool
  | [] => some false
  | name :: names => (statOf mem_data name).bind fun stat =>
      if stat = lit "warning" then some true else anyWarning mem_data names

/-- The message, the text it was made from, and whether it goes to udp_sockfd. -/
structure Outgoing where
  msg : MonitorMsgDs
  str : Bytes
  urgent : Bool

/-- One iteration of send_data_to_server up to the send. The message variable
is on the stack and keeps what it held behind the text. -/
def serialise (kind : Kind) (m stack : MonitorMsgDs) : Option Outgoing :=
  (memData kind.keys m.text).bind fun mem_data =>
    let str := cJSONPrint mem_data
    ({ stack with type := kind.type }.strcpyBuff str).bind fun msg =>
      match kind with
      | .sys => (anyWarning mem_data statKeys).map fun urgent => ⟨msg, str, urgent⟩
      | _ => some ⟨msg, str, false⟩

def Kind.columns (kind : Kind) : List Bytes := lit "now_time" :: kind.keys

def Kind.need (kind : Kind) : Nat := kind.keys.length + 2

def recorded : List Bytes → List Bytes
  | date :: clock :: fields => (date ++ lit " " ++ clock) :: fields
  | short => short

def Kind.values (kind : Kind) (line : Bytes) : List Bytes :=
  recorded ((tokens delim line).take kind.need)

theorem addStrings_eq (keys : List Bytes) (line : Bytes) (members : List (Bytes × Bytes)) :
    addStrings keys line members = members ++ keys.zip (tokens delim line) := by
  induction keys generalizing line members with
  | nil => simp [addStrings]
  | cons key keys ih =>
    rw [addStrings, tokens_of_strtok]
    cases hToken : strtok delim line with
    | none =>
      have hEmpty : tokens delim line = [] := by rw [tokens_of_strtok, hToken]
      simp [cJSONAddStringToObject, ih, hEmpty]
    | some r => simp [cJSONAddStringToObject, ih]

theorem memData_tokens (keys : List Bytes) (line : Bytes) : memData keys line = match tokens delim line with
    | date :: clock :: fields =>
      if (date ++ lit " " ++ clock).length < nowTimeSize then
        some ((lit "now_time", date ++ lit " " ++ clock) :: keys.zip fields)
      else none
    | _ => none := by
  rw [memData, tokens_of_strtok]
  cases strtok delim line with
  | none => rfl
  | some r =>
    obtain ⟨date, rest⟩ := r
    dsimp only
    rw [@tokens_of_strtok delim rest]
    cases strtok delim rest with
    | none => rfl
    | some r =>
      dsimp only
      rw [addStrings_eq]
      rfl

theorem memData_eq {keys : List Bytes} {line date clock : Bytes} {fields : List Bytes}
    (hTokens : tokens delim line = date :: clock :: fields)
    (hTime : (date ++ lit " " ++ clock).length < nowTimeSize) :
    memData keys line = some ((lit "now_time", date ++ lit " " ++ clock) :: keys.zip fields) := by
  rw [memData_tokens, hTokens]
  exact if_pos hTime

theorem values_tokens {kind : Kind} {line date clock : Bytes} {fields : List Bytes}
    (hTokens : tokens delim line = date :: clock :: fields) :
    kind.values line = (date ++ lit " " ++ clock) :: fields.take kind.keys.length := by
  rw [Kind.values, hTokens]
  rfl

theorem memData_zip {kind : Kind} {line date clock : Bytes} {fields : List Bytes}
    (hTokens : tokens delim line = date :: clock :: fields)
    (hTime : (date ++ lit " " ++ clock).length < nowTimeSize) :
    memData kind.keys line = some (kind.columns.zip (kind.values line)) := by
  have hZip : kind.keys.zip fields = kind.keys.zip (fields.take kind.keys.length) := by
    rw [List.zip_eq_zip_take_min, @List.zip_eq_zip_take_min _ _ _ (fields.take kind.keys.length),
      List.length_take, List.take_take, ← Nat.min_assoc, Nat.min_self, Nat.min_right_comm, Nat.min_self]
  rw [memData_eq hTokens hTime, values_tokens hTokens, Kind.columns, List.zip_cons_cons, ← hZip]

theorem memData_inv {kind : Kind} {line : Bytes} {mem_data : List (Bytes × Bytes)}
    (h : memData kind.keys line = some mem_data) :
    ∃ date clock fields, tokens delim line = date :: clock :: fields ∧
      (date ++ lit " " ++ clock).length < nowTimeSize ∧ mem_data = kind.columns.zip (kind.values line) := by
  have hTokens := memData_tokens kind.keys line
  rw [h] at hTokens
  split at hTokens
  · rename_i date clock fields hLine
    obtain ⟨hTime, _⟩ := Option.ite_none_right_eq_some.mp hTokens.symm
    refine ⟨date, clock, fields, hLine, hTime, ?_⟩
    rw [memData_zip hLine hTime] at h
    exact (Option.some.inj h).symm
  · cases hTokens

theorem values_length {kind : Kind} {line date clock : Bytes} {fields : List Bytes}
    (hTokens : tokens delim line = date :: clock :: fields) (hNeed : kind.keys.length ≤ fields.length) :
    (kind.values line).length = kind.columns.length := by
  rw [values_tokens hTokens, Kind.columns, List.length_cons, List.length_cons, List.length_take,
    Nat.min_eq_left hNeed]

theorem memData_columns {kind : Kind} {line : Bytes} (hNeed : kind.need ≤ (tokens delim line).length)
    (hTime : ∀ now_time ∈ (kind.values line).head?, now_time.length < nowTimeSize) :
    memData kind.keys line = some (kind.columns.zip (kind.values line)) ∧
      (kind.values line).length = kind.columns.length := by
  obtain ⟨date, clock, fields, hTokens⟩ : ∃ date clock fields,
      tokens delim line = date :: clock :: fields := by
    cases hLine : tokens delim line with
    | nil => simp [hLine, Kind.need] at hNeed
    | cons date more =>
      cases more with
      | nil => simp [hLine, Kind.need] at hNeed
      | cons clock fields => exact ⟨date, clock, fields, rfl⟩
  rw [hTokens, Kind.need, List.length_cons, List.length_cons, Nat.add_le_add_iff_right] at hNeed
  rw [values_tokens hTokens] at hTime
  exact ⟨memData_zip hTokens (hTime _ rfl), values_length hTokens hNeed⟩

theorem columns_distinct (kind : Kind) : (kind.columns.map fun k => k.map tolower).Nodup := by
  cases kind <;> decide +kernel

theorem noNul_columns (kind : Kind) : ∀ k ∈ kind.columns, 0 ∉ k := by
  cases kind <;> decide +kernel

theorem noNul_recorded {pieces : List Bytes} (h : ∀ t ∈ pieces, 0 ∉ t) : ∀ v ∈ recorded pieces, 0 ∉ v := by
  cases pieces with
  | nil => exact h
  | cons date more =>
    cases more with
    | nil => exact h
    | cons clock fields =>
      simp only [List.forall_mem_cons] at h
      rw [recorded, List.forall_mem_cons]
      refine ⟨?_, h.2.2⟩
      simp only [List.mem_append, not_or]
      exact ⟨⟨h.1, by decide⟩, h.2.1⟩

theorem noNul_values (kind : Kind) (m : MonitorMsgDs) : ∀ v ∈ kind.values m.text, 0 ∉ v := by
  apply noNul_recorded
  intro t ht
  exact noNul_of_mem_tokens delim (noNul_cstr m.buff) (List.mem_of_mem_take ht)

theorem statOf_zip {kind : Kind} {values : List Bytes} (hValues : ∀ v ∈ values, 0 ∉ v) {i : Nat} {name : Bytes}
    (hi : kind.columns[i]? = some name) : statOf (kind.columns.zip values) name = values[i]? := by
  rw [statOf, cJSONGetObjectItem_zip (noNul_columns kind) (columns_distinct kind) hi]
  cases hv : values[i]? with
  | none => rfl
  | some v => exact congrArg some (cstr_of_noNul (hValues v (List.mem_of_getElem? hv)))

theorem anyWarning_calm {kind : Kind} {values : List Bytes} (hLength : values.length = kind.columns.length)
    (hValues : ∀ v ∈ values, 0 ∉ v) {names : List Bytes} (hNames : ∀ name ∈ names, name ∈ kind.columns)
    (hCalm : ∀ name ∈ names, (name, lit "warning") ∉ kind.columns.zip values) :
    anyWarning (kind.columns.zip values) names = some false := by
  induction names with
  | nil => rfl
  | cons name names ih =>
    obtain ⟨i, hi⟩ := List.getElem?_of_mem (hNames name List.mem_cons_self)
    obtain ⟨v, hv⟩ : ∃ v, values[i]? = some v := by
      have hLt : i < values.length := hLength ▸ (List.getElem?_eq_some_iff.mp hi).1
      exact ⟨_, List.getElem?_eq_getElem hLt⟩
    have hStat : statOf (kind.columns.zip values) name = some v := (statOf_zip hValues hi).trans hv
    have hNot : v ≠ lit "warning" := by
      rintro rfl
      apply hCalm name List.mem_cons_self
      have hPair : (kind.columns.zip values)[i]? = some (name, lit "warning") :=
        List.getElem?_zip_eq_some.mpr ⟨hi, hv⟩
      exact List.mem_of_getElem? hPair
    rw [anyWarning, hStat, Option.bind_some, if_neg hNot]
    exact ih (fun n hn => hNames n (List.mem_cons_of_mem name hn))
      fun n hn => hCalm n (List.mem_cons_of_mem name hn)

theorem serialise_inv {kind : Kind} {m stack : MonitorMsgDs} {out : Outgoing}
    (h : serialise kind m stack = some out) :
    ∃ mem_data, memData kind.keys m.text = some mem_data ∧ out.str = cJSONPrint mem_data ∧
      ({ stack with type := kind.type } : MonitorMsgDs).strcpyBuff out.str = some out.msg ∧
      (kind = .sys → anyWarning mem_data statKeys = some out.urgent) := by
  rw [serialise] at h
  obtain ⟨mem_data, hData, h⟩ := Option.bind_eq_some_iff.mp h
  obtain ⟨msg, hMsg, h⟩ := Option.bind_eq_some_iff.mp h
  refine ⟨mem_data, hData, ?_⟩
  cases kind with
  | sys =>
    obtain ⟨urgent, hUrgent, rfl⟩ := Option.map_eq_some_iff.mp h
    exact ⟨rfl, hMsg, fun _ => hUrgent⟩
  | mem | cpu | disk =>
    cases h
    exact ⟨rfl, hMsg, fun hSys => by cases hSys⟩

theorem serialise_msg {kind : Kind} {m stack : MonitorMsgDs} {out : Outgoing}
    (h : serialise kind m stack = some out) : out.msg.type = kind.type ∧ out.msg.text = out.str := by
  obtain ⟨mem_data, _, hStr, hMsg, _⟩ := serialise_inv h
  constructor
  · rw [MonitorMsgDs.strcpyBuff] at hMsg
    split at hMsg
    · rw [← Option.some.inj hMsg]
    · cases hMsg
  · exact strcpyBuff_text (hStr ▸ noNul_cJSONPrint mem_data) hMsg

theorem serialise_of_data {kind : Kind} {m : MonitorMsgDs} {mem_data : List (Bytes × Bytes)} {urgent : Bool}
    (stack : MonitorMsgDs) (hData : memData kind.keys m.text = some mem_data)
    (hJson : (cJSONPrint mem_data).length < msgBuffSize)
    (hSys : kind = .sys → anyWarning mem_data statKeys = some urgent) (hOther : kind ≠ .sys → urgent = false) :
    ∃ msg, serialise kind m stack = some ⟨msg, cJSONPrint mem_data, urgent⟩ := by
  obtain ⟨msg, hMsg⟩ : ∃ msg, ({ stack with type := kind.type } : MonitorMsgDs).strcpyBuff (cJSONPrint mem_data) =
      some msg := by
    rw [MonitorMsgDs.strcpyBuff, dif_pos hJson]
    exact ⟨_, rfl⟩
  refine ⟨msg, ?_⟩
  rw [serialise, hData, Option.bind_some]
  simp only [hMsg, Option.bind_some]
  cases kind with
  | sys => rw [hSys rfl, Option.map_some]
  | mem | cpu | disk => rw [hOther (by decide)]

theorem serialise_calm {kind : Kind} {m : MonitorMsgDs} (stack : MonitorMsgDs)
    (hNeed : kind.need ≤ (tokens delim m.text).length)
    (hTime : ∀ now_time ∈ (kind.values m.text).head?, now_time.length < nowTimeSize)
    (hJson : (cJSONPrint (kind.columns.zip (kind.values m.text))).length < msgBuffSize)
    (hCalm : kind = .sys → ∀ name ∈ statKeys, (name, lit "warning") ∉ kind.columns.zip (kind.values m.text)) :
    ∃ msg : MonitorMsgDs, msg.type = kind.type ∧
      msg.text = cJSONPrint (kind.columns.zip (kind.values m.text)) ∧
      serialise kind m stack = some ⟨msg, cJSONPrint (kind.columns.zip (kind.values m.text)), false⟩ := by
  obtain ⟨hData, hLength⟩ := memData_columns hNeed hTime
  have hStats : kind = .sys → anyWarning (kind.columns.zip (kind.values m.text)) statKeys = some false := by
    rintro rfl
    have hNames : ∀ name ∈ statKeys, name ∈ Kind.sys.columns := by decide +kernel
    exact anyWarning_calm hLength (noNul_values .sys m) hNames (hCalm rfl)
  obtain ⟨msg, hOut⟩ := serialise_of_data stack hData hJson hStats fun _ => rfl
  obtain ⟨hType, hText⟩ := serialise_msg hOut
  exact ⟨msg, hType, hText, hOut⟩

end MonitorSystem.Report
