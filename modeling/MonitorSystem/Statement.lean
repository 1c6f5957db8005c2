import MonitorSystem.Payload
import MonitorSystem.Lib.Sql

/-! # What the database reads in the statement

The values stand between quotes as they come out of the payload. The database
reads the statement with its own rules for string literals.
-/

namespace MonitorSystem.Statement

open Msg CJson Report MonitorSystem.Insert Payload Lib.CString Lib.Sql

def headTokens (kind : Kind) : List Lexeme :=
  [.word (lit "INSERT"), .word (lit "INTO"), .word (tableOf kind), .symbol 0x28] ++
    [.symbol 0x2c].intercalate (kind.columns.map fun name => [.word name]) ++
    [.symbol 0x29, .word (lit "VALUES"), .symbol 0x28]

def insertTokens (kind : Kind) (values : List Bytes) : List Lexeme := headTokens kind ++ literals values

theorem run_head (kind : Kind) : run .between (headOf kind) = (headTokens kind, .literal singleQuote []) := by
  cases kind <;> decide +kernel

theorem lex_strcatSql {kind : Kind} {values : List Bytes} (h : values ≠ []) :
    lex (strcatSql (headOf kind) values) = some (insertTokens kind values) ↔ ∀ value ∈ values, plain value = true := by
  rw [← lexFrom_literals h, lex, strcatSql, List.append_assoc, lexFrom_append, run_head, insertTokens]
  constructor
  · intro hTokens
    obtain ⟨tokens, hLiterals, hEq⟩ := Option.map_eq_some_iff.mp hTokens
    rw [hLiterals, List.append_cancel_left hEq]
  · intro hLiterals
    rw [hLiterals]
    rfl

theorem ne_nil_of_strings {kind : Kind} {msg : MonitorMsgDs} {values : List Bytes}
    (h : strings kind msg = some values) : values ≠ [] := by
  have hLength := length_of_mapM h
  rintro rfl
  cases kind <;> cases hLength

/-- The statement reads as one INSERT of the members exactly when every member is plain. -/
theorem insert_iff_plain {kind : Kind} {msg : MonitorMsgDs} {values : List Bytes} (hType : msg.type = kind.type)
    (hEnd : 0 ∈ msg.buff) (hStrings : strings kind msg = some values)
    (hRoom : values.flatten.length ≤ room kind) :
    (∃ sql, deal msg = .query sql ∧ lex sql = some (insertTokens kind values)) ↔
      ∀ value ∈ values, plain value = true := by
  rw [deal_query hType hEnd hStrings hRoom, ← @lex_strcatSql kind values (ne_nil_of_strings hStrings)]
  constructor
  · rintro ⟨sql, hSql, hLex⟩
    cases hSql
    exact hLex
  · intro hLex
    exact ⟨_, rfl, hLex⟩

theorem insert_iff_plain_wellFormed :
    (∃ sql, deal wellFormed = .query sql ∧
      lex sql = some (insertTokens .disk [lit "t", lit "1", lit "2", lit "3", lit "4"])) ↔
      ∀ value ∈ [lit "t", lit "1", lit "2", lit "3", lit "4"], plain value = true :=
  insert_iff_plain rfl (by decide +kernel) (by decide +kernel) (by decide +kernel)

def secondRow : MonitorMsgDs where
  type := sysDisk
  buff := lit "\x7b\"now_time\":\"t\",\"disk_size\":\"1\",\"used_space\":\"2\",\"avail_space\":\"3\",\"utilization\":\"4'),('u','5','6','7','8\"\x7d" ++
    List.replicate 393 0
  buff_length := by decide +kernel

theorem second_row_inserted :
    strings .disk secondRow = some [lit "t", lit "1", lit "2", lit "3", lit "4'),('u','5','6','7','8"] ∧
      ∃ sql, deal secondRow = .query sql ∧
        lex sql = some (insertTokens .disk [lit "t", lit "1", lit "2", lit "3", lit "4"] ++
          .symbol 0x2c :: .symbol 0x28 :: literals [lit "u", lit "5", lit "6", lit "7", lit "8"]) ∧
        lex sql ≠ some (insertTokens .disk [lit "t", lit "1", lit "2", lit "3", lit "4'),('u','5','6','7','8"]) := by
  refine ⟨by decide +kernel, strcatSql (headOf .disk)
    [lit "t", lit "1", lit "2", lit "3", lit "4'),('u','5','6','7','8"], ?_, ?_, ?_⟩
  · decide +kernel
  · decide +kernel
  · decide +kernel

end MonitorSystem.Statement
