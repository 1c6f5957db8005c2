import MonitorSystem.Lib.CString

/-! # Variables, word splitting and conditional expressions of the shell

A scalar variable has its value at index 0 only. Operands of the numeric tests
are arithmetic expressions: the empty one is 0, a name stands for the value of
its variable, and what is no number makes the test fail.
-/

namespace Lib.Shell

open CString

def ifs (b : UInt8) : Bool := b = 0x20 ∨ b = 0x09 ∨ b = 0x0a

inductive Var
  | scalar (value : Bytes)
  | array (elements : List Bytes)

def Var.at : Var → Nat → Bytes
  | .scalar value, i => if i = 0 then value else []
  | .array elements, i => elements.getD i []

def fields (expansion : Bytes) : List Bytes := tokens ifs expansion

def joined (words : List Bytes) : Bytes := [0x20].intercalate words

def echo (expansions : List Bytes) : Bytes := joined (expansions.flatMap fields) ++ [0x0a]

def nonEmpty (word : Bytes) : Bool := word ≠ []

def numeral (base : Nat) (word : Bytes) : Option Nat :=
  word.foldlM (fun n b => if 0x30 ≤ b ∧ b.toNat < 0x30 + base then some (base * n + (b.toNat - 0x30))
    else none) 0

def number (word : Bytes) : Option Nat := numeral (if word.head? = some 0x30 then 8 else 10) word

def nameStart (b : UInt8) : Bool := (0x61 ≤ b ∧ b ≤ 0x7a) ∨ (0x41 ≤ b ∧ b ≤ 0x5a) ∨ b = 0x5f

def arith (vars : Bytes → Bytes) (word : Bytes) : Option Nat :=
  if word.head?.any nameStart then number (vars word) else number word

def test (vars : Bytes → Bytes) (op : Nat → Nat → Bool) (left right : Bytes) : Bool :=
  match arith vars left, arith vars right with
  | some a, some b => op a b
  | _, _ => false

theorem joined_cons (w w' : Bytes) (words : List Bytes) :
    joined (w :: w' :: words) = w ++ 0x20 :: joined (w' :: words) := by
  simp [joined, List.intercalate_cons_cons]

theorem not_mem_joined {c : UInt8} (hc : c ≠ 0x20) {words : List Bytes} (h : ∀ w ∈ words, c ∉ w) :
    c ∉ joined words := by
  induction words with
  | nil => exact List.not_mem_nil
  | cons w words ih =>
    have hRest := ih fun w hw => h w (List.mem_cons_of_mem _ hw)
    cases words with
    | nil => simpa [joined] using h
    | cons w' words =>
      rw [joined_cons, List.mem_append, List.mem_cons, not_or, not_or]
      exact ⟨h w List.mem_cons_self, hc, hRest⟩

theorem tokens_joined {delim : UInt8 → Bool} (hBlank : delim 0x20 = true) {words : List Bytes}
    (hNe : ∀ w ∈ words, w ≠ []) (hPlain : ∀ w ∈ words, ∀ b ∈ w, delim b = false) {last : Bytes}
    (hLast : last = [] ∨ ∃ b, last = [b] ∧ delim b = true) :
    tokens delim (joined words ++ last) = words := by
  have hEnd : tokens delim last = [] := by
    obtain rfl | ⟨b, rfl, hb⟩ := hLast
    · rfl
    · exact tokens_delim delim hb []
  induction words with
  | nil => exact hEnd
  | cons w words ih =>
    have hw := hNe w List.mem_cons_self
    have hwPlain := hPlain w List.mem_cons_self
    cases words with
    | nil =>
      obtain rfl | ⟨b, rfl, hb⟩ := hLast
      · rw [joined, List.intercalate_singleton, List.append_nil, tokens_last delim hw hwPlain]
      · rw [joined, List.intercalate_singleton, tokens_piece delim hw hwPlain hb]
        rfl
    | cons w' words =>
      rw [joined_cons, List.append_assoc, List.cons_append, tokens_piece delim hw hwPlain hBlank]
      rw [ih (fun w hw => hNe w (List.mem_cons_of_mem _ hw))
        fun w hw => hPlain w (List.mem_cons_of_mem _ hw)]

theorem fields_joined {words : List Bytes} (hNe : ∀ w ∈ words, w ≠ [])
    (hPlain : ∀ w ∈ words, ∀ b ∈ w, ifs b = false) : fields (joined words) = words := by
  have hTokens : tokens ifs (joined words ++ []) = words := tokens_joined rfl hNe hPlain (.inl rfl)
  rwa [List.append_nil] at hTokens

theorem length_joined (w : Bytes) (words : List Bytes) :
    (joined (w :: words)).length = (w :: words).flatten.length + words.length := by
  rw [joined, length_intercalate, List.length_singleton, Nat.one_mul]

end Lib.Shell
