import Mathlib.Data.List.Flatten
import Mathlib.Data.List.TakeWhile
import Mathlib.Algebra.Order.Ring.Nat
import Mathlib.Tactic.Common

/-! # Byte strings, C strings, tokens and little-endian integers -/

namespace Lib.CString

abbrev Bytes := List UInt8

def lit (s : String) : Bytes := s.toByteArray.data.toList

def cstr (buffer : Bytes) : Bytes := buffer.takeWhile (· ≠ 0)

theorem cstr_append_nul (s rest : Bytes) : cstr (s ++ 0 :: rest) = cstr s := by
  induction s with
  | nil => rfl
  | cons b s ih =>
    rw [List.cons_append, cstr, cstr, List.takeWhile_cons, List.takeWhile_cons]
    split
    · exact congrArg (b :: ·) ih
    · rfl

theorem cstr_of_noNul {s : Bytes} (hs : 0 ∉ s) : cstr s = s := by
  rw [cstr, List.takeWhile_eq_self_iff]
  intro b hb
  simpa using ne_of_mem_of_not_mem hb hs

theorem cstr_terminated {s : Bytes} (hs : 0 ∉ s) (rest : Bytes) : cstr (s ++ 0 :: rest) = s := by
  rw [cstr_append_nul, cstr_of_noNul hs]

theorem noNul_cstr (buffer : Bytes) : 0 ∉ cstr buffer := by
  intro h
  simpa using List.mem_takeWhile_imp h

theorem length_cstr_le (s : Bytes) : (cstr s).length ≤ s.length := by
  rw [cstr]
  exact (List.takeWhile_prefix _).length_le

def strstr (s t : Bytes) : Option Nat := (List.range (s.length + 1)).find? fun i => t.isPrefixOf (s.drop i)

theorem strstr_eq_zero {s t : Bytes} : strstr s t = some 0 ↔ t <+: s := by
  rw [strstr, List.range_succ_eq_map, List.find?_cons, List.drop_zero, ← List.isPrefixOf_iff_prefix]
  cases t.isPrefixOf s with
  | true => exact iff_of_true rfl rfl
  | false =>
    refine iff_of_false (fun hFirst => ?_) Bool.false_ne_true
    obtain ⟨i, _, hZero⟩ := List.mem_map.mp (List.mem_of_find?_eq_some hFirst)
    cases hZero

def leNat : Bytes → Nat
  | [] => 0
  | b :: bs => b.toNat + 256 * leNat bs

def leBytes : Nat → Nat → Bytes
  | 0, _ => []
  | w + 1, n => UInt8.ofNat n :: leBytes w (n / 256)

@[simp] theorem length_leBytes (w n : Nat) : (leBytes w n).length = w := by
  induction w generalizing n with
  | zero => rfl
  | succ w ih => simp [leBytes, ih]

theorem leNat_leBytes (w n : Nat) : leNat (leBytes w n) = n % 256 ^ w := by
  induction w generalizing n with
  | zero => simp [leBytes, leNat, Nat.mod_one]
  | succ w ih =>
    rw [leBytes, leNat, ih, Nat.pow_succ', Nat.mod_mul]
    simp

def isSpace (b : UInt8) : Bool := b = 0x20 || (0x09 ≤ b && b ≤ 0x0d)

def isDigit (b : UInt8) : Bool := 0x30 ≤ b && b ≤ 0x39

/-- strtol in base 10: white space, a sign and digits; a value that does not fit
64 bits is replaced by the nearest one that does. -/
def strtol (s : Bytes) : Int :=
  let s := s.dropWhile isSpace
  let unsigned := if s.head? = some 0x2d ∨ s.head? = some 0x2b then s.tail else s
  let digits : Int := (unsigned.takeWhile isDigit).foldl (fun n b => 10 * n + (b.toNat - 0x30)) 0
  max (-2 ^ 63) (min (2 ^ 63 - 1) (if s.head? = some 0x2d then -digits else digits))

/-- The low 32 bits of strtol. -/
def atoi (s : Bytes) : Int := (BitVec.ofInt 32 (strtol s)).toInt

theorem length_intercalate (sep w : Bytes) (words : List Bytes) :
    (sep.intercalate (w :: words)).length = (w :: words).flatten.length + sep.length * words.length := by
  induction words generalizing w with
  | nil => simp
  | cons w' words ih =>
    have hRest := ih w'
    rw [List.length_cons, Nat.mul_succ]
    rw [List.intercalate_cons_cons, List.flatten_cons, List.length_append, List.length_append,
      List.length_append]
    omega

section Strtok

variable (delim : UInt8 → Bool)

/-- One call of strtok: the token, and what later calls continue with. -/
def strtok (s : Bytes) : Option (Bytes × Bytes) :=
  match s.dropWhile delim with
  | [] => none
  | b :: rest => some ((b :: rest).takeWhile (!delim ·), ((b :: rest).dropWhile (!delim ·)).drop 1)

def tokens (s : Bytes) : List Bytes := (s.splitOnP delim).filter (· ≠ [])

theorem tokens_delim {b : UInt8} (h : delim b = true) (s : Bytes) :
    tokens delim (b :: s) = tokens delim s := by
  rw [tokens, List.splitOnP_cons_eq_if_modifyHead, if_pos h]
  rfl

theorem tokens_piece {t : Bytes} (ht : t ≠ []) (hPlain : ∀ b ∈ t, delim b = false) {sep : UInt8}
    (hSep : delim sep = true) (s : Bytes) : tokens delim (t ++ sep :: s) = t :: tokens delim s := by
  rw [tokens, List.splitOnP_append_cons_of_forall_mem hPlain sep hSep, List.filter_cons_of_pos]
  · rfl
  · simpa using ht

theorem tokens_last {t : Bytes} (ht : t ≠ []) (hPlain : ∀ b ∈ t, delim b = false) :
    tokens delim t = [t] := by
  rw [tokens, List.splitOnP_eq_singleton hPlain]
  simpa using ht

theorem tokens_dropWhile (s : Bytes) : tokens delim (s.dropWhile delim) = tokens delim s := by
  induction s with
  | nil => rfl
  | cons b s ih =>
    cases hDelim : delim b with
    | true => rw [List.dropWhile_cons_of_pos hDelim, ih, tokens_delim delim hDelim]
    | false => rw [List.dropWhile_cons_of_neg (by simp [hDelim])]

theorem tokens_of_strtok {s : Bytes} : tokens delim s = match strtok delim s with
    | none => []
    | some (t, rest) => t :: tokens delim rest := by
  rw [← tokens_dropWhile delim s, strtok]
  cases hDrop : s.dropWhile delim with
  | nil => rfl
  | cons b text =>
    have hHead : delim b = false := by
      have hNe : s.dropWhile delim ≠ [] := by simp [hDrop]
      simpa [hDrop] using List.head_dropWhile_not delim hNe
    have hToken : (b :: text).takeWhile (!delim ·) ≠ [] := by simp [hHead]
    have hPlain : ∀ c ∈ (b :: text).takeWhile (!delim ·), delim c = false := by
      intro c hc
      simpa using List.mem_takeWhile_imp hc
    dsimp only
    cases hRest : (b :: text).dropWhile (!delim ·) with
    | cons sep rest =>
      have hSep : delim sep = true := by
        have hNe : (b :: text).dropWhile (!delim ·) ≠ [] := by simp [hRest]
        simpa [hRest] using List.head_dropWhile_not (!delim ·) hNe
      have hSplit : b :: text = (b :: text).takeWhile (!delim ·) ++ sep :: rest := by
        rw [← hRest, List.takeWhile_append_dropWhile]
      rw [List.drop_succ_cons, List.drop_zero]
      exact (congrArg (tokens delim) hSplit).trans (tokens_piece delim hToken hPlain hSep rest)
    | nil =>
      have hAll : b :: text = (b :: text).takeWhile (!delim ·) := by
        conv_lhs => rw [← List.takeWhile_append_dropWhile (p := (!delim ·)) (l := b :: text), hRest]
        rw [List.append_nil]
      rw [List.drop_nil]
      exact (congrArg (tokens delim) hAll).trans (tokens_last delim hToken hPlain)

theorem length_splitOnP (s : Bytes) :
    (s.splitOnP delim).flatten.length + (s.splitOnP delim).length = s.length + 1 := by
  induction s with
  | nil =>
    rw [List.splitOnP_nil]
    rfl
  | cons b s ih =>
    rw [List.splitOnP_cons_eq_if_modifyHead, List.length_cons]
    split
    · rw [List.flatten_cons, List.nil_append, List.length_cons]
      omega
    · obtain ⟨first, others, hSplit⟩ := List.exists_cons_of_ne_nil (List.splitOnP_ne_nil delim s)
      rw [hSplit] at ih ⊢
      simp only [List.modifyHead_cons, List.flatten_cons, List.length_append, List.length_cons] at ih ⊢
      omega

theorem length_tokens (s : Bytes) : (tokens delim s).flatten.length + (tokens delim s).length ≤ s.length + 1 := by
  have hSplit := length_splitOnP delim s
  have hCount : (tokens delim s).length ≤ (s.splitOnP delim).length := List.length_filter_le _ _
  have hBytes : (tokens delim s).flatten.length ≤ (s.splitOnP delim).flatten.length :=
    List.filter_sublist.flatten.length_le
  omega

theorem mem_of_mem_splitOnP {s t : Bytes} (ht : t ∈ s.splitOnP delim) {b : UInt8} (hb : b ∈ t) :
    b ∈ s := by
  induction s generalizing t with
  | nil =>
    rw [List.splitOnP_nil, List.mem_singleton] at ht
    rwa [ht] at hb
  | cons c s ih =>
    rw [List.splitOnP_cons_eq_if_modifyHead] at ht
    split at ht
    · obtain rfl | ht := List.mem_cons.mp ht
      · cases hb
      · exact List.mem_cons_of_mem c (ih ht hb)
    · obtain ⟨first, others, hSplit⟩ := List.exists_cons_of_ne_nil (List.splitOnP_ne_nil delim s)
      rw [hSplit, List.modifyHead_cons] at ht
      obtain rfl | ht := List.mem_cons.mp ht
      · obtain rfl | hb := List.mem_cons.mp hb
        · exact List.mem_cons_self
        · exact List.mem_cons_of_mem c (ih (hSplit ▸ List.mem_cons_self) hb)
      · exact List.mem_cons_of_mem c (ih (hSplit ▸ List.mem_cons_of_mem first ht) hb)

theorem noNul_of_mem_tokens {s t : Bytes} (hs : 0 ∉ s) (ht : t ∈ tokens delim s) : 0 ∉ t :=
  fun hZero => hs (mem_of_mem_splitOnP delim (List.mem_filter.mp ht).1 hZero)

end Strtok

end Lib.CString
