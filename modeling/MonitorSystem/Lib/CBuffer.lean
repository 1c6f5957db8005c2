import MonitorSystem.Lib.CString

/-! # Character arrays of a fixed size

The copying functions of the C library on an array. One that would write
outside the array has no result.
-/

namespace Lib.CBuffer

open Lib.CString

structure Buffer (size : Nat) where
  bytes : Bytes
  length_bytes : bytes.length = size

variable {size : Nat}

def Buffer.text (b : Buffer size) : Bytes := cstr b.bytes

theorem Buffer.length_text_le (b : Buffer size) : b.text.length ≤ size :=
  (length_cstr_le b.bytes).trans b.length_bytes.le

def Buffer.write (b : Buffer size) (position : Nat) (s : Bytes) (h : position + s.length ≤ size) : Buffer size where
  bytes := b.bytes.take position ++ s ++ b.bytes.drop (position + s.length)
  length_bytes := by
    have hSize := b.length_bytes
    rw [List.length_append, List.length_append, List.length_take, List.length_drop]
    omega

def Buffer.fill (b : Buffer size) (line : Bytes) : Buffer size where
  bytes := (line ++ 0 :: b.bytes.drop (line.length + 1)).take size
  length_bytes := by
    have hSize := b.length_bytes
    rw [List.length_take, List.length_append, List.length_cons, List.length_drop]
    omega

def Buffer.strcpy (b : Buffer size) (s : Bytes) : Option (Buffer size) :=
  if h : s.length < size then
    some (b.write 0 (s ++ [0]) (by simp only [List.length_append, List.length_singleton]; omega))
  else none

/-- strncat of at most count bytes of a string, and a terminator. -/
def Buffer.strncat (b : Buffer size) (s : Bytes) (count : Nat) : Option (Buffer size) :=
  if h : b.text.length + (s.take count).length < size then
    some (b.write b.text.length (s.take count ++ [0]) (by simp only [List.length_append, List.length_singleton]; omega))
  else none

/-- A newline before the terminator is overwritten; without a byte before it
the array is left. -/
def Buffer.chomp (b : Buffer size) : Option (Buffer size) :=
  if h : b.text.length = 0 then none
  else if b.bytes[b.text.length - 1]? = some 0x0a then
    some (b.write (b.text.length - 1) [0] (by have := b.length_text_le; simp only [List.length_singleton]; omega))
  else some b

/-- The count bytes that strncpy of a string writes: the rest is filled with NULs. -/
def strncpy (count : Nat) (s : Bytes) : Bytes := (s ++ List.replicate count 0).take count

def zeroed (size : Nat) : Buffer size := ⟨List.replicate size 0, List.length_replicate⟩

theorem Buffer.take_text (b : Buffer size) : b.bytes.take b.text.length = b.text :=
  (List.prefix_iff_eq_take.mp (List.takeWhile_prefix _)).symm

theorem Buffer.noNul_text (b : Buffer size) : 0 ∉ b.text := noNul_cstr b.bytes

theorem Buffer.text_write {b : Buffer size} {position : Nat} {s : Bytes} (hs : 0 ∉ s)
    (hFront : 0 ∉ b.bytes.take position) (h : position + (s ++ [0]).length ≤ size) :
    (b.write position (s ++ [0]) h).text = b.bytes.take position ++ s := by
  have hNul : 0 ∉ b.bytes.take position ++ s := by
    rw [List.mem_append, not_or]
    exact ⟨hFront, hs⟩
  rw [Buffer.text, Buffer.write]
  dsimp only
  rw [← List.append_assoc, List.append_assoc (b.bytes.take position ++ s)]
  exact cstr_terminated hNul _

theorem Buffer.text_fill {b : Buffer size} {line : Bytes} (h : line.length < size) :
    (b.fill line).text = cstr line := by
  have hSize := b.length_bytes
  have hWhole : (line ++ 0 :: b.bytes.drop (line.length + 1)).length = size := by
    rw [List.length_append, List.length_cons, List.length_drop]
    omega
  rw [Buffer.text, Buffer.fill]
  dsimp only
  rw [List.take_of_length_le hWhole.le, cstr_append_nul]

theorem Buffer.text_strcpy {b b' : Buffer size} {s : Bytes} (hs : 0 ∉ s) (h : b.strcpy s = some b') : b'.text = s := by
  rw [Buffer.strcpy] at h
  split at h
  · cases h
    exact Buffer.text_write hs List.not_mem_nil _
  · cases h

theorem Buffer.strcpy_eq_none {b : Buffer size} {s : Bytes} : b.strcpy s = none ↔ size ≤ s.length := by
  rw [Buffer.strcpy]
  split
  · exact iff_of_false (Option.some_ne_none _) (by omega)
  · exact iff_of_true rfl (by omega)

theorem Buffer.text_strncat {b b' : Buffer size} {s : Bytes} {count : Nat} (hs : 0 ∉ s)
    (h : b.strncat s count = some b') : b'.text = b.text ++ s.take count := by
  rw [Buffer.strncat] at h
  split at h
  · cases h
    rw [Buffer.text_write, b.take_text]
    · exact fun hMem => hs (List.mem_of_mem_take hMem)
    · rw [b.take_text]
      exact b.noNul_text
  · cases h

theorem Buffer.strncat_eq_none {b : Buffer size} {s : Bytes} {count : Nat} :
    b.strncat s count = none ↔ size ≤ (b.text ++ s.take count).length := by
  rw [Buffer.strncat, List.length_append]
  split
  · exact iff_of_false (Option.some_ne_none _) (by omega)
  · exact iff_of_true rfl (by omega)

def chomped (s : Bytes) : Bytes := if s.getLast? = some 0x0a then s.dropLast else s

theorem chomped_concat (s : Bytes) : chomped (s ++ [0x0a]) = s := by
  rw [chomped, if_pos List.getLast?_concat, List.dropLast_concat]

theorem chomped_plain {s : Bytes} (h : 0x0a ∉ s) : chomped s = s :=
  if_neg fun hLast => h (List.mem_of_getLast? hLast)

theorem Buffer.chomp_eq_none {b : Buffer size} : b.chomp = none ↔ b.text = [] := by
  rw [Buffer.chomp]
  split
  · rename_i hNone
    exact iff_of_true rfl (List.eq_nil_of_length_eq_zero hNone)
  · rename_i hSome
    refine iff_of_false ?_ (fun hNil => hSome (List.length_eq_zero_iff.mpr hNil))
    split <;> exact Option.some_ne_none _

theorem Buffer.getElem?_text {b : Buffer size} {i : Nat} (h : i < b.text.length) : b.bytes[i]? = b.text[i]? := by
  rw [← b.take_text, List.getElem?_take_of_lt h]

theorem Buffer.text_chomp {b b' : Buffer size} (h : b.chomp = some b') : b'.text = chomped b.text := by
  rw [Buffer.chomp] at h
  split at h
  · cases h
  · rename_i hSome
    have hLast : b.bytes[b.text.length - 1]? = b.text.getLast? := by
      rw [b.getElem?_text (by omega), List.getLast?_eq_getElem?]
    rw [hLast] at h
    rw [chomped]
    split at h
    · rename_i hNewline
      cases h
      have hFront : b.bytes.take (b.text.length - 1) = b.text.dropLast := by
        have hTake := congrArg (List.take (b.text.length - 1)) b.take_text
        rwa [List.take_take, Nat.min_eq_left (Nat.sub_le ..), ← List.dropLast_eq_take] at hTake
      rw [if_pos hNewline, ← hFront]
      refine (Buffer.text_write List.not_mem_nil ?_ _).trans (List.append_nil _)
      rw [hFront]
      exact fun hMem => b.noNul_text (List.dropLast_subset _ hMem)
    · rename_i hPlain
      cases h
      rw [if_neg hPlain]

@[simp] theorem length_strncpy (count : Nat) (s : Bytes) : (strncpy count s).length = count := by
  simp [strncpy]

theorem strncpy_of_lt {count : Nat} {s : Bytes} (h : s.length < count) :
    ∃ rest, strncpy count s = s ++ 0 :: rest := by
  obtain ⟨n, hn⟩ : ∃ n, count - s.length = n + 1 := ⟨count - s.length - 1, by omega⟩
  refine ⟨List.replicate n 0, ?_⟩
  rw [strncpy, List.take_append, List.take_of_length_le h.le, List.take_replicate, hn,
    Nat.min_eq_left (by omega), List.replicate_succ]

theorem cstr_strncpy {count : Nat} {s : Bytes} (hs : 0 ∉ s) (h : s.length < count) : cstr (strncpy count s) = s := by
  obtain ⟨rest, hEq⟩ := strncpy_of_lt h
  rw [hEq]
  exact cstr_terminated hs rest

theorem text_zeroed (h : 0 < size) : (zeroed size).text = [] := by
  obtain ⟨n, rfl⟩ : ∃ n, size = n + 1 := ⟨size - 1, by omega⟩
  rfl

end Lib.CBuffer
