import MonitorSystem.CJsonTree
import MonitorSystem.Lib.Fallible

/-! # The buffer that cJSON prints into

The printer asks ensure for room, writes behind the offset and moves the offset
on, sometimes by the length of the string that it finds there. A write outside
the block and a string that does not end in it are undefined. New memory holds
anything, and any allocation may fail.
-/

namespace MonitorSystem.PrintBuffer

open CJson CJsonTree Lib.CString Lib.Fallible

def intMax : Nat := 2147483647

/-- The length of the block is that of the list; requests counts the allocations. -/
structure Printbuffer where
  buffer : Bytes
  offset : Nat
  depth : Nat
  requests : Nat

/-- reallocates is false of hooks without a reallocate. -/
structure Hooks where
  reallocates : Bool
  grants : Nat → Bool
  junk : Nat → Nat → UInt8

def Hooks.fresh (H : Hooks) (request size : Nat) : Bytes := (List.range size).map (H.junk request)

def Hooks.moved (H : Hooks) (request : Nat) (block : Bytes) (count size : Nat) : Bytes :=
  block.take count ++ (H.fresh request size).drop count

def newsize (needed : Nat) : Option Nat :=
  if intMax / 2 < needed then
    if needed ≤ intMax then some intMax else none
  else some (needed * 2)

section Model

variable (H : Hooks) (F : NumberFormat) (noalloc format : Bool)

/-- realloc, or a new block into which the bytes up to the offset are copied. -/
def reallocate (p : Printbuffer) (size : Nat) : Outcome Printbuffer :=
  if H.grants p.requests then
    if H.reallocates then
      .ok { p with buffer := H.moved p.requests p.buffer (min size p.buffer.length) size, requests := p.requests + 1 }
    else if p.offset + 1 ≤ p.buffer.length then
      .ok { p with buffer := H.moved p.requests p.buffer (p.offset + 1) size, requests := p.requests + 1 }
    else .undefined
  else .refused

def ensure (p : Printbuffer) (needed : Nat) : Outcome Printbuffer :=
  if 0 < p.buffer.length ∧ p.buffer.length ≤ p.offset then .refused
  else if intMax < needed then .refused
  else if needed + (p.offset + 1) ≤ p.buffer.length then .ok p
  else if noalloc then .refused
  else match newsize (needed + (p.offset + 1)) with
    | some size => reallocate H p size
    | none => .refused

def store (p : Printbuffer) (position : Nat) (bytes : Bytes) : Outcome Printbuffer :=
  if position + bytes.length ≤ p.buffer.length then
    .ok { p with buffer := p.buffer.take position ++ bytes ++ p.buffer.drop (position + bytes.length) }
  else .undefined

def updateOffset (p : Printbuffer) : Outcome Printbuffer :=
  if 0 ∈ p.buffer.drop p.offset then .ok { p with offset := p.offset + (cstr (p.buffer.drop p.offset)).length }
  else .undefined

def emit (p : Printbuffer) (needed : Nat) (bytes : Bytes) : Outcome Printbuffer := do
  let p ← ensure H noalloc p needed
  store p p.offset bytes

def emitAdvance (p : Printbuffer) (needed : Nat) (bytes : Bytes) (length : Nat) : Outcome Printbuffer := do
  let p ← emit H noalloc p needed bytes
  return { p with offset := p.offset + length }

def escapeCharacters (b : UInt8) : Nat :=
  if b = quote ∨ b = backslash ∨ b = 8 ∨ b = 12 ∨ b = 10 ∨ b = 13 ∨ b = 9 then 1 else if b < 32 then 5 else 0

/-- The escapes of the second loop that are one character; sprintf writes the others. -/
def shortEscape (b : UInt8) : Option UInt8 :=
  if b = backslash then some backslash
  else if b = quote then some quote
  else if b = 8 then some 0x62
  else if b = 12 then some 0x66
  else if b = 10 then some 0x6e
  else if b = 13 then some 0x72
  else if b = 9 then some 0x74
  else none

def copyString (p : Printbuffer) (output : Nat) : Bytes → Outcome Printbuffer
  | [] => .ok p
  | b :: rest =>
    if b > 31 ∧ b ≠ quote ∧ b ≠ backslash then do
      let p ← store p output [b]
      copyString p (output + 1) rest
    else do
      let p ← store p output [backslash]
      match shortEscape b with
      | some c => do
        let p ← store p (output + 1) [c]
        copyString p (output + 2) rest
      | none => do
        let p ← store p (output + 1) (lit "u00" ++ [hexChar (b.toNat / 16), hexChar (b.toNat % 16)] ++ [0])
        copyString p (output + 6) rest

def printStringPtr (p : Printbuffer) (input : Bytes) : Outcome Printbuffer := do
  let escapes := (input.map escapeCharacters).sum
  let outputLength := input.length + escapes
  let p ← ensure H noalloc p (outputLength + 3)
  let output := p.offset
  if escapes = 0 then store p output (quote :: input ++ [quote, 0])
  else do
    let p ← store p output [quote]
    let p ← copyString p (output + 1) input
    let p ← store p (output + outputLength + 1) [quote]
    store p (output + outputLength + 2) [0]

/-- The tabs before a name, which are not terminated. -/
def printIndent (p : Printbuffer) : Outcome Printbuffer :=
  if format then emitAdvance H noalloc p p.depth (List.replicate p.depth 0x09) p.depth else .ok p

def printComma (p : Printbuffer) (last : Bool) : Outcome Printbuffer :=
  if last then .ok p
  else
    let comma := lit "," ++ ifFormat format (lit " ")
    emitAdvance H noalloc p (comma.length + 1) (comma ++ [0]) comma.length

mutual

def printValue (p : Printbuffer) : CJSON → Outcome Printbuffer
  | .null => emit H noalloc p 5 (lit "null" ++ [0])
  | .false => emit H noalloc p 6 (lit "false" ++ [0])
  | .true => emit H noalloc p 5 (lit "true" ++ [0])
  | .number text =>
    let digits := (F.print text).getD (lit "null")
    emitAdvance H noalloc p (digits.length + 1) (digits ++ [0]) digits.length
  | .string valuestring => printStringPtr H noalloc p (cstr valuestring)
  | .array child => do
    let p ← emitAdvance H noalloc p 1 (lit "[") 1
    let p ← printElements { p with depth := p.depth + 1 } child
    let p ← emit H noalloc p 2 (lit "]" ++ [0])
    return { p with depth := p.depth - 1 }
  | .object child => do
    let head := lit "\x7b" ++ ifFormat format (lit "\n")
    let p ← emitAdvance H noalloc p (head.length + 1) head head.length
    let p ← printPairs { p with depth := p.depth + 1 } child
    let p ← emit H noalloc p (if format then p.depth + 1 else 2) (tabs format (p.depth - 1) ++ lit "\x7d" ++ [0])
    return { p with depth := p.depth - 1 }

def printElements (p : Printbuffer) : List CJSON → Outcome Printbuffer
  | [] => .ok p
  | v :: next => do
    let p ← printValue p v
    let p ← updateOffset p
    let p ← printComma H noalloc format p next.isEmpty
    printElements p next

def printPairs (p : Printbuffer) : List (Bytes × CJSON) → Outcome Printbuffer
  | [] => .ok p
  | (name, v) :: next => do
    let p ← printIndent H noalloc format p
    let p ← printStringPtr H noalloc p (cstr name)
    let p ← updateOffset p
    let colon := lit ":" ++ ifFormat format (lit "\t")
    let p ← emitAdvance H noalloc p colon.length colon colon.length
    let p ← printValue p v
    let p ← updateOffset p
    let comma := (if next.isEmpty then [] else lit ",") ++ ifFormat format (lit "\n")
    let p ← emitAdvance H noalloc p (comma.length + 1) (comma ++ [0]) comma.length
    printPairs p next

end

def shrink (p : Printbuffer) : Outcome Bytes :=
  let block := H.moved p.requests p.buffer (min p.buffer.length (p.offset + 1)) (p.offset + 1)
  if H.grants p.requests then .ok (if H.reallocates then block else block.set p.offset 0) else .refused

def print (item : CJSON) : Outcome Bytes :=
  if H.grants 0 then do
    let p ← printValue H F false format ⟨H.fresh 0 256, 0, 0, 1⟩ item
    let p ← updateOffset p
    shrink H p
  else .refused

def cJSONPrintBuffered (item : CJSON) (prebuffer : Int) : Outcome Bytes :=
  if prebuffer < 0 then .refused
  else if H.grants 0 then do
    let p ← printValue H F false format ⟨H.fresh 0 prebuffer.toNat, 0, 0, 1⟩ item
    return p.buffer
  else .refused

/-- What is left in the caller's buffer; it is of the length that the caller states. -/
def cJSONPrintPreallocated (item : CJSON) (buffer : Bytes) : Outcome Bytes := do
  let p ← printValue H F true format ⟨buffer, 0, 0, 0⟩ item
  return p.buffer

end Model

/-- A print into a block that starts with this length, of a text with this total length. -/
structure Job where
  noalloc : Bool
  length : Nat
  total : Nat

/-- Why a print may fail: the block is too short and does not grow, or the text is too long. -/
def Job.Excused (J : Job) (H : Hooks) : Prop :=
  (J.length < J.total + 2 ∧ (J.noalloc = true ∨ ∃ n, H.grants n = false)) ∨ intMax < J.total + 2

def Job.Safe (J : Job) (H : Hooks) : Prop := 0 < J.length ∨ H.reallocates = true ∨ J.noalloc = true

/-- The block begins with a text and has at least so much room. -/
structure Filled (J : Job) (text : Bytes) (offset room depth : Nat) (p : Printbuffer) : Prop where
  text : text <+: p.buffer
  offset : p.offset = offset
  room : room ≤ p.buffer.length
  depth : p.depth = depth
  least : J.length ≤ p.buffer.length
  most : p.buffer.length ≤ intMax
  fixed : J.noalloc = true → p.buffer.length = J.length

/-- The offset is behind the text, and not at the end of the block. -/
structure Ready (J : Job) (text : Bytes) (depth : Nat) (p : Printbuffer) : Prop where
  filled : Filled J text text.length 0 depth p
  inside : 0 < p.buffer.length → text.length < p.buffer.length

/-- The text is terminated, and the offset is somewhere in it. -/
structure Pending (J : Job) (text : Bytes) (depth : Nat) (p : Printbuffer) : Prop where
  start : p.offset ≤ text.length
  filled : Filled J (text ++ [0]) p.offset (text.length + 2) depth p

section Steps

variable {H : Hooks} {J : Job} {p : Printbuffer} {t : Bytes} {offset room d : Nat}

theorem Filled.shorter {more : Bytes} (h : Filled J (t ++ more) offset room d p) : Filled J t offset room d p :=
  { h with text := (List.prefix_append t more).trans h.text }

theorem Filled.ready {more : Bytes} (h : Filled J (t ++ more) t.length room d p) (hRoom : t.length < room) :
    Ready J t d p :=
  ⟨{ h.shorter with room := Nat.zero_le _ }, fun _ => Nat.lt_of_lt_of_le hRoom h.room⟩

theorem Filled.pending (h : Filled J (t ++ [0]) offset room d p) (hOffset : offset ≤ t.length)
    (hRoom : t.length + 2 ≤ room) : Pending J t d p :=
  ⟨h.offset.trans_le hOffset, { h with offset := rfl, room := hRoom.trans h.room }⟩

theorem Ready.deeper (h : Ready J t d p) : Ready J t (d + 1) { p with depth := p.depth + 1 } :=
  ⟨{ h.filled with depth := congrArg (· + 1) h.filled.depth }, h.inside⟩

theorem Pending.higher (h : Pending J t (d + 1) p) : Pending J t d { p with depth := p.depth - 1 } :=
  ⟨h.start, { h.filled with depth := congrArg (· - 1) h.filled.depth }⟩

theorem length_moved {request count size : Nat} {block : Bytes} (hBlock : count ≤ block.length) (hSize : count ≤ size) :
    (H.moved request block count size).length = size := by
  rw [Hooks.moved, Hooks.fresh, List.length_append, List.length_take, List.length_drop, List.length_map,
    List.length_range]
  omega

theorem prefix_moved {request count size : Nat} {block : Bytes} (h : t <+: block) (hCount : t.length ≤ count) :
    t <+: H.moved request block count size :=
  (List.prefix_take_iff.mpr ⟨h, hCount⟩).trans (List.prefix_append _ _)

theorem newsize_some {needed size : Nat} (h : newsize needed = some size) : needed ≤ size ∧ size ≤ intMax := by
  rw [newsize] at h
  split at h
  · obtain ⟨hFits, hSize⟩ := Option.ite_none_right_eq_some.mp h
    rw [← Option.some.inj hSize]
    exact ⟨hFits, Nat.le_refl _⟩
  · rw [← Option.some.inj h]
    omega

theorem newsize_none {needed : Nat} (h : newsize needed = none) : intMax < needed := by
  rw [newsize] at h
  split at h
  · by_contra hFits
    rw [if_pos (Nat.le_of_not_lt hFits)] at h
    cases h
  · cases h

theorem reallocate_spec (hSafe : J.Safe H) (hGrow : J.noalloc = false) (h : Ready J t d p) {size : Nat}
    (hLarger : p.buffer.length < size) (hMost : size ≤ intMax) (hTotal : J.length < J.total + 2) :
    (reallocate H p size).Meets (J.Excused H) (Filled J t t.length size d) := by
  have hText := h.filled.text
  have hOffset := h.filled.offset
  have hFixed : ∀ length, J.noalloc = true → length = J.length := by
    intro length hTrue
    rw [hGrow] at hTrue
    cases hTrue
  have hLeast := h.filled.least
  have hMoved : ∀ count, t.length ≤ count → count ≤ p.buffer.length → Filled J t t.length size d
      { p with buffer := H.moved p.requests p.buffer count size, requests := p.requests + 1 } := by
    intro count hCount hBlock
    have hLength : (H.moved p.requests p.buffer count size).length = size := length_moved hBlock (by omega)
    exact ⟨prefix_moved hText hCount, hOffset, hLength.ge, h.filled.depth, by dsimp only; omega, by dsimp only; omega,
      hFixed _⟩
  rw [reallocate]
  split
  · split
    · exact hMoved _ (by have := hText.length_le; omega) (Nat.min_le_right _ _)
    · split
      · exact hMoved _ (by omega) ‹_›
      · rename_i hReal hInside
        have hPos : 0 < p.buffer.length := by
          obtain hPos | hReal' | hTrue := hSafe
          · omega
          · exact absurd hReal' hReal
          · rw [hGrow] at hTrue
            cases hTrue
        exact absurd (h.inside hPos) (by omega)
  · rename_i hDenied
    exact .inl ⟨hTotal, .inr ⟨p.requests, Bool.eq_false_of_not_eq_true hDenied⟩⟩

theorem ensure_spec (hSafe : J.Safe H) (h : Ready J t d p) {needed : Nat} (hNeeded : t.length + needed ≤ J.total + 1) :
    (ensure H J.noalloc p needed).Meets (J.Excused H) (Filled J t t.length (t.length + needed + 1) d) := by
  have hOffset := h.filled.offset
  have hLeast := h.filled.least
  rw [ensure, if_neg (by rintro ⟨hPos, hEnd⟩; have := h.inside hPos; omega)]
  split
  · exact .inr (by omega)
  split
  · exact { h.filled with room := by omega }
  rename_i hShort
  split
  · rename_i hFixed
    have hLength := h.filled.fixed hFixed
    exact .inl ⟨by omega, .inl hFixed⟩
  · rename_i hGrow
    cases hSize : newsize (needed + (p.offset + 1)) with
    | none =>
      have hTooLong := newsize_none hSize
      exact .inr (by omega)
    | some size =>
      obtain ⟨hEnough, hMost⟩ := newsize_some hSize
      refine (reallocate_spec hSafe (by simpa using hGrow) h (by omega) hMost (by omega)).mono fun q hq => ?_
      exact { hq with room := le_trans (by omega) hq.room }

theorem store_spec (h : Filled J t offset room d p) {bytes : Bytes} (hRoom : t.length + bytes.length ≤ room) {position : Nat}
    (hPosition : position = t.length) :
    (store p position bytes).Meets (J.Excused H) (Filled J (t ++ bytes) offset room d) := by
  subst hPosition
  have hInside := hRoom.trans h.room
  have hFront : p.buffer.take t.length = t := (List.prefix_iff_eq_take.mp h.text).symm
  have hLength : (t ++ bytes ++ p.buffer.drop (t.length + bytes.length)).length = p.buffer.length := by
    rw [List.length_append, List.length_append, List.length_drop]
    omega
  rw [store, if_pos hInside, hFront]
  exact ⟨List.prefix_append _ _, h.offset, by dsimp only; rw [hLength]; exact h.room, h.depth,
    by dsimp only; rw [hLength]; exact h.least, by dsimp only; rw [hLength]; exact h.most,
    by dsimp only; rw [hLength]; exact h.fixed⟩

theorem updateOffset_filled (h : Pending J t d p) (hNul : 0 ∉ t) :
    (updateOffset p).Meets (J.Excused H) (Filled J (t ++ [0]) t.length (t.length + 2) d) := by
  obtain ⟨rest, hBuffer⟩ := h.filled.text
  have hDrop : p.buffer.drop p.offset = t.drop p.offset ++ 0 :: rest := by
    rw [← hBuffer, List.append_assoc, List.drop_append_of_le_length h.start]
    rfl
  have hEnd : cstr (p.buffer.drop p.offset) = t.drop p.offset := by
    rw [hDrop]
    exact cstr_terminated (fun hMem => hNul (List.mem_of_mem_drop hMem)) rest
  have hLength : p.offset + (t.drop p.offset).length = t.length := by
    have := h.start
    rw [List.length_drop]
    omega
  rw [updateOffset, if_pos (by rw [hDrop]; simp), hEnd, hLength]
  exact { h.filled with offset := rfl }

theorem updateOffset_spec (h : Pending J t d p) (hNul : 0 ∉ t) :
    (updateOffset p).Meets (J.Excused H) (Ready J t d) :=
  (updateOffset_filled h hNul).mono fun q hq => hq.ready (by omega)

theorem emit_spec (hSafe : J.Safe H) (h : Ready J t d p) {needed : Nat} {bytes : Bytes}
    (hNeeded : t.length + needed ≤ J.total + 1) (hBytes : bytes.length ≤ needed) :
    (emit H J.noalloc p needed bytes).Meets (J.Excused H) (Filled J (t ++ bytes) t.length (t.length + needed + 1) d) := by
  refine (ensure_spec hSafe h hNeeded).bind fun q hq => ?_
  exact store_spec hq (by omega) hq.offset

theorem emit_terminated (hSafe : J.Safe H) (h : Ready J t d p) (shown : Bytes) {needed : Nat}
    (hNeeded : needed = shown.length + 1) (hTotal : t.length + shown.length ≤ J.total) :
    (emit H J.noalloc p needed (shown ++ [0])).Meets (J.Excused H) (Pending J (t ++ shown) d) := by
  have hLength : (shown ++ [0]).length = needed := by rw [List.length_append, List.length_singleton, hNeeded]
  refine (emit_spec hSafe h (by omega) hLength.le).mono fun q hq => ?_
  rw [← List.append_assoc] at hq
  refine hq.pending ?_ ?_
  · rw [List.length_append]
    omega
  · rw [List.length_append]
    omega

theorem emitAdvance_spec (hSafe : J.Safe H) (h : Ready J t d p) {needed : Nat} {shown : Bytes} (more : Bytes)
    (hNeeded : t.length + needed ≤ J.total + 1) (hBytes : (shown ++ more).length ≤ needed) :
    (emitAdvance H J.noalloc p needed (shown ++ more) shown.length).Meets (J.Excused H)
      (Filled J (t ++ shown ++ more) (t ++ shown).length (t.length + needed + 1) d) := by
  refine (emit_spec hSafe h hNeeded hBytes).bind fun q hq => ?_
  rw [List.append_assoc, List.length_append]
  exact Outcome.Meets.pure { hq with offset := congrArg (· + shown.length) hq.offset }

theorem emitAdvance_ready (hSafe : J.Safe H) (h : Ready J t d p) {needed : Nat} {shown : Bytes} (more : Bytes)
    (hNeeded : t.length + needed ≤ J.total + 1) (hBytes : (shown ++ more).length ≤ needed) :
    (emitAdvance H J.noalloc p needed (shown ++ more) shown.length).Meets (J.Excused H) (Ready J (t ++ shown) d) := by
  refine (emitAdvance_spec hSafe h more hNeeded hBytes).mono fun q hq => hq.ready ?_
  rw [List.length_append] at hBytes ⊢
  omega

theorem emitAdvance_bare (hSafe : J.Safe H) (h : Ready J t d p) {needed : Nat} {shown : Bytes}
    (hNeeded : t.length + needed ≤ J.total + 1) (hBytes : shown.length ≤ needed) {length : Nat}
    (hLength : length = shown.length) :
    (emitAdvance H J.noalloc p needed shown length).Meets (J.Excused H) (Ready J (t ++ shown) d) := by
  have hBare := emitAdvance_ready hSafe h [] hNeeded (by rwa [List.append_nil])
  rwa [List.append_nil, ← hLength] at hBare

theorem length_printByte (b : UInt8) : (printByte b).length = 1 + escapeCharacters b := by
  have hAll : ∀ n < 256, (printByte (UInt8.ofNat n)).length = 1 + escapeCharacters (UInt8.ofNat n) := by decide +kernel
  have hByte := hAll b.toNat b.toNat_lt
  rwa [UInt8.ofNat_toNat] at hByte

theorem length_printed (input : Bytes) :
    (input.flatMap printByte).length = input.length + (input.map escapeCharacters).sum := by
  induction input with
  | nil => rfl
  | cons b rest ih =>
    rw [List.flatMap_cons, List.length_append, ih, length_printByte, List.map_cons, List.sum_cons, List.length_cons]
    omega

theorem printed_plain {input : Bytes} (h : (input.map escapeCharacters).sum = 0) : input.flatMap printByte = input := by
  induction input with
  | nil => rfl
  | cons b rest ih =>
    rw [List.map_cons, List.sum_cons, Nat.add_eq_zero_iff] at h
    have hByte : printByte b = [b] := by
      have hOne := length_printByte b
      rw [h.1] at hOne
      obtain ⟨hEq, _⟩ | ⟨c, hEq, _⟩ | ⟨_, hEq⟩ := printByte_cases b
      · exact hEq
      · rw [hEq] at hOne
        cases hOne
      · rw [hEq] at hOne
        cases hOne
    rw [List.flatMap_cons, ih h.2, hByte]
    rfl

def escapeBody (b : UInt8) : Bytes :=
  match shortEscape b with
  | some c => [c]
  | none => lit "u00" ++ [hexChar (b.toNat / 16), hexChar (b.toNat % 16)]

theorem printByte_escape {b : UInt8} (h : ¬ (b > 31 ∧ b ≠ quote ∧ b ≠ backslash)) :
    printByte b = [backslash] ++ escapeBody b := by
  rw [printByte, if_neg h, escapeBody, shortEscape]
  split_ifs <;> rfl

theorem copyString_spec (input : Bytes) (h : Filled J t offset room d p)
    (hRoom : t.length + (input.flatMap printByte).length + 1 ≤ room) {output : Nat} (hOutput : output = t.length) :
    (copyString p output input).Meets (J.Excused H) (Filled J (t ++ input.flatMap printByte) offset room d) := by
  induction input generalizing p t output with
  | nil =>
    rw [List.flatMap_nil, List.append_nil]
    exact h
  | cons b rest ih =>
    rw [List.flatMap_cons, List.length_append] at hRoom
    rw [List.flatMap_cons, ← List.append_assoc, copyString]
    split
    · rename_i hPlain
      have hByte : printByte b = [b] := by rw [printByte, if_pos hPlain]
      rw [hByte, List.length_singleton] at hRoom
      rw [hByte]
      refine (store_spec h (by rw [List.length_singleton]; omega) hOutput).bind fun q hq => ?_
      refine ih hq ?_ ?_
      · rw [List.length_append, List.length_singleton]
        omega
      · rw [List.length_append, List.length_singleton, hOutput]
    · rename_i hEscape
      rw [printByte_escape hEscape, List.length_append, List.length_singleton] at hRoom
      rw [printByte_escape hEscape, ← List.append_assoc]
      refine (store_spec h (by rw [List.length_singleton]; omega) hOutput).bind fun q hq => ?_
      have hNext : output + 1 = (t ++ [backslash]).length := by rw [List.length_append, List.length_singleton, hOutput]
      cases hShort : shortEscape b with
      | some c =>
        have hBody : escapeBody b = [c] := by rw [escapeBody, hShort]
        rw [hBody, List.length_singleton] at hRoom
        rw [hBody]
        refine (store_spec hq (by rw [← hNext, List.length_singleton]; omega) hNext).bind fun r hr => ?_
        refine ih hr ?_ ?_
        · rw [List.length_append, ← hNext, List.length_singleton]
          omega
        · rw [List.length_append, ← hNext, List.length_singleton]
      | none =>
        have hBody : escapeBody b = lit "u00" ++ [hexChar (b.toNat / 16), hexChar (b.toNat % 16)] := by
          rw [escapeBody, hShort]
        have hLength : (escapeBody b).length = 5 := by
          rw [hBody]
          rfl
        rw [hLength] at hRoom
        dsimp only
        rw [← hBody]
        refine (store_spec hq (by simp only [List.length_append, List.length_singleton, hLength]; omega) hNext).bind
          fun r hr => ?_
        rw [← List.append_assoc] at hr
        refine ih hr.shorter ?_ ?_
        · rw [List.length_append, ← hNext, hLength]
          omega
        · rw [List.length_append, ← hNext, hLength]

theorem printStringPtr_spec (hSafe : J.Safe H) (h : Ready J t d p) (input : Bytes)
    (hTotal : t.length + (CJson.printStringPtr input).length ≤ J.total) :
    (printStringPtr H J.noalloc p input).Meets (J.Excused H) (Pending J (t ++ CJson.printStringPtr input) d) := by
  have hLength := length_printed input
  have hPrinted : (CJson.printStringPtr input).length = (input.flatMap printByte).length + 2 := by
    rw [CJson.printStringPtr, List.length_append, List.length_cons, List.length_singleton]
  rw [hPrinted] at hTotal
  rw [printStringPtr]
  dsimp only
  refine (ensure_spec hSafe h (by omega)).bind fun q hq => ?_
  have hStart : q.offset = t.length := hq.offset
  split
  · rename_i hNone
    have hText : quote :: input ++ [quote, 0] = CJson.printStringPtr input ++ [0] := by
      rw [CJson.printStringPtr, printed_plain hNone, List.append_assoc]
      rfl
    rw [hText]
    refine (store_spec hq (by rw [List.length_append, hPrinted, List.length_singleton]; omega) hStart).mono fun r hr => ?_
    rw [← List.append_assoc] at hr
    refine hr.pending ?_ ?_
    · rw [List.length_append]
      omega
    · rw [List.length_append, hPrinted]
      omega
  · have hFirst : (t ++ [quote]).length = t.length + 1 := by rw [List.length_append, List.length_singleton]
    refine (store_spec hq (by rw [List.length_singleton]; omega) hStart).bind fun r hr => ?_
    refine (copyString_spec input hr (by omega) (by omega)).bind fun s hs => ?_
    refine (store_spec hs (by simp only [List.length_append, List.length_singleton]; omega)
      (by simp only [List.length_append, List.length_singleton]; omega)).bind fun u hu => ?_
    refine (store_spec hu (by simp only [List.length_append, List.length_singleton]; omega)
      (by simp only [List.length_append, List.length_singleton]; omega)).mono fun w hw => ?_
    have hText : t ++ [quote] ++ input.flatMap printByte ++ [quote] = t ++ CJson.printStringPtr input := by
      rw [CJson.printStringPtr]
      simp only [List.append_assoc]
      rfl
    rw [hText] at hw
    refine hw.pending ?_ ?_
    · rw [List.length_append]
      omega
    · rw [List.length_append, hPrinted]
      omega

end Steps

end MonitorSystem.PrintBuffer
