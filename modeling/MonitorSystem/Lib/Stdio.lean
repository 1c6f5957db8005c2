import MonitorSystem.Lib.CString

/-! # Reading a stream line by line -/

namespace Lib.Stdio

open Lib.CString

/-- The bytes fgets takes when it has room for so many, and the rest of the stream. -/
def getsLine : Nat → Bytes → Bytes × Bytes
  | 0, stream => ([], stream)
  | _ + 1, [] => ([], [])
  | room + 1, b :: stream =>
    if b = 0x0a then ([b], stream)
    else (b :: (getsLine room stream).1, (getsLine room stream).2)

/-- fgets into a buffer of this size; none is the null pointer at the end of the file. -/
def fgets (size : Nat) (stream : Bytes) : Option (Bytes × Bytes) :=
  if stream = [] then none else some (getsLine (size - 1) stream)

theorem getsLine_append (room : Nat) (stream : Bytes) :
    (getsLine room stream).1 ++ (getsLine room stream).2 = stream := by
  induction room generalizing stream with
  | zero => rfl
  | succ room ih =>
    cases stream with
    | nil => rfl
    | cons b stream =>
      rw [getsLine]
      split
      · rfl
      · rw [List.cons_append, ih]

theorem length_getsLine_le (room : Nat) (stream : Bytes) : (getsLine room stream).1.length ≤ room := by
  induction room generalizing stream with
  | zero => exact Nat.le_refl 0
  | succ room ih =>
    cases stream with
    | nil => exact Nat.zero_le _
    | cons b stream =>
      rw [getsLine]
      split
      · exact Nat.succ_le_succ (Nat.zero_le room)
      · exact Nat.succ_le_succ (ih stream)

def fgetsAll (size : Nat) : Nat → Bytes → List Bytes
  | 0, _ => []
  | fuel + 1, stream =>
    match fgets size stream with
    | none => []
    | some (line, rest) => line :: fgetsAll size fuel rest

/-- Every call takes at least a byte, so there are at most as many calls as bytes. -/
def fgetsLines (size : Nat) (stream : Bytes) : List Bytes := fgetsAll size stream.length stream

theorem length_getsLine_rest {size : Nat} (hSize : 2 ≤ size) {stream : Bytes} (hStream : stream ≠ []) :
    (getsLine (size - 1) stream).2.length < stream.length := by
  cases stream with
  | nil => exact absurd rfl hStream
  | cons b stream =>
    obtain ⟨room, hRoom⟩ : ∃ room, size - 1 = room + 1 := ⟨size - 2, by omega⟩
    have hLength := congrArg List.length (getsLine_append (size - 1) (b :: stream))
    have hTaken : 0 < (getsLine (size - 1) (b :: stream)).1.length := by
      rw [hRoom, getsLine]
      split <;> exact Nat.zero_lt_succ _
    rw [List.length_append] at hLength
    omega

theorem fgetsAll_cons {size fuel : Nat} {stream : Bytes} (hStream : stream ≠ []) :
    fgetsAll size (fuel + 1) stream =
      (getsLine (size - 1) stream).1 :: fgetsAll size fuel (getsLine (size - 1) stream).2 := by
  rw [fgetsAll, fgets, if_neg hStream]

theorem length_of_mem_fgetsAll {size : Nat} (hSize : 0 < size) {fuel : Nat} {stream line : Bytes}
    (h : line ∈ fgetsAll size fuel stream) : line.length < size := by
  induction fuel generalizing stream with
  | zero => cases h
  | succ fuel ih =>
    by_cases hStream : stream = []
    · rw [hStream] at h
      cases h
    · rw [fgetsAll_cons hStream] at h
      obtain rfl | h := List.mem_cons.mp h
      · have hLength := length_getsLine_le (size - 1) stream
        omega
      · exact ih h

theorem flatten_fgetsAll {size : Nat} (hSize : 2 ≤ size) {fuel : Nat} {stream : Bytes}
    (hFuel : stream.length ≤ fuel) : (fgetsAll size fuel stream).flatten = stream := by
  induction fuel generalizing stream with
  | zero => exact (List.length_eq_zero_iff.mp (Nat.le_zero.mp hFuel)).symm
  | succ fuel ih =>
    by_cases hStream : stream = []
    · rw [hStream]
      rfl
    · have hRest := length_getsLine_rest hSize hStream
      rw [fgetsAll_cons hStream, List.flatten_cons, ih (by omega), getsLine_append]

theorem flatten_fgetsLines {size : Nat} (hSize : 2 ≤ size) (stream : Bytes) :
    (fgetsLines size stream).flatten = stream :=
  flatten_fgetsAll hSize le_rfl

theorem fgetsAll_fuel {size : Nat} (hSize : 2 ≤ size) {fuel : Nat} {stream : Bytes}
    (hFuel : stream.length ≤ fuel) : fgetsAll size fuel stream = fgetsLines size stream := by
  induction hLength : stream.length using Nat.strong_induction_on generalizing fuel stream with
  | h k ih =>
    by_cases hStream : stream = []
    · rw [hStream]
      cases fuel <;> rfl
    · have hRest := length_getsLine_rest hSize hStream
      obtain ⟨k', rfl⟩ : ∃ k', k = k' + 1 := ⟨k - 1, by omega⟩
      obtain ⟨fuel', rfl⟩ : ∃ fuel', fuel = fuel' + 1 := ⟨fuel - 1, by omega⟩
      rw [fgetsLines, hLength, fgetsAll_cons hStream, fgetsAll_cons hStream,
        ih _ (by omega) (by omega) rfl, ih _ (by omega) (by omega) rfl]

/-- Induction over the lines of a text, the last of which may lack its newline. -/
@[elab_as_elim]
theorem lineInduction {motive : Bytes → Prop} (last : ∀ s, 0x0a ∉ s → motive s)
    (line : ∀ first rest, 0x0a ∉ first → motive rest → motive (first ++ 0x0a :: rest)) (s : Bytes) :
    motive s := by
  induction hLength : s.length using Nat.strong_induction_on generalizing s with
  | h k ih =>
    by_cases hNewline : 0x0a ∈ s
    · obtain ⟨first, rest, rfl, hPlain⟩ := List.eq_append_cons_of_mem hNewline
      rw [List.length_append, List.length_cons] at hLength
      exact line first rest hPlain (ih rest.length (by omega) rest rfl)
    · exact last s hNewline

theorem getsLine_line {room : Nat} {first : Bytes} (hPlain : 0x0a ∉ first) (hShort : first.length < room)
    (rest : Bytes) : getsLine room (first ++ 0x0a :: rest) = (first ++ [0x0a], rest) := by
  induction first generalizing room with
  | nil =>
    obtain ⟨room, rfl⟩ : ∃ r, room = r + 1 := ⟨room - 1, by omega⟩
    rfl
  | cons b first ih =>
    rw [List.mem_cons, not_or] at hPlain
    rw [List.length_cons] at hShort
    obtain ⟨room, rfl⟩ : ∃ r, room = r + 1 := ⟨room - 1, by omega⟩
    rw [List.cons_append, getsLine, if_neg (Ne.symm hPlain.1), ih hPlain.2 (by omega)]
    rfl

theorem getsLine_last {room : Nat} {s : Bytes} (hPlain : 0x0a ∉ s) (hShort : s.length ≤ room) :
    getsLine room s = (s, []) := by
  induction s generalizing room with
  | nil => cases room <;> rfl
  | cons b s ih =>
    rw [List.mem_cons, not_or] at hPlain
    rw [List.length_cons] at hShort
    obtain ⟨room, rfl⟩ : ∃ r, room = r + 1 := ⟨room - 1, by omega⟩
    rw [getsLine, if_neg (Ne.symm hPlain.1), ih hPlain.2 (by omega)]

theorem fgetsLines_line {size : Nat} {first : Bytes} (hPlain : 0x0a ∉ first)
    (hShort : first.length + 1 < size) (rest : Bytes) :
    fgetsLines size (first ++ 0x0a :: rest) = (first ++ [0x0a]) :: fgetsLines size rest := by
  have hLength : (first ++ 0x0a :: rest).length = (first.length + rest.length) + 1 := by
    rw [List.length_append, List.length_cons, Nat.add_assoc]
  rw [fgetsLines, hLength, fgetsAll_cons (by simp), getsLine_line hPlain (by omega),
    fgetsAll_fuel (by omega) (Nat.le_add_left _ _)]

theorem fgetsLines_last {size : Nat} {s : Bytes} (hs : s ≠ []) (hPlain : 0x0a ∉ s)
    (hShort : s.length < size) : fgetsLines size s = [s] := by
  obtain ⟨n, hLength⟩ := Nat.exists_eq_succ_of_ne_zero (mt List.length_eq_zero_iff.mp hs)
  rw [fgetsLines, hLength, Nat.succ_eq_add_one, fgetsAll_cons hs, getsLine_last hPlain (by omega)]
  cases n <;> rfl

def getlines : Bytes → List Bytes
  | [] => []
  | b :: s =>
    if b = 0x0a then [b] :: getlines s
    else match getlines s with
      | [] => [[b]]
      | line :: lines => (b :: line) :: lines

theorem getlines_line {first : Bytes} (hPlain : 0x0a ∉ first) (rest : Bytes) :
    getlines (first ++ 0x0a :: rest) = (first ++ [0x0a]) :: getlines rest := by
  induction first with
  | nil => exact if_pos rfl
  | cons b first ih =>
    rw [List.mem_cons, not_or] at hPlain
    rw [List.cons_append, getlines, if_neg (Ne.symm hPlain.1), ih hPlain.2]
    rfl

theorem getlines_last {s : Bytes} (hs : s ≠ []) (hPlain : 0x0a ∉ s) : getlines s = [s] := by
  induction s with
  | nil => exact absurd rfl hs
  | cons b s ih =>
    rw [List.mem_cons, not_or] at hPlain
    rw [getlines, if_neg (Ne.symm hPlain.1)]
    cases s with
    | nil => rfl
    | cons c s => rw [ih (List.cons_ne_nil c s) hPlain.2]

def IsLine (size : Nat) (line : Bytes) : Prop := ∃ body, line = body ++ [0x0a] ∧ 0x0a ∉ body ∧ body.length + 1 < size

theorem fgetsLines_flatten {size : Nat} {lines : List Bytes} (h : ∀ line ∈ lines, IsLine size line) :
    fgetsLines size lines.flatten = lines := by
  induction lines with
  | nil => rfl
  | cons line lines ih =>
    rw [List.forall_mem_cons] at h
    obtain ⟨⟨body, rfl, hPlain, hShort⟩, hRest⟩ := h
    rw [List.flatten_cons, List.append_assoc, List.singleton_append, fgetsLines_line hPlain hShort, ih hRest]

def Ended (s : Bytes) : Prop := s = [] ∨ s.getLast? = some 0x0a

theorem ended_line_iff (first rest : Bytes) : Ended (first ++ 0x0a :: rest) ↔ Ended rest := by
  cases rest with
  | nil => simp [Ended]
  | cons b rest => simp [Ended]

theorem ended_concat (s : Bytes) : Ended (s ++ [0x0a]) := .inr List.getLast?_concat

theorem Ended.eq_nil {s : Bytes} (h : Ended s) (hPlain : 0x0a ∉ s) : s = [] :=
  h.elim id fun hLast => absurd (List.mem_of_getLast? hLast) hPlain

theorem fgetsLines_append {size : Nat} {s : Bytes} (hEnded : Ended s) (hShort : s.length < size)
    (t : Bytes) : fgetsLines size (s ++ t) = fgetsLines size s ++ fgetsLines size t := by
  induction s using lineInduction with
  | last s hPlain =>
    rw [hEnded.eq_nil hPlain]
    rfl
  | line first rest hPlain ih =>
    rw [List.length_append, List.length_cons] at hShort
    rw [ended_line_iff] at hEnded
    rw [List.append_assoc, List.cons_append, fgetsLines_line hPlain (by omega),
      fgetsLines_line hPlain (by omega), ih hEnded (by omega), List.cons_append]

theorem length_fgetsLines {size : Nat} {s : Bytes} (hShort : s.length < size) :
    (Ended s → (fgetsLines size s).length = s.count 0x0a) ∧
      (¬ Ended s → (fgetsLines size s).length = s.count 0x0a + 1) := by
  induction s using lineInduction with
  | last s hPlain =>
    rw [List.count_eq_zero_of_not_mem hPlain]
    constructor
    · intro hEnded
      rw [hEnded.eq_nil hPlain]
      rfl
    · intro hOpen
      rw [fgetsLines_last (fun h => hOpen (.inl h)) hPlain hShort]
      rfl
  | line first rest hPlain ih =>
    rw [List.length_append, List.length_cons] at hShort
    have hCount : (first ++ 0x0a :: rest).count 0x0a = rest.count 0x0a + 1 := by
      rw [List.count_append, List.count_eq_zero_of_not_mem hPlain, List.count_cons_self, Nat.zero_add]
    have hRest := ih (by omega)
    rw [ended_line_iff, fgetsLines_line hPlain (by omega), List.length_cons, hCount, Nat.add_right_cancel_iff,
      Nat.add_right_cancel_iff]
    exact hRest

end Lib.Stdio
