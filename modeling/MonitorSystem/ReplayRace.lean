import MonitorSystem.Saved
import MonitorSystem.Lib.Transition

/-! # A replay while the sender appends to the same file

relogin holds its mutex throughout a replay; the sender appends without taking
it. Every call of the replay and every write of the sender is one step, and
the sends of the replay succeed. The last two fields of the state are history.
-/

namespace MonitorSystem.ReplayRace

open Msg Report SendFile Saved Lib.CString Lib.Stdio Lib.Transition

/-- The next call of do_with_file on the file or the socket. -/
inductive Next
  | fgets
  | send (msg : Bytes)
  | emptyFile
deriving DecidableEq

structure Reader where
  offset : Nat
  eof : Bool
  lines : Nat
  temp : Bytes
  next : Next

structure State where
  file : Bytes
  newlineDue : Bool
  replay : Option Reader
  appended : List Bytes
  sent : List Bytes

inductive Act
  | openFile (temp : Bytes)
  | fgets
  | send
  | emptyFile
  | write (m stack : MonitorMsgDs)
  | newline

def hitEnd (a : Bytes) : Bool := a.getLast? ≠ some 0x0a ∧ a.length < msgBuffSize - 1

/-- The body of the loop after fgets; none where strncat runs past the end of temp. -/
def Reader.collect (msgLines : Nat) (r : Reader) (a : Bytes) : Option Reader :=
  let temp := r.temp ++ cstr a
  let r := { r with offset := r.offset + a.length, eof := hitEnd a }
  if msgBuffSize ≤ temp.length then none
  else if r.lines - 1 = 0 then
    if temp = [] then some { r with lines := msgLines, temp := temp, next := .emptyFile }
    else some { r with lines := msgLines, temp := [], next := .send temp }
  else some { r with lines := r.lines - 1, temp := temp }

/-- One fgets; a stream that has met its end stays there. -/
def Reader.fgets (msgLines : Nat) (file : Bytes) (r : Reader) : Option Reader :=
  match if r.eof then none else Lib.Stdio.fgets msgBuffSize (file.drop r.offset) with
  | none => some { r with eof := true, next := .emptyFile }
  | some (a, _) => r.collect msgLines a

def step (kind : Kind) (s : State) : Act → Option State
  | .openFile temp =>
    if s.replay.isNone then
      some { s with replay := some ⟨0, false, linesOf kind, cstr temp, .fgets⟩ }
    else none
  | .fgets => s.replay.bind fun r =>
    if r.next = .fgets then
      (r.fgets (linesOf kind) s.file).map fun r => { s with replay := some r }
    else none
  | .send => s.replay.bind fun r =>
    match r.next with
    | .send msg => some { s with replay := some { r with next := .fgets }, sent := s.sent ++ [msg] }
    | _ => none
  | .emptyFile => s.replay.bind fun r =>
    if r.next = .emptyFile then some { s with file := [], replay := none } else none
  | .write m stack =>
    if s.newlineDue then none
    else (serialise kind m stack).bind fun out =>
      if out.urgent then none
      else some { s with
        file := s.file ++ out.str
        newlineDue := true
        appended := s.appended ++ [out.str] }
  | .newline =>
    if s.newlineDue then some { s with file := s.file ++ [0x0a], newlineDue := false } else none

/-- The file holds the complete reports of earlier runs. -/
structure Start (kind : Kind) (s : State) : Prop where
  complete : ∀ t ∈ s.appended, Complete kind t
  file : s.file = stored s.appended
  newlineDue : s.newlineDue = false
  replay : s.replay = none
  sent : s.sent = []

def system (kind : Kind) : System State Act where
  start := Start kind
  step := step kind

/-- No record is sent more often than it was appended, and every appended
record was sent or is one that do_with_file would find in the file. -/
def Safe (kind : Kind) (s : State) : Prop :=
  (s.sent.map recordOf).Subperm s.appended ∧
    s.appended.Subperm (s.sent.map recordOf ++ (records (linesOf kind) s.file).map recordOf)

/-- A replay starts with no text in temp. A report that is appended has all its
values, fits temp with its newline, and comes before a running replay has met
the end of the file; its newline is there before the file is emptied. -/
def Clean (kind : Kind) (s : State) : Act → Prop
  | .openFile temp => cstr temp = []
  | .write m stack => kind.need ≤ (tokens delim m.text).length ∧
      (∀ out ∈ serialise kind m stack, out.str.length + 1 < msgBuffSize) ∧
      ∀ r ∈ s.replay, r.eof = false
  | .emptyFile => s.newlineDue = false
  | _ => True

instance (kind : Kind) (s : State) : ∀ a, Decidable (Clean kind s a)
  | .openFile temp => inferInstanceAs (Decidable (cstr temp = []))
  | .write m stack => inferInstanceAs (Decidable (kind.need ≤ (tokens delim m.text).length ∧
      (∀ out ∈ serialise kind m stack, out.str.length + 1 < msgBuffSize) ∧
      ∀ r ∈ s.replay, r.eof = false))
  | .emptyFile => inferInstanceAs (Decidable (s.newlineDue = false))
  | .fgets | .send | .newline => inferInstanceAs (Decidable True)

def State.tail (s : State) : Bytes := if s.newlineDue then [0x0a] else []

def Next.pending : Next → List Bytes
  | .send msg => [recordOf msg]
  | _ => []

/-- A running replay: which of the kept records it has collected, and what it
has of the next one. -/
structure Busy (kind : Kind) (s : State) (r : Reader) (cleared kept : List Bytes) : Prop where
  offset : r.offset ≤ s.file.length
  closing : r.next = .emptyFile → r.eof = true
  progress : ∃ done rest, kept = done ++ rest ∧ s.sent.map recordOf ++ r.next.pending = cleared ++ done ∧
    (r.eof = true → rest = []) ∧
    (r.eof = false → r.temp ++ (s.file.drop r.offset ++ s.tail) = stored rest ∧ Ended r.temp ∧
      r.temp.count 0x0a + r.lines = linesOf kind ∧ 0 < r.lines)

structure Holds (kind : Kind) (s : State) (cleared kept : List Bytes) : Prop where
  appended : s.appended = cleared ++ kept
  complete : ∀ t ∈ kept, Complete kind t
  file : s.file ++ s.tail = stored kept
  behind : cleared <+: s.sent.map recordOf
  idle : s.replay = none → s.sent.map recordOf = cleared
  busy : ∀ r, s.replay = some r → Busy kind s r cleared kept

def Inv (kind : Kind) (s : State) : Prop := ∃ cleared kept, Holds kind s cleared kept

theorem State.tail_due {s : State} (h : s.newlineDue = true) : s.tail = [0x0a] := if_pos h

theorem State.tail_written {s : State} (h : s.newlineDue = false) : s.tail = [] :=
  if_neg (Bool.not_eq_true _ ▸ h)

theorem State.tail_cases (s : State) : s.tail = [] ∨ s.tail = [0x0a] := by
  cases hDue : s.newlineDue with
  | true => exact .inr (tail_due hDue)
  | false => exact .inl (tail_written hDue)

theorem Holds.safe {kind : Kind} {s : State} {cleared kept : List Bytes} (h : Holds kind s cleared kept) :
    Safe kind s := by
  rw [Safe, records_stored h.complete s.tail_cases h.file, h.appended]
  constructor
  · cases hReplay : s.replay with
    | none =>
      rw [h.idle hReplay]
      exact (List.prefix_append _ _).sublist.subperm
    | some r =>
      obtain ⟨done, rest, rfl, hSent, _⟩ := (h.busy r hReplay).progress
      have hPrefix : s.sent.map recordOf <+: cleared ++ (done ++ rest) := by
        rw [← List.append_assoc, ← hSent, List.append_assoc]
        exact List.prefix_append _ _
      exact hPrefix.sublist.subperm
  · exact (h.behind.sublist.append_right kept).subperm

theorem next_line {kind : Kind} {text temp rem tail rest : Bytes} {lines : Nat} (hText : Complete kind text)
    (hEq : temp ++ (rem ++ tail) = text ++ 0x0a :: rest)
    (hCount : temp.count 0x0a + lines = linesOf kind) (hLines : 0 < lines) :
    ∃ first more, 0x0a ∉ first ∧ text ++ [0x0a] = temp ++ (first ++ 0x0a :: more) ∧ Ended more ∧
      rem ++ tail = first ++ 0x0a :: (more ++ rest) := by
  have hRecord : temp ++ (rem ++ tail) = text ++ [0x0a] ++ rest := by
    rw [hEq, List.append_assoc, List.singleton_append]
  obtain ⟨v, hv, hRest⟩ | ⟨v, hv, _⟩ := List.append_eq_append_iff.mp hRecord
  · have hNonempty : v ≠ [] := by
      rintro rfl
      have hSame := hText.count_ended
      rw [hv, List.append_nil] at hSame
      omega
    have hEnded : v.getLast? = some 0x0a := by
      have hLast : (temp ++ v).getLast? = some 0x0a := hv ▸ List.getLast?_concat
      rwa [List.getLast?_append_of_ne_nil _ hNonempty] at hLast
    obtain ⟨first, more, rfl, hPlain⟩ := List.eq_append_cons_of_mem (List.mem_of_getLast? hEnded)
    refine ⟨first, more, hPlain, hv, (ended_line_iff first more).mp (.inr hEnded), ?_⟩
    rw [hRest, List.append_assoc, List.cons_append]
  · have hMore := hText.count_ended
    have hTemp := congrArg (List.count 0x0a) hv
    rw [List.count_append] at hTemp
    omega

section

variable {msgLines : Nat} {file first : Bytes} {r : Reader}

theorem fgets_end (h : r.eof = true ∨ file.drop r.offset = []) :
    r.fgets msgLines file = some { r with eof := true, next := .emptyFile } := by
  rw [Reader.fgets]
  split_ifs with hEof
  · rfl
  · rw [h.resolve_left hEof]
    rfl

theorem fgets_line (hEof : r.eof = false) {rest : Bytes} (hFile : file.drop r.offset = first ++ 0x0a :: rest)
    (hPlain : 0x0a ∉ first) (hShort : first.length + 1 < msgBuffSize) :
    r.fgets msgLines file = r.collect msgLines (first ++ [0x0a]) := by
  rw [Reader.fgets, hEof, if_neg Bool.false_ne_true, hFile, Lib.Stdio.fgets, if_neg (by simp),
    getsLine_line hPlain (by omega)]

theorem fgets_last (hEof : r.eof = false) (hFile : file.drop r.offset = first) (hFirst : first ≠ [])
    (hPlain : 0x0a ∉ first) (hShort : first.length < msgBuffSize) :
    r.fgets msgLines file = r.collect msgLines first := by
  rw [Reader.fgets, hEof, if_neg Bool.false_ne_true, hFile, Lib.Stdio.fgets, if_neg hFirst,
    getsLine_last hPlain (by omega)]

theorem collect_more (hNul : 0 ∉ first) (hFits : (r.temp ++ first).length < msgBuffSize) (hLines : 1 < r.lines) :
    r.collect msgLines first = some { r with
      offset := r.offset + first.length
      eof := hitEnd first
      lines := r.lines - 1
      temp := r.temp ++ first } := by
  have hMore : ¬ r.lines - 1 = 0 := by omega
  simp only [Reader.collect, cstr_of_noNul hNul, if_neg (Nat.not_le.mpr hFits), if_neg hMore]

theorem collect_record (hNul : 0 ∉ first) (hFits : (r.temp ++ first).length < msgBuffSize)
    (hLines : r.lines = 1) (hText : r.temp ++ first ≠ []) :
    r.collect msgLines first = some
      ⟨r.offset + first.length, hitEnd first, msgLines, [], .send (r.temp ++ first)⟩ := by
  have hLast : r.lines - 1 = 0 := by omega
  simp only [Reader.collect, cstr_of_noNul hNul, if_neg (Nat.not_le.mpr hFits), if_pos hLast, if_neg hText]

theorem hitEnd_line : hitEnd (first ++ [0x0a]) = false := by
  simp [hitEnd]

theorem hitEnd_last (hPlain : 0x0a ∉ first) (hShort : first.length + 1 < msgBuffSize) :
    hitEnd first = true := by
  rw [hitEnd, decide_eq_true_iff]
  exact ⟨fun hLast => hPlain (List.mem_of_getLast? hLast), by omega⟩

end

@[simp] theorem pending_fgets : Next.fgets.pending = [] := rfl

@[simp] theorem pending_emptyFile : Next.emptyFile.pending = [] := rfl

@[simp] theorem pending_send (msg : Bytes) : (Next.send msg).pending = [recordOf msg] := rfl

theorem drop_taken {file a rem : Bytes} {offset : Nat} (hOffset : offset ≤ file.length)
    (h : file.drop offset = a ++ rem) :
    offset + a.length ≤ file.length ∧ file.drop (offset + a.length) = rem := by
  constructor
  · have hLength := congrArg List.length h
    rw [List.length_drop, List.length_append] at hLength
    omega
  · rw [← List.drop_drop, h, List.drop_left]

section

variable {kind : Kind} {s : State} {r : Reader} {cleared kept done rest : List Bytes} {text a : Bytes}

theorem Busy.record (h : Busy kind s r cleared kept) (hKept : kept = done ++ text :: rest)
    (hSent : s.sent.map recordOf = cleared ++ done) (hRecord : recordOf (r.temp ++ a) = text)
    {rem : Bytes} (hDrop : s.file.drop r.offset = a ++ rem) (hEnd : hitEnd a = true → rest = [])
    (hOpen : hitEnd a = false → rem ++ s.tail = stored rest) :
    Busy kind s ⟨r.offset + a.length, hitEnd a, linesOf kind, [], .send (r.temp ++ a)⟩ cleared kept := by
  obtain ⟨hOffset, hRem⟩ := drop_taken h.offset hDrop
  refine ⟨hOffset, ?_, done ++ [text], rest, ?_, ?_, hEnd, ?_⟩
  · intro hClosing
    cases hClosing
  · rw [hKept, List.append_assoc, List.singleton_append]
  · rw [pending_send, hRecord, hSent, List.append_assoc]
  · intro hEof
    refine ⟨?_, .inl rfl, ?_, linesOf_pos kind⟩
    · rw [List.nil_append, hRem, hOpen hEof]
    · rw [List.count_nil, Nat.zero_add]

theorem Busy.more (h : Busy kind s r cleared kept) (hNext : r.next = .fgets) (hKept : kept = done ++ rest)
    (hSent : s.sent.map recordOf = cleared ++ done) {rem : Bytes} (hDrop : s.file.drop r.offset = a ++ rem)
    (hOpen : hitEnd a = false) (hEq : r.temp ++ (s.file.drop r.offset ++ s.tail) = stored rest)
    (hEnded : Ended (r.temp ++ a)) (hCount : (r.temp ++ a).count 0x0a + (r.lines - 1) = linesOf kind)
    (hLines : 1 < r.lines) :
    Busy kind s { r with
      offset := r.offset + a.length
      eof := hitEnd a
      lines := r.lines - 1
      temp := r.temp ++ a } cleared kept := by
  obtain ⟨hOffset, hRem⟩ := drop_taken h.offset hDrop
  refine ⟨hOffset, ?_, done, rest, hKept, ?_, ?_, ?_⟩
  · intro hClosing
    rw [hNext] at hClosing
    cases hClosing
  · rw [hNext, pending_fgets, List.append_nil]
    exact hSent
  · intro hEof
    rw [hOpen] at hEof
    cases hEof
  · intro _
    refine ⟨?_, hEnded, hCount, Nat.sub_pos_of_lt hLines⟩
    rw [hRem, ← hEq, hDrop, List.append_assoc, List.append_assoc]

theorem Busy.line {r' : Reader} (h : Busy kind s r cleared kept) (hNext : r.next = .fgets) (hEof : r.eof = false)
    (hRead : r.fgets (linesOf kind) s.file = some r') (hKept : kept = done ++ text :: rest)
    (hSent : s.sent.map recordOf = cleared ++ done)
    (hEq : r.temp ++ (s.file.drop r.offset ++ s.tail) = stored (text :: rest))
    (hCount : r.temp.count 0x0a + r.lines = linesOf kind) (hText : Complete kind text) {first more rem : Bytes}
    (hPlain : 0x0a ∉ first) (hRecord : text ++ [0x0a] = r.temp ++ (first ++ 0x0a :: more)) (hEnded : Ended more)
    (hDrop : s.file.drop r.offset = first ++ 0x0a :: rem) (hRest : rem ++ s.tail = more ++ stored rest) :
    Busy kind s r' cleared kept := by
  obtain ⟨hNul, hFits, hNewlines⟩ := hText.line_facts hPlain hRecord
  have hLineNul : 0 ∉ first ++ [0x0a] := by
    rw [List.mem_append, not_or]
    exact ⟨hNul, by decide⟩
  have hLineFits : (r.temp ++ (first ++ [0x0a])).length < msgBuffSize := by
    rw [List.length_append, List.length_append, List.length_singleton]
    omega
  have hLineDrop : s.file.drop r.offset = (first ++ [0x0a]) ++ rem := by
    rw [hDrop, List.append_assoc, List.singleton_append]
  rw [fgets_line hEof hDrop hPlain (by omega)] at hRead
  obtain hMany | hOne := Nat.lt_or_ge 1 r.lines
  · rw [collect_more hLineNul hLineFits hMany, Option.some.injEq] at hRead
    subst hRead
    refine h.more hNext hKept hSent hLineDrop hitEnd_line hEq ?_ ?_ hMany
    · rw [← List.append_assoc]
      exact ended_concat _
    · rw [List.count_append, List.count_append, List.count_eq_zero_of_not_mem hPlain, List.count_singleton_self]
      omega
  · have hNone : more = [] := by
      apply hEnded.eq_nil
      rw [← List.count_eq_zero]
      omega
    subst hNone
    rw [collect_record hLineNul hLineFits (by omega) (by simp), Option.some.injEq] at hRead
    subst hRead
    refine h.record hKept hSent ?_ hLineDrop ?_ fun _ => hRest
    · rw [← hRecord, recordOf_ended]
    · rw [hitEnd_line]
      intro hEnd
      cases hEnd

theorem Busy.lastLine {r' : Reader} (h : Busy kind s r cleared kept) (hEof : r.eof = false)
    (hRead : r.fgets (linesOf kind) s.file = some r') (hKept : kept = done ++ [text])
    (hSent : s.sent.map recordOf = cleared ++ done) (hEnded : Ended r.temp)
    (hCount : r.temp.count 0x0a + r.lines = linesOf kind) (hText : Complete kind text)
    (hPlain : 0x0a ∉ a) (hRecord : text ++ [0x0a] = r.temp ++ (a ++ [0x0a])) (hDrop : s.file.drop r.offset = a) :
    Busy kind s r' cleared kept := by
  obtain ⟨hNul, hFits, hNewlines⟩ := hText.line_facts hPlain hRecord
  have hWhole : r.temp ++ a = text := by
    rw [← List.append_assoc] at hRecord
    exact (List.append_cancel_right hRecord).symm
  have hLine : a ≠ [] := by
    rintro rfl
    rw [List.append_nil] at hWhole
    exact hText.unended (hWhole ▸ hEnded)
  have hOne : r.lines = 1 := by
    rw [List.count_nil] at hNewlines
    omega
  have hWholeFits : (r.temp ++ a).length < msgBuffSize := by
    rw [List.length_append]
    omega
  rw [fgets_last hEof hDrop hLine hPlain (by omega), collect_record hNul hWholeFits hOne (by simp [hLine]),
    Option.some.injEq] at hRead
  subst hRead
  refine h.record hKept hSent ?_ (hDrop.trans (List.append_nil a).symm) (fun _ => rfl) ?_
  · rw [hWhole, hText.recordOf_eq]
  · rw [hitEnd_last hPlain (by omega)]
    intro hOpen
    cases hOpen

theorem Busy.fgets {r' : Reader} (h : Busy kind s r cleared kept) (hComplete : ∀ t ∈ kept, Complete kind t)
    (hNext : r.next = .fgets) (hRead : r.fgets (linesOf kind) s.file = some r') :
    Busy kind s r' cleared kept := by
  obtain ⟨done, rest, hKept, hSent, hDone, hMore⟩ := h.progress
  rw [hNext, pending_fgets, List.append_nil] at hSent
  have hClosing : rest = [] → Busy kind s { r with eof := true, next := .emptyFile } cleared kept := by
    rintro rfl
    refine ⟨h.offset, fun _ => rfl, done, [], hKept, ?_, fun _ => rfl, fun hOpen => by cases hOpen⟩
    rw [pending_emptyFile, List.append_nil]
    exact hSent
  cases hEof : r.eof with
  | true =>
    rw [fgets_end (.inl hEof), Option.some.injEq] at hRead
    exact hRead ▸ hClosing (hDone hEof)
  | false =>
    obtain ⟨hEq, hEnded, hCount, hLines⟩ := hMore hEof
    cases rest with
    | nil =>
      have hDrop : s.file.drop r.offset = [] :=
        (List.append_eq_nil_iff.mp (List.append_eq_nil_iff.mp hEq).2).1
      rw [fgets_end (.inr hDrop), Option.some.injEq] at hRead
      exact hRead ▸ hClosing rfl
    | cons text rest =>
      have hText : Complete kind text := hComplete text (by simp [hKept])
      obtain ⟨first, more, hPlain, hRecord, hEndedMore, hRem⟩ :=
        next_line hText (hEq.trans (stored_cons text rest)) hCount hLines
      obtain ⟨rem, hDrop, hRest⟩ | ⟨hDrop, _, hNone⟩ := line_cases s.tail_cases hRem
      · exact h.line hNext hEof hRead hKept hSent hEq hCount hText hPlain hRecord hEndedMore hDrop hRest
      · obtain ⟨rfl, hStored⟩ := List.append_eq_nil_iff.mp hNone
        obtain rfl := stored_eq_nil hStored
        exact h.lastLine hEof hRead hKept hSent hEnded hCount hText hPlain hRecord hDrop

end

theorem inv_start {kind : Kind} {s : State} (h : Start kind s) : Inv kind s := by
  refine ⟨[], s.appended, rfl, h.complete, ?_, List.nil_prefix, ?_, ?_⟩
  · rw [State.tail_written h.newlineDue, h.file, List.append_nil]
  · intro _
    rw [h.sent]
    rfl
  · intro r hReplay
    rw [h.replay] at hReplay
    cases hReplay

section

variable {kind : Kind} {s t : State} {cleared kept : List Bytes}

theorem Holds.openFile (h : Holds kind s cleared kept) {temp : Bytes} (hTemp : cstr temp = [])
    (hStep : step kind s (.openFile temp) = some t) : Inv kind t := by
  obtain ⟨hIdle, hEq⟩ := Option.ite_none_right_eq_some.mp hStep
  cases hEq
  refine ⟨cleared, kept, h.appended, h.complete, h.file, h.behind, (fun hNone => by cases hNone), ?_⟩
  rintro r hReplay
  cases hReplay
  refine ⟨Nat.zero_le _, (fun hClosing => by cases hClosing), [], kept, rfl, ?_, (fun hEof => by cases hEof), ?_⟩
  · rw [pending_fgets, List.append_nil, List.append_nil]
    exact h.idle (Option.isNone_iff_eq_none.mp hIdle)
  · intro _
    refine ⟨?_, .inl hTemp, ?_, linesOf_pos kind⟩
    · rw [hTemp, List.nil_append, List.drop_zero]
      exact h.file
    · rw [hTemp, List.count_nil, Nat.zero_add]

theorem Holds.fgets (h : Holds kind s cleared kept) (hStep : step kind s .fgets = some t) : Inv kind t := by
  obtain ⟨r, hReplay, hStep⟩ := Option.bind_eq_some_iff.mp hStep
  obtain ⟨hNext, hStep⟩ := Option.ite_none_right_eq_some.mp hStep
  obtain ⟨r', hRead, rfl⟩ := Option.map_eq_some_iff.mp hStep
  refine ⟨cleared, kept, h.appended, h.complete, h.file, h.behind, (fun hNone => by cases hNone), ?_⟩
  intro r'' hReplay'
  cases hReplay'
  have hBusy := (h.busy r hReplay).fgets h.complete hNext hRead
  exact ⟨hBusy.offset, hBusy.closing, hBusy.progress⟩

theorem Holds.send (h : Holds kind s cleared kept) (hStep : step kind s .send = some t) : Inv kind t := by
  obtain ⟨r, hReplay, hStep⟩ := Option.bind_eq_some_iff.mp hStep
  cases hNext : r.next with
  | fgets | emptyFile =>
    rw [hNext] at hStep
    cases hStep
  | send msg =>
    rw [hNext] at hStep
    cases hStep
    have hBusy := h.busy r hReplay
    obtain ⟨done, rest, hKept, hSent, hDone, hMore⟩ := hBusy.progress
    rw [hNext, pending_send] at hSent
    refine ⟨cleared, kept, h.appended, h.complete, h.file, ?_, (fun hNone => by cases hNone), ?_⟩
    · rw [List.map_append]
      exact h.behind.trans (List.prefix_append _ _)
    · intro r' hReplay'
      cases hReplay'
      refine ⟨hBusy.offset, (fun hClosing => by cases hClosing), done, rest, hKept, ?_, hDone, hMore⟩
      rw [pending_fgets, List.append_nil, List.map_append]
      exact hSent

theorem Holds.emptyFile (h : Holds kind s cleared kept) (hDue : s.newlineDue = false)
    (hStep : step kind s .emptyFile = some t) : Inv kind t := by
  obtain ⟨r, hReplay, hStep⟩ := Option.bind_eq_some_iff.mp hStep
  obtain ⟨hNext, hEq⟩ := Option.ite_none_right_eq_some.mp hStep
  cases hEq
  have hBusy := h.busy r hReplay
  obtain ⟨done, rest, hKept, hSent, hDone, _⟩ := hBusy.progress
  rw [hNext, pending_emptyFile, List.append_nil] at hSent
  rw [hDone (hBusy.closing hNext), List.append_nil] at hKept
  rw [← hKept] at hSent
  refine ⟨cleared ++ kept, [], ?_, (fun t ht => by cases ht), ?_, ?_, ?_, fun r hReplay => by cases hReplay⟩
  · rw [List.append_nil]
    exact h.appended
  · exact State.tail_written hDue
  · exact hSent ▸ List.prefix_rfl
  · exact fun _ => hSent

theorem Holds.write (h : Holds kind s cleared kept) {m stack : MonitorMsgDs}
    (hClean : Clean kind s (.write m stack)) (hStep : step kind s (.write m stack) = some t) : Inv kind t := by
  obtain ⟨hDue, hStep⟩ := Option.ite_none_left_eq_some.mp hStep
  rw [Bool.not_eq_true] at hDue
  obtain ⟨out, hOut, hStep⟩ := Option.bind_eq_some_iff.mp hStep
  obtain ⟨_, hEq⟩ := Option.ite_none_left_eq_some.mp hStep
  cases hEq
  obtain ⟨hNeed, hFits, hEof⟩ := hClean
  have hText := complete_of_serialise hOut hNeed (hFits out hOut)
  have hFile := h.file
  rw [State.tail_written hDue, List.append_nil] at hFile
  refine ⟨cleared, kept ++ [out.str], ?_, ?_, ?_, h.behind, h.idle, ?_⟩
  · rw [h.appended, List.append_assoc]
  · intro t ht
    obtain ht | ht := List.mem_append.mp ht
    · exact h.complete t ht
    · rwa [List.mem_singleton.mp ht]
  · rw [stored_concat, ← hFile]
    rfl
  · intro r hReplay
    have hBusy := h.busy r hReplay
    obtain ⟨done, rest, hKept, hSent, _, hMore⟩ := hBusy.progress
    have hOpen := hEof r hReplay
    obtain ⟨hEq, hEnded, hCount, hLines⟩ := hMore hOpen
    rw [State.tail_written hDue, List.append_nil] at hEq
    refine ⟨?_, hBusy.closing, done, rest ++ [out.str], ?_, hSent, ?_, fun _ => ⟨?_, hEnded, hCount, hLines⟩⟩
    · rw [List.length_append]
      exact hBusy.offset.trans (Nat.le_add_right _ _)
    · rw [hKept, List.append_assoc]
    · rw [hOpen]
      intro hEnd
      cases hEnd
    · rw [stored_concat, ← hEq, List.drop_append_of_le_length hBusy.offset, State.tail_due rfl]
      simp only [List.append_assoc]

theorem Holds.newline (h : Holds kind s cleared kept) (hStep : step kind s .newline = some t) : Inv kind t := by
  obtain ⟨hDue, hEq⟩ := Option.ite_none_right_eq_some.mp hStep
  cases hEq
  have hFile := h.file
  rw [State.tail_due hDue] at hFile
  refine ⟨cleared, kept, h.appended, h.complete, ?_, h.behind, h.idle, ?_⟩
  · rw [← hFile]
    exact List.append_nil _
  · intro r hReplay
    have hBusy := h.busy r hReplay
    obtain ⟨done, rest, hKept, hSent, hDone, hMore⟩ := hBusy.progress
    refine ⟨?_, hBusy.closing, done, rest, hKept, hSent, hDone, ?_⟩
    · rw [List.length_append]
      exact hBusy.offset.trans (Nat.le_add_right _ _)
    · intro hEof
      obtain ⟨hEq, hRest⟩ := hMore hEof
      refine ⟨?_, hRest⟩
      rw [← hEq, List.drop_append_of_le_length hBusy.offset, State.tail_due hDue, State.tail_written rfl,
        List.append_nil]

end

theorem inv_step {kind : Kind} {s t : State} {a : Act} (h : Inv kind s) (hClean : Clean kind s a)
    (hStep : step kind s a = some t) : Inv kind t := by
  obtain ⟨cleared, kept, hHolds⟩ := h
  cases a with
  | openFile temp => exact hHolds.openFile hClean hStep
  | fgets => exact hHolds.fgets hStep
  | send => exact hHolds.send hStep
  | emptyFile => exact hHolds.emptyFile hClean hStep
  | write m stack => exact hHolds.write hClean hStep
  | newline => exact hHolds.newline hStep

/-- As long as no append lands between the end of a replay's reading and the
truncation, no record is lost or sent twice. -/
theorem safe_of_clean {kind : Kind} {s : State} (h : ReachableUnder (system kind) (Clean kind) s) :
    Safe kind s := by
  obtain ⟨cleared, kept, hHolds⟩ : Inv kind s :=
    ReachableUnder.invariant (fun s => inv_start) (fun s a t => inv_step) h
  exact hHolds.safe

def memLine : Bytes := lit "2021-12-13 10:00:00 15 4 27 30\n"

def memReport : MonitorMsgDs where
  type := sysMem
  buff := memLine ++ 0 :: List.replicate 468 0
  buff_length := by decide +kernel

def empty : State := ⟨[], false, none, [], []⟩

theorem start_empty (kind : Kind) : Start kind empty :=
  ⟨fun _ ht => absurd ht List.not_mem_nil, rfl, rfl, rfl, rfl⟩

/-- The report is appended after the replay's last fgets and before the truncation. -/
def appendedLate : List Act := [.openFile [], .fgets, .write memReport (cleared 0), .newline, .emptyFile]

theorem append_truncated : ¬ ∀ (kind : Kind) (s : State), Reachable (system kind) s → Safe kind s := by
  intro hAll
  have hRun : ((system .mem).run empty appendedLate).map (fun s => (s.appended.length, s.sent, s.file)) =
      some (1, [], []) := by decide +kernel
  obtain ⟨s, hReach, hEnd⟩ := Reachable.of_observed (start_empty .mem) hRun
  rw [Prod.mk.injEq, Prod.mk.injEq] at hEnd
  obtain ⟨hCount, hSent, hFile⟩ := hEnd
  have hSafe := hAll .mem s hReach
  have hLength := hSafe.2.length_le
  rw [hSent, hFile, hCount, records_nil (linesOf_pos .mem)] at hLength
  exact absurd hLength (by decide)

def appendedEarly : List Act :=
  [.write memReport (cleared 0), .newline, .openFile [], .fgets, .fgets, .write memReport (cleared 0), .fgets, .newline] ++
    List.replicate (memLines - 3) .fgets ++ [.send] ++ List.replicate memLines .fgets ++ [.send, .fgets, .emptyFile]

theorem safe_during_replay : ∃ s : State, s.appended.length = 2 ∧ s.sent.length = 2 ∧ s.file = [] ∧ Safe .mem s := by
  have hRun : ((system .mem).run empty appendedEarly).map (fun s => (s.appended.length, s.sent.length, s.file)) =
      some (2, 2, []) := by decide +kernel
  have hMeets : (system .mem).Meets (Clean .mem) empty appendedEarly := by decide +kernel
  obtain ⟨s, hReach, hEnd⟩ := ReachableUnder.of_observed (start_empty .mem) hMeets hRun
  rw [Prod.mk.injEq, Prod.mk.injEq] at hEnd
  exact ⟨s, hEnd.1, hEnd.2.1, hEnd.2.2, safe_of_clean hReach⟩

end MonitorSystem.ReplayRace
