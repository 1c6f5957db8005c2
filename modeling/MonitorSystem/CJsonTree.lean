import MonitorSystem.CJson

/-! # Printing and parsing any cJSON value

print_value and its callees for all values, formatted or not, as texts. What
print_number writes for a double depends on printf; only the shape of the
numerals it writes is used here. Parsing a printed value gives the value back,
with its numbers as they were written and its strings cut at a NUL, unless it is
nested too deeply.
-/

namespace MonitorSystem.CJsonTree

open CJson Lib.CString

/-- A decimal number in number_buffer, whose 26 bytes hold the terminator too. -/
structure Numeral (text : Bytes) : Prop where
  fits : text.length < 26
  chars : ∀ b ∈ text, numberChar b = true
  whole : strtodLength text = text.length
  head : ∃ b more, text = b :: more ∧ (b = 0x2d ∨ CJson.isDigit b = true)

/-- What print_number writes for the number that a text stands for; nothing for an
infinity, in whose place it writes null. -/
structure NumberFormat where
  print : Bytes → Option Bytes
  numeral : ∀ {text printed : Bytes}, print text = some printed → Numeral printed

theorem CJSON.cases_in {P : CJSON → Prop} (hNull : P .null) (hFalse : P .false) (hTrue : P .true)
    (hNumber : ∀ text, P (.number text)) (hString : ∀ s, P (.string s))
    (hArray : ∀ child, (∀ v ∈ child, P v) → P (.array child))
    (hObject : ∀ child, (∀ m ∈ child, P m.2) → P (.object child)) (v : CJSON) : P v := by
  apply @CJSON.rec P (fun child => ∀ v ∈ child, P v) (fun child => ∀ m ∈ child, P m.2) (fun m => P m.2) hNull hFalse
    hTrue hNumber hString hArray hObject
  · intro v hv
    cases hv
  · intro v next hHead hTail w hw
    obtain rfl | hIn := List.mem_cons.mp hw
    · exact hHead
    · exact hTail w hIn
  · intro m hm
    cases hm
  · intro m next hHead hTail w hw
    obtain rfl | hIn := List.mem_cons.mp hw
    · exact hHead
    · exact hTail w hIn
  · intro name v hv
    exact hv

def ifFormat (format : Bool) (blanks : Bytes) : Bytes := if format then blanks else []

def tabs (format : Bool) (depth : Nat) : Bytes := ifFormat format (List.replicate depth 0x09)

variable (F : NumberFormat)

mutual

def printValue (format : Bool) (depth : Nat) : CJSON → Bytes
  | .null => lit "null"
  | .false => lit "false"
  | .true => lit "true"
  | .number text => (F.print text).getD (lit "null")
  | .string valuestring => printStringPtr (cstr valuestring)
  | .array child => lit "[" ++ printElements format (depth + 1) child ++ lit "]"
  | .object child => lit "\x7b" ++ ifFormat format (lit "\n") ++ printPairs format (depth + 1) child ++
      tabs format depth ++ lit "\x7d"

def printElements (format : Bool) (depth : Nat) : List CJSON → Bytes
  | [] => []
  | v :: next => printValue format depth v ++
      (if next.isEmpty then [] else lit "," ++ ifFormat format (lit " ") ++ printElements format depth next)

def printPairs (format : Bool) (depth : Nat) : List (Bytes × CJSON) → Bytes
  | [] => []
  | (name, v) :: next => tabs format depth ++ printStringPtr (cstr name) ++ lit ":" ++ ifFormat format (lit "\t") ++
      printValue format depth v ++ (if next.isEmpty then [] else lit ",") ++ ifFormat format (lit "\n") ++
      printPairs format depth next

end

def print (format : Bool) (item : CJSON) : Bytes := printValue F format 0 item

mutual

def height : CJSON → Nat
  | .null | .false | .true | .number _ | .string _ => 0
  | .array child => heights child + 1
  | .object child => memberHeights child + 1

def heights : List CJSON → Nat
  | [] => 0
  | v :: next => max (height v) (heights next)

def memberHeights : List (Bytes × CJSON) → Nat
  | [] => 0
  | (_, v) :: next => max (height v) (memberHeights next)

end

mutual

def written : CJSON → CJSON
  | .null => .null
  | .false => .false
  | .true => .true
  | .number text => match F.print text with
    | some printed => .number printed
    | none => .null
  | .string valuestring => .string (cstr valuestring)
  | .array child => .array (writtenItems child)
  | .object child => .object (writtenMembers child)

def writtenItems : List CJSON → List CJSON
  | [] => []
  | v :: next => written v :: writtenItems next

def writtenMembers : List (Bytes × CJSON) → List (Bytes × CJSON)
  | [] => []
  | (name, v) :: next => (cstr name, written v) :: writtenMembers next

end

/-- What becomes of a value that is printed and parsed where this many brackets may be opened. -/
def reread (depth : Nat) (v : CJSON) : Option CJSON := if height v ≤ depth then some (written F v) else none

def rereadPair (depth : Nat) (m : Bytes × CJSON) : Option (Bytes × CJSON) :=
  (reread F depth m.2).map fun v => (cstr m.1, v)

def separated {α : Type} (lead between last : Bytes) (spell : α → Bytes) : List α → Bytes
  | [] => []
  | x :: next => lead ++ spell x ++ if next.isEmpty then last else 0x2c :: (between ++ separated lead between last spell next)

def Blank (s : Bytes) : Prop := ∀ b ∈ s, b ≤ 32

def Stop (rest : Bytes) : Prop := ∃ b more, rest = b :: more ∧ numberChar b = false

theorem skip_append {blanks : Bytes} (h : Blank blanks) {rest : Bytes} (hRest : rest ≠ []) :
    bufferSkipWhitespace (blanks ++ rest) = bufferSkipWhitespace rest := by
  induction blanks with
  | nil => rfl
  | cons blank blanks ih =>
    rw [List.cons_append, bufferSkipWhitespace_space (h blank List.mem_cons_self) (by simp [hRest])]
    exact ih fun b hb => h b (List.mem_cons_of_mem _ hb)

theorem skip_blanks {blanks : Bytes} (h : Blank blanks) {b : UInt8} (hText : 32 < b) (rest : Bytes) :
    bufferSkipWhitespace (blanks ++ b :: rest) = b :: rest := by
  rw [skip_append h (List.cons_ne_nil b rest), bufferSkipWhitespace_of_gt hText]

theorem not_numberChar_of_blank (b : UInt8) (h : b ≤ 32) : numberChar b = false := by
  have hAll : ∀ n < 33, numberChar (UInt8.ofNat n) = false := by decide
  have hLow := hAll b.toNat (Nat.lt_succ_of_le (UInt8.le_iff_toNat_le.mp h))
  rwa [UInt8.ofNat_toNat] at hLow

theorem stop_blanks {blanks : Bytes} (h : Blank blanks) {b : UInt8} (hb : numberChar b = false) (rest : Bytes) :
    Stop (blanks ++ b :: rest) := by
  cases blanks with
  | nil => exact ⟨b, rest, rfl, hb⟩
  | cons blank blanks => exact ⟨blank, _, rfl, not_numberChar_of_blank blank (h blank List.mem_cons_self)⟩

theorem Blank.append {s t : Bytes} (hs : Blank s) (ht : Blank t) : Blank (s ++ t) := by
  intro b hb
  obtain hIn | hIn := List.mem_append.mp hb
  · exact hs b hIn
  · exact ht b hIn

section Lists

variable {α β : Type} {item : Bytes → Option (α × Bytes)} {close : UInt8} {lead between last : Bytes}
  {spell : β → Bytes} {value : β → Option α} {xs : List β}

def Reads (item : Bytes → Option (α × Bytes)) (lead : Bytes) (spell : β → Bytes) (value : β → Option α) (x : β) : Prop :=
  ∀ rest, Stop rest → item (bufferSkipWhitespace (lead ++ spell x ++ rest)) = (value x).map fun v => (v, rest)

theorem length_separated {x : β} {next : List β} (h : ∀ y ∈ x :: next, spell y ≠ []) :
    lead.length + (x :: next).length ≤ (separated lead between last spell (x :: next)).length := by
  induction next generalizing x with
  | nil =>
    have hPos := List.length_pos_iff.mpr (h x List.mem_cons_self)
    rw [separated, List.length_append, List.length_append, List.length_singleton]
    omega
  | cons y next ih =>
    have hRest := ih fun z hz => h z (List.mem_cons_of_mem x hz)
    rw [separated, List.isEmpty_cons, if_neg Bool.false_ne_true]
    simp only [List.length_append, List.length_cons] at hRest ⊢
    omega

theorem parseItems_separated (hClose : 32 < close) (hStop : numberChar close = false) (hComma : close ≠ 0x2c)
    (hBetween : Blank between) (hLast : Blank last) {blanks : Bytes} (hBlanks : Blank blanks)
    (hReads : ∀ x ∈ xs, Reads item lead spell value x) (hNonempty : xs ≠ []) (rest : Bytes) {fuel : Nat}
    (hFuel : xs.length ≤ fuel) :
    parseItems item close fuel (separated lead between last spell xs ++ (blanks ++ close :: rest)) =
      (xs.mapM value).map fun vs => (vs, rest) := by
  induction xs generalizing fuel with
  | nil => exact absurd rfl hNonempty
  | cons x next ih =>
    obtain ⟨fuel, rfl⟩ : ∃ n, fuel = n + 1 := Nat.exists_eq_succ_of_ne_zero (by simp at hFuel; omega)
    have hRead := hReads x List.mem_cons_self
    cases next with
    | nil =>
      have hEnd : bufferSkipWhitespace (last ++ (blanks ++ close :: rest)) = close :: rest := by
        rw [← List.append_assoc]
        exact skip_blanks (hLast.append hBlanks) hClose rest
      have hItem := hRead (last ++ (blanks ++ close :: rest)) (by
        rw [← List.append_assoc]
        exact stop_blanks (hLast.append hBlanks) hStop rest)
      rw [separated, List.isEmpty_nil, if_pos rfl, List.append_assoc, parseItems, hItem]
      cases hValue : value x with
      | none => simp [hValue]
      | some v => simp [hValue, hEnd, hComma]
    | cons y next =>
      have hTail := @ih (fun z hz => hReads z (List.mem_cons_of_mem _ hz)) (List.cons_ne_nil y next) fuel
        (by simpa using hFuel)
      obtain ⟨tail, hTailText⟩ : ∃ tail, tail =
          separated lead between last spell (y :: next) ++ (blanks ++ close :: rest) := ⟨_, rfl⟩
      have hSkip : parseItems item close fuel (between ++ tail) = parseItems item close fuel tail := by
        rw [← parseItems_skip, skip_append hBetween (by simp [hTailText]), parseItems_skip]
      have hItem := hRead (0x2c :: (between ++ tail)) ⟨_, _, rfl, by decide⟩
      have hText : separated lead between last spell (x :: y :: next) ++ (blanks ++ close :: rest) =
          lead ++ spell x ++ 0x2c :: (between ++ tail) := by
        rw [separated, List.isEmpty_cons, if_neg Bool.false_ne_true, hTailText]
        simp
      rw [← hTailText] at hTail
      rw [hText, parseItems, hItem, List.mapM_cons]
      cases hValue : value x with
      | none => simp
      | some v =>
        simp only [Option.map_some, Option.bind_some, bufferSkipWhitespace_of_gt (show (32 : UInt8) < 0x2c by decide),
          if_true, hSkip, hTail]
        cases (y :: next).mapM value with
        | none => rfl
        | some vs => rfl

theorem parseBracket_separated (hClose : 32 < close) (hStop : numberChar close = false) (hComma : close ≠ 0x2c)
    (hBetween : Blank between) (hLast : Blank last) {front blanks : Bytes} (hFront : Blank front)
    (hBlanks : Blank blanks) (hLead : Blank lead) (hReads : ∀ x ∈ xs, Reads item lead spell value x)
    (hHead : ∀ x ∈ xs, ∃ b more, spell x = b :: more ∧ 32 < b ∧ b ≠ close) (rest : Bytes) :
    parseBracket item close (front ++ (separated lead between last spell xs ++ (blanks ++ close :: rest))) =
      (xs.mapM value).map fun vs => (vs, rest) := by
  cases xs with
  | nil =>
    have hSkip : bufferSkipWhitespace (front ++ (blanks ++ close :: rest)) = close :: rest := by
      rw [← List.append_assoc]
      exact skip_blanks (hFront.append hBlanks) hClose rest
    rw [separated, List.nil_append, parseBracket, hSkip]
    simp
  | cons x next =>
    obtain ⟨b, more, hSpell, hText, hOpen⟩ := hHead x List.mem_cons_self
    obtain ⟨tail, hTail⟩ : ∃ tail, separated lead between last spell (x :: next) ++ (blanks ++ close :: rest) =
        lead ++ b :: tail := by
      rw [separated, hSpell]
      simp only [List.append_assoc, List.cons_append]
      exact ⟨_, rfl⟩
    have hSkip : bufferSkipWhitespace (front ++ (separated lead between last spell (x :: next) ++
        (blanks ++ close :: rest))) = b :: tail := by
      rw [hTail, ← List.append_assoc]
      exact skip_blanks (hFront.append hLead) hText tail
    have hLength : (x :: next).length ≤ (b :: tail).length := by
      have hSeparated := @length_separated _ lead between last spell x next
        fun y hy hNil => by
          obtain ⟨c, cs, hCons, _⟩ := hHead y hy
          cases hNil.symm.trans hCons
      have hLengths := congrArg List.length hTail
      rw [List.length_append, List.length_append, List.length_append] at hLengths
      rw [List.length_cons] at hLengths
      omega
    rw [parseBracket_items hSkip hOpen, ← parseItems_skip, skip_append hFront (by simp), parseItems_skip]
    exact parseItems_separated hClose hStop hComma hBetween hLast hBlanks hReads (List.cons_ne_nil x next) rest hLength

end Lists

section RoundTrip

variable {F} {format : Bool} {depth : Nat}

theorem printElements_eq (format : Bool) (depth : Nat) (child : List CJSON) : printElements F format depth child =
    separated [] (ifFormat format (lit " ")) [] (printValue F format depth) child := by
  induction child with
  | nil => simp [printElements, separated]
  | cons v next ih =>
    rw [printElements, separated, ih]
    cases next <;> rfl

def printPair (format : Bool) (depth : Nat) (m : Bytes × CJSON) : Bytes :=
  printStringPtr (cstr m.1) ++ lit ":" ++ ifFormat format (lit "\t") ++ printValue F format depth m.2

theorem printPairs_eq (format : Bool) (depth : Nat) (child : List (Bytes × CJSON)) : printPairs F format depth child =
    separated (tabs format depth) (ifFormat format (lit "\n")) (ifFormat format (lit "\n"))
      (@printPair F format depth) child := by
  induction child with
  | nil => simp [printPairs, separated]
  | cons m next ih =>
    obtain ⟨name, v⟩ := m
    rw [printPairs, separated, ih, printPair]
    cases next with
    | nil => simp [separated]
    | cons m next =>
      simp only [List.isEmpty_cons, if_neg Bool.false_ne_true, List.append_assoc]
      rfl

theorem blank_ifFormat (format : Bool) {blanks : Bytes} (h : Blank blanks) : Blank (ifFormat format blanks) := by
  rw [ifFormat]
  split
  · exact h
  · intro b hb
    cases hb

theorem blank_replicate {b : UInt8} (h : b ≤ 32) (n : Nat) : Blank (List.replicate n b) := by
  intro c hc
  rw [List.eq_of_mem_replicate hc]
  exact h

theorem printValue_head (v : CJSON) :
    ∃ b more, printValue F format depth v = b :: more ∧ 32 < b ∧ b ≠ 0x5d ∧ b ≠ 0xef := by
  have hNumber : ∀ b : UInt8, b = 0x2d ∨ CJson.isDigit b = true → 32 < b ∧ b ≠ 0x5d ∧ b ≠ 0xef := by
    rintro b (rfl | hDigit)
    · decide
    · have hRange : 0x30 ≤ b ∧ b ≤ 0x39 := by simpa [CJson.isDigit] using hDigit
      refine ⟨UInt8.lt_of_lt_of_le (by decide) hRange.1, ?_, ?_⟩ <;> rintro rfl <;> exact absurd hRange.2 (by decide)
  cases v with
  | null | false | true | string | array | object => exact ⟨_, _, rfl, by decide, by decide, by decide⟩
  | number text =>
    rw [printValue]
    cases hPrint : F.print text with
    | none => exact ⟨_, _, rfl, by decide, by decide, by decide⟩
    | some printed =>
      obtain ⟨b, more, hText, hb⟩ := (F.numeral hPrint).head
      exact ⟨b, more, hText, hNumber b hb⟩

theorem parseNumber_numeral {printed rest : Bytes} (h : Numeral printed) (hStop : Stop rest) :
    parseNumber (printed ++ rest) = some (.number printed, rest) := by
  obtain ⟨b, more, rfl, hb⟩ := hStop
  obtain ⟨first, digits, hHead, _⟩ := h.head
  have hTake : ((printed ++ b :: more).take 63).takeWhile numberChar = printed := by
    have hFits := h.fits
    rw [List.take_append, List.take_of_length_le (by omega)]
    obtain ⟨n, hn⟩ : ∃ n, 63 - printed.length = n + 1 := ⟨62 - printed.length, by omega⟩
    rw [hn, List.take_succ_cons, List.takeWhile_append_of_pos h.chars, List.takeWhile_cons_of_neg (by simp [hb]),
      List.append_nil]
  have hPos : strtodLength printed ≠ 0 := by
    rw [h.whole, hHead]
    exact Nat.succ_ne_zero _
  rw [parseNumber, hTake, if_neg hPos, h.whole, List.take_left, List.drop_left]

theorem no_word {b : UInt8} (h : b ≠ 0x6e ∧ b ≠ 0x66 ∧ b ≠ 0x74) (rest : Bytes) :
    ¬ lit "null" <+: b :: rest ∧ ¬ lit "false" <+: b :: rest ∧ ¬ lit "true" <+: b :: rest := by
  refine ⟨?_, ?_, ?_⟩
  · exact fun hPrefix => h.1 (List.cons_prefix_cons.mp hPrefix).1.symm
  · exact fun hPrefix => h.2.1 (List.cons_prefix_cons.mp hPrefix).1.symm
  · exact fun hPrefix => h.2.2 (List.cons_prefix_cons.mp hPrefix).1.symm

theorem parseValue_null (depth : Nat) (rest : Bytes) : parseValue depth (lit "null" ++ rest) = some (.null, rest) := by
  rw [parseValue.eq_def, if_pos (List.prefix_append _ _)]
  have hDrop : (lit "null" ++ rest).drop 4 = rest := rfl
  rw [hDrop]

theorem parseValue_false (depth : Nat) (rest : Bytes) : parseValue depth (lit "false" ++ rest) = some (.false, rest) := by
  have hNull : ¬ lit "null" <+: lit "false" ++ rest := by
    intro hPrefix
    cases (List.cons_prefix_cons.mp hPrefix).1
  rw [parseValue.eq_def, if_neg hNull, if_pos (List.prefix_append _ _)]
  have hDrop : (lit "false" ++ rest).drop 5 = rest := rfl
  rw [hDrop]

theorem parseValue_true (depth : Nat) (rest : Bytes) : parseValue depth (lit "true" ++ rest) = some (.true, rest) := by
  have hNull : ¬ lit "null" <+: lit "true" ++ rest := by
    intro hPrefix
    cases (List.cons_prefix_cons.mp hPrefix).1
  have hFalse : ¬ lit "false" <+: lit "true" ++ rest := by
    intro hPrefix
    cases (List.cons_prefix_cons.mp hPrefix).1
  rw [parseValue.eq_def, if_neg hNull, if_neg hFalse, if_pos (List.prefix_append _ _)]
  have hDrop : (lit "true" ++ rest).drop 4 = rest := rfl
  rw [hDrop]

theorem parseValue_number {printed rest : Bytes} (h : Numeral printed) (hStop : Stop rest) (depth : Nat) :
    parseValue depth (printed ++ rest) = some (.number printed, rest) := by
  have hNumber := parseNumber_numeral h hStop
  obtain ⟨b, more, rfl, hb⟩ := h.head
  rw [List.cons_append] at hNumber ⊢
  have hPlain : (b ≠ 0x6e ∧ b ≠ 0x66 ∧ b ≠ 0x74) ∧ b ≠ quote := by
    refine ⟨⟨?_, ?_, ?_⟩, ?_⟩ <;> rintro rfl <;> revert hb <;> decide
  obtain ⟨hNull, hFalse, hTrue⟩ := no_word hPlain.1 (more ++ rest)
  rw [parseValue.eq_def, if_neg hNull, if_neg hFalse, if_neg hTrue]
  simp only [if_neg hPlain.2, if_pos hb]
  exact hNumber

theorem parseValue_bracket {b : UInt8} (hOpen : b = 0x5b ∨ b = 0x7b) (depth : Nat) (rest : Bytes) :
    parseValue depth (b :: rest) = match depth with
      | 0 => none
      | depth + 1 =>
        if b = 0x5b then (parseBracket (parseValue depth) 0x5d rest).map fun r => (.array r.1, r.2)
        else (parseBracket (parseMember (parseValue depth)) 0x7d rest).map fun r => (.object r.1, r.2) := by
  have hHead : (b ≠ 0x6e ∧ b ≠ 0x66 ∧ b ≠ 0x74) ∧ b ≠ quote ∧ ¬ (b = 0x2d ∨ CJson.isDigit b = true) := by
    obtain rfl | rfl := hOpen <;> decide
  obtain ⟨hNull, hFalse, hTrue⟩ := no_word hHead.1 rest
  rw [parseValue.eq_def, if_neg hNull, if_neg hFalse, if_neg hTrue]
  simp only [if_neg hHead.2.1, if_neg hHead.2.2]
  cases depth with
  | zero => rfl
  | succ depth =>
    obtain rfl | rfl := hOpen
    · rfl
    · rfl

theorem mapM_reread (child : List CJSON) :
    child.mapM (reread F depth) = if heights child ≤ depth then some (writtenItems F child) else none := by
  induction child with
  | nil => simp [heights, writtenItems]
  | cons v next ih =>
    rw [List.mapM_cons, ih, reread, heights, writtenItems]
    by_cases hHead : height v ≤ depth <;> by_cases hTail : heights next ≤ depth <;> simp [hHead, hTail]

theorem mapM_rereadPair (child : List (Bytes × CJSON)) :
    child.mapM (rereadPair F depth) =
      if memberHeights child ≤ depth then some (writtenMembers F child) else none := by
  induction child with
  | nil => simp [memberHeights, writtenMembers]
  | cons m next ih =>
    obtain ⟨name, v⟩ := m
    rw [List.mapM_cons, ih, rereadPair, reread, memberHeights, writtenMembers]
    by_cases hHead : height v ≤ depth <;> by_cases hTail : memberHeights next ≤ depth <;> simp [hHead, hTail]

def Parses (F : NumberFormat) (format : Bool) (v : CJSON) : Prop :=
  ∀ depth d rest, Stop rest →
    parseValue depth (printValue F format d v ++ rest) = (reread F depth v).map fun v => (v, rest)

theorem reads_value {v : CJSON} (h : Parses F format v) (d : Nat) :
    Reads (parseValue depth) [] (printValue F format d) (reread F depth) v := by
  intro rest hStop
  obtain ⟨b, more, hHead, hText, _⟩ := @printValue_head F format d v
  have hSkip : bufferSkipWhitespace ([] ++ printValue F format d v ++ rest) = printValue F format d v ++ rest := by
    rw [List.nil_append, hHead]
    exact bufferSkipWhitespace_of_gt hText _
  rw [hSkip, h depth d rest hStop]

theorem reads_pair {m : Bytes × CJSON} (h : Parses F format m.2) (d : Nat) :
    Reads (parseMember (parseValue depth)) (tabs format d) (@printPair F format d) (rereadPair F depth) m := by
  intro rest hStop
  obtain ⟨b, more, hHead, hText, _⟩ := @printValue_head F format d m.2
  have hTabs : Blank (tabs format d) := blank_ifFormat format (blank_replicate (by decide) d)
  have hTab : Blank (ifFormat format (lit "\t")) := blank_ifFormat format (@blank_replicate 0x09 (by decide) 1)
  have hName : bufferSkipWhitespace (tabs format d ++ @printPair F format d m ++ rest) =
      printStringPtr (cstr m.1) ++ 0x3a :: (ifFormat format (lit "\t") ++ (printValue F format d m.2 ++ rest)) := by
    rw [printPair]
    simp only [List.append_assoc]
    exact skip_blanks hTabs (by decide) _
  have hValue : bufferSkipWhitespace (ifFormat format (lit "\t") ++ (printValue F format d m.2 ++ rest)) =
      printValue F format d m.2 ++ rest := by
    rw [hHead]
    exact skip_blanks hTab hText _
  rw [hName, parseMember, parseString_printStringPtr, Option.bind_some, bufferSkipWhitespace_of_gt (by decide)]
  simp only [ne_eq, not_true_eq_false, if_false, hValue, h depth d rest hStop, rereadPair, Option.map_map]
  rfl

theorem parses_array {child : List CJSON} (h : ∀ v ∈ child, Parses F format v) : Parses F format (.array child) := by
  intro depth d rest hStop
  have hText : printValue F format d (.array child) ++ rest = 0x5b :: ([] ++
      (separated [] (ifFormat format (lit " ")) [] (printValue F format (d + 1)) child ++ ([] ++ 0x5d :: rest))) := by
    rw [printValue, printElements_eq, List.append_assoc, List.append_assoc]
    rfl
  have hNil : Blank [] := by
    intro b hb
    cases hb
  have hSpace : Blank (ifFormat format (lit " ")) := blank_ifFormat format (@blank_replicate 0x20 (by decide) 1)
  rw [hText, parseValue_bracket (.inl rfl), reread, height, written]
  cases depth with
  | zero => simp
  | succ depth =>
    have hHead : ∀ v ∈ child, ∃ b more, printValue F format (d + 1) v = b :: more ∧ 32 < b ∧ b ≠ 0x5d := by
      intro v _
      obtain ⟨b, more, hEq, hText, hOpen, _⟩ := @printValue_head F format (d + 1) v
      exact ⟨b, more, hEq, hText, hOpen⟩
    have hItems := parseBracket_separated (by decide) (by decide) (by decide) hSpace hNil hNil hNil hNil
      (fun v hv => @reads_value F format depth v (h v hv) (d + 1)) hHead rest
    dsimp only
    rw [if_pos rfl, hItems, mapM_reread]
    simp only [Nat.add_le_add_iff_right]
    split <;> rfl

theorem parses_object {child : List (Bytes × CJSON)} (h : ∀ m ∈ child, Parses F format m.2) :
    Parses F format (.object child) := by
  intro depth d rest hStop
  have hText : printValue F format d (.object child) ++ rest = 0x7b :: (ifFormat format (lit "\n") ++
      (separated (tabs format (d + 1)) (ifFormat format (lit "\n")) (ifFormat format (lit "\n"))
        (@printPair F format (d + 1)) child ++ (tabs format d ++ 0x7d :: rest))) := by
    rw [printValue, printPairs_eq]
    simp only [List.append_assoc]
    rfl
  have hNewline : Blank (ifFormat format (lit "\n")) := blank_ifFormat format (@blank_replicate 0x0a (by decide) 1)
  have hTabs : ∀ n, Blank (tabs format n) := fun n => blank_ifFormat format (blank_replicate (by decide) n)
  rw [hText, parseValue_bracket (.inr rfl), reread, height, written]
  cases depth with
  | zero => simp
  | succ depth =>
    have hHead : ∀ m ∈ child, ∃ b more, @printPair F format (d + 1) m = b :: more ∧ 32 < b ∧ b ≠ 0x7d :=
      fun m _ => ⟨quote, _, rfl, by decide, by decide⟩
    have hItems := parseBracket_separated (by decide) (by decide) (by decide) hNewline hNewline hNewline (hTabs d)
      (hTabs (d + 1)) (fun m hm => @reads_pair F format depth m (h m hm) (d + 1)) hHead rest
    dsimp only
    rw [if_neg (by decide), hItems, mapM_rereadPair]
    simp only [Nat.add_le_add_iff_right]
    split <;> rfl

theorem parses_all (F : NumberFormat) (format : Bool) (v : CJSON) : Parses F format v := by
  induction v using CJSON.cases_in with
  | hNull => exact fun depth d rest _ => parseValue_null depth rest
  | hFalse => exact fun depth d rest _ => parseValue_false depth rest
  | hTrue => exact fun depth d rest _ => parseValue_true depth rest
  | hNumber text =>
    intro depth d rest hStop
    rw [printValue, reread, height, if_pos (Nat.zero_le _), written]
    cases hPrint : F.print text with
    | none => exact parseValue_null depth rest
    | some printed => exact parseValue_number (F.numeral hPrint) hStop depth
  | hString s => exact fun depth d rest _ => parseValue_string depth (cstr s) rest
  | hArray child ih => exact parses_array ih
  | hObject child ih => exact parses_object ih

/-- Parsing is the inverse of printing, formatted or not, up to the nesting limit. -/
theorem cJSONParse_print (F : NumberFormat) (format : Bool) (v : CJSON) :
    cJSONParse (print F format v) = if height v ≤ nestingLimit then some (written F v) else none := by
  obtain ⟨b, more, hHead, hText, _, hBom⟩ := @printValue_head F format 0 v
  have hStart : bufferSkipWhitespace (skipUtf8Bom (print F format v ++ [0])) = printValue F format 0 v ++ [0] := by
    rw [print, hHead, List.cons_append, skipUtf8Bom, if_neg]
    · exact bufferSkipWhitespace_of_gt hText _
    · rintro ⟨_, hPrefix⟩
      exact hBom (List.cons_prefix_cons.mp hPrefix).1.symm
  rw [cJSONParse, hStart, parses_all F format v nestingLimit 0 [0] ⟨0, [], rfl, by decide⟩, Option.map_map, reread]
  split <;> rfl

theorem noNul_separated {α : Type} {lead between last : Bytes} {spell : α → Bytes} {xs : List α} (hLead : 0 ∉ lead)
    (hBetween : 0 ∉ between) (hLast : 0 ∉ last) (hSpell : ∀ x ∈ xs, 0 ∉ spell x) :
    0 ∉ separated lead between last spell xs := by
  induction xs with
  | nil => exact List.not_mem_nil
  | cons x next ih =>
    have hHead := hSpell x List.mem_cons_self
    have hRest := ih fun y hy => hSpell y (List.mem_cons_of_mem x hy)
    have hComma : (0 : UInt8) ≠ 0x2c := by decide
    rw [separated]
    split <;> simp [*]

theorem noNul_ifFormat (format : Bool) {blanks : Bytes} (h : 0 ∉ blanks) : 0 ∉ ifFormat format blanks := by
  rw [ifFormat]
  split
  · exact h
  · exact List.not_mem_nil

theorem noNul_tabs (format : Bool) (depth : Nat) : 0 ∉ tabs format depth :=
  noNul_ifFormat format fun hMem => absurd (List.eq_of_mem_replicate hMem) (by decide)

theorem noNul_printValue (F : NumberFormat) (format : Bool) (v : CJSON) (depth : Nat) :
    0 ∉ printValue F format depth v := by
  induction v using CJSON.cases_in generalizing depth with
  | hNull => exact show 0 ∉ lit "null" by decide
  | hFalse => exact show 0 ∉ lit "false" by decide
  | hTrue => exact show 0 ∉ lit "true" by decide
  | hNumber text =>
    rw [printValue]
    cases hPrint : F.print text with
    | none => decide
    | some printed => exact fun hMem => absurd ((F.numeral hPrint).chars 0 hMem) (by decide)
  | hString s => exact not_mem_printStringPtr (by decide) (cstr s)
  | hArray child ih =>
    have hItems := @noNul_separated CJSON [] _ _ _ _ List.not_mem_nil (noNul_ifFormat format (show 0 ∉ lit " " by decide))
      List.not_mem_nil fun v hv => ih v hv (depth + 1)
    rw [printValue, printElements_eq]
    simp only [List.mem_append, not_or]
    exact ⟨⟨by decide, hItems⟩, by decide⟩
  | hObject child ih =>
    have hNewline : 0 ∉ ifFormat format (lit "\n") := noNul_ifFormat format (by decide)
    have hPair : ∀ m ∈ child, 0 ∉ @printPair F format (depth + 1) m := by
      intro m hm
      rw [printPair]
      simp only [List.mem_append, not_or]
      exact ⟨⟨⟨not_mem_printStringPtr (by decide) _, by decide⟩, noNul_ifFormat format (by decide)⟩,
        ih m hm (depth + 1)⟩
    have hItems := noNul_separated (noNul_tabs format (depth + 1)) hNewline hNewline hPair
    rw [printValue, printPairs_eq]
    simp only [List.mem_append, not_or]
    exact ⟨⟨⟨⟨by decide, hNewline⟩, hItems⟩, noNul_tabs format depth⟩, by decide⟩

end RoundTrip

section Accepted

theorem parseItems_forall {α : Type} {item : Bytes → Option (α × Bytes)} {close : UInt8} {P : α → Prop}
    (hItem : ∀ buf r, item buf = some r → P r.1) {fuel : Nat} {buf : Bytes} {r : List α × Bytes}
    (h : parseItems item close fuel buf = some r) : ∀ x ∈ r.1, P x := by
  induction fuel generalizing buf r with
  | zero => cases h
  | succ fuel ih =>
    rw [parseItems] at h
    obtain ⟨first, hFirst, h⟩ := Option.bind_eq_some_iff.mp h
    split at h
    · cases h
    · split at h
      · obtain ⟨next, hNext, rfl⟩ := Option.map_eq_some_iff.mp h
        exact List.forall_mem_cons.mpr ⟨hItem _ first hFirst, ih hNext⟩
      · obtain ⟨_, hEq⟩ := Option.ite_none_right_eq_some.mp h
        rw [← Option.some.inj hEq]
        exact List.forall_mem_singleton.mpr (hItem _ first hFirst)

theorem parseBracket_forall {α : Type} {item : Bytes → Option (α × Bytes)} {close : UInt8} {P : α → Prop}
    (hItem : ∀ buf r, item buf = some r → P r.1) {buf : Bytes} {r : List α × Bytes}
    (h : parseBracket item close buf = some r) : ∀ x ∈ r.1, P x := by
  rw [parseBracket] at h
  split at h
  · cases h
  · split at h
    · rw [← Option.some.inj h]
      exact List.forall_mem_nil P
    · exact parseItems_forall hItem h

theorem heights_le {child : List CJSON} {depth : Nat} (h : ∀ v ∈ child, height v ≤ depth) : heights child ≤ depth := by
  induction child with
  | nil => exact Nat.zero_le _
  | cons v next ih =>
    rw [heights]
    exact Nat.max_le.mpr ⟨h v List.mem_cons_self, ih fun w hw => h w (List.mem_cons_of_mem v hw)⟩

theorem memberHeights_le {child : List (Bytes × CJSON)} {depth : Nat} (h : ∀ m ∈ child, height m.2 ≤ depth) :
    memberHeights child ≤ depth := by
  induction child with
  | nil => exact Nat.zero_le _
  | cons m next ih =>
    rw [memberHeights]
    exact Nat.max_le.mpr ⟨h m List.mem_cons_self, ih fun w hw => h w (List.mem_cons_of_mem m hw)⟩

theorem parseValue_cases {depth : Nat} {buf : Bytes} {r : CJSON × Bytes} (h : parseValue depth buf = some r) :
    height r.1 = 0 ∨ ∃ n inner, depth = n + 1 ∧
      ((∃ items, parseBracket (parseValue n) 0x5d inner = some items ∧ r = (.array items.1, items.2)) ∨
        ∃ items, parseBracket (parseMember (parseValue n)) 0x7d inner = some items ∧ r = (.object items.1, items.2)) := by
  rw [parseValue.eq_def] at h
  split at h
  · rw [← Option.some.inj h]
    exact .inl rfl
  split at h
  · rw [← Option.some.inj h]
    exact .inl rfl
  split at h
  · rw [← Option.some.inj h]
    exact .inl rfl
  split at h
  · cases h
  split at h
  · obtain ⟨s, _, rfl⟩ := Option.map_eq_some_iff.mp h
    exact .inl rfl
  split at h
  · rw [parseNumber] at h
    obtain ⟨_, hEq⟩ := Option.ite_none_left_eq_some.mp h
    rw [← Option.some.inj hEq]
    exact .inl rfl
  split at h
  · cases h
  · rename_i n
    split at h
    · obtain ⟨items, hItems, rfl⟩ := Option.map_eq_some_iff.mp h
      exact .inr ⟨n, _, rfl, .inl ⟨items, hItems, rfl⟩⟩
    · obtain ⟨_, h⟩ := Option.ite_none_right_eq_some.mp h
      obtain ⟨items, hItems, rfl⟩ := Option.map_eq_some_iff.mp h
      exact .inr ⟨n, _, rfl, .inr ⟨items, hItems, rfl⟩⟩

theorem height_of_parseMember {depth : Nat} (hValue : ∀ buf r, parseValue depth buf = some r → height r.1 ≤ depth)
    (buf : Bytes) (r : (Bytes × CJSON) × Bytes) (h : parseMember (parseValue depth) buf = some r) :
    height r.1.2 ≤ depth := by
  rw [parseMember] at h
  obtain ⟨name, _, h⟩ := Option.bind_eq_some_iff.mp h
  split at h
  · cases h
  · obtain ⟨_, h⟩ := Option.ite_none_left_eq_some.mp h
    obtain ⟨v, hParse, rfl⟩ := Option.map_eq_some_iff.mp h
    exact hValue _ v hParse

theorem height_le_of_parseValue (depth : Nat) (buf : Bytes) (r : CJSON × Bytes) (h : parseValue depth buf = some r) :
    height r.1 ≤ depth := by
  induction depth generalizing buf r with
  | zero =>
    obtain hLeaf | ⟨n, _, hDepth, _⟩ := parseValue_cases h
    · exact Nat.le_of_eq hLeaf
    · cases hDepth
  | succ depth ih =>
    obtain hLeaf | ⟨n, inner, hDepth, ⟨items, hItems, rfl⟩ | ⟨items, hItems, rfl⟩⟩ := parseValue_cases h
    · rw [hLeaf]
      exact Nat.zero_le _
    · cases hDepth
      rw [height]
      exact Nat.succ_le_succ (heights_le (parseBracket_forall ih hItems))
    · cases hDepth
      rw [height]
      exact Nat.succ_le_succ (memberHeights_le (parseBracket_forall (height_of_parseMember ih) hItems))

/-- Whatever text was accepted, its value is accepted again after it has been printed,
with its numbers as they were printed and its strings up to their first NUL. -/
theorem cJSONParse_again (F : NumberFormat) (format : Bool) {text : Bytes} {v : CJSON} (h : cJSONParse text = some v) :
    cJSONParse (print F format v) = some (written F v) := by
  obtain ⟨r, hParse, rfl⟩ := Option.map_eq_some_iff.mp h
  rw [cJSONParse_print, if_pos (height_le_of_parseValue nestingLimit _ r hParse)]

end Accepted

theorem strtodLength_digits {text : Bytes} (h : ∀ b ∈ text, CJson.isDigit b = true) :
    strtodLength text = text.length := by
  have hSign : ¬ (text.head? = some 0x2b ∨ text.head? = some 0x2d) := by
    rintro (hHead | hHead) <;> exact absurd (h _ (List.mem_of_head? hHead)) (by decide)
  have hAll : text.takeWhile CJson.isDigit = text := List.takeWhile_eq_self_iff.mpr h
  rw [strtodLength, if_neg hSign]
  simp only [List.drop_zero, Nat.zero_add, hAll, List.drop_length, Nat.add_zero]
  split <;> omega

def naturals : NumberFormat where
  print text := if text ≠ [] ∧ text.length < 26 ∧ text.all CJson.isDigit then some text else none
  numeral {text printed} h := by
    obtain ⟨⟨hNonempty, hFits, hAll⟩, hEq⟩ := Option.ite_none_right_eq_some.mp h
    obtain rfl := Option.some.inj hEq
    have hDigits := List.all_eq_true.mp hAll
    obtain ⟨b, more, rfl⟩ := List.exists_cons_of_ne_nil hNonempty
    refine ⟨hFits, ?_, strtodLength_digits hDigits, b, more, rfl, .inr (hDigits b List.mem_cons_self)⟩
    intro c hc
    simp [numberChar, hDigits c hc]

/-- A value with an object in an array, laid out and read again. -/
theorem again_nested : ∃ v, cJSONParse (lit "[1, \x7b\"a\":null\x7d]") = some v ∧
    cJSONParse (print naturals true v) = some (written naturals v) := by
  have hSome : (cJSONParse (lit "[1, \x7b\"a\":null\x7d]")).isSome := by decide +kernel
  obtain ⟨v, hParse⟩ := Option.isSome_iff_exists.mp hSome
  exact ⟨v, hParse, cJSONParse_again naturals true hParse⟩

theorem print_strings (F : NumberFormat) {members : List (Bytes × Bytes)} (h : ∀ m ∈ members, 0 ∉ m.1 ∧ 0 ∉ m.2) :
    print F true (.object (members.map fun m => (m.1, .string m.2))) = cJSONPrint members := by
  have hPairs : printPairs F true 1 (members.map fun m => (m.1, .string m.2)) = printMembers members := by
    induction members with
    | nil => rfl
    | cons m next ih =>
      obtain ⟨hName, hValue⟩ := h m List.mem_cons_self
      rw [List.map_cons, printPairs, ih fun m hm => h m (List.mem_cons_of_mem _ hm), printValue, cstr_of_noNul hName,
        cstr_of_noNul hValue]
      cases next with
      | nil =>
        simp only [List.map_nil, printMembers, printMember, List.append_assoc]
        rfl
      | cons m next =>
        simp only [List.map_cons, printMembers, printMember, List.append_assoc]
        rfl
  rw [print, printValue, hPairs, cJSONPrint]
  simp only [List.append_assoc]
  rfl

end MonitorSystem.CJsonTree
