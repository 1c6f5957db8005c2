import MonitorSystem.Lib.CString
import Mathlib.Data.Bool.AllAny

/-! # The vendored cJSON

Parsing works on the rest of the text, whose last byte is the terminator of
the C string. A number keeps its text, since no caller reads its value. The
client only prints objects whose members are strings.
-/

namespace MonitorSystem.CJson

open Lib.CString

def quote : UInt8 := 0x22
def backslash : UInt8 := 0x5c

inductive CJSON
  | null
  | false
  | true
  | number (text : Bytes)
  | string (valuestring : Bytes)
  | array (child : List CJSON)
  | object (child : List (Bytes × CJSON))

def hexChar (n : Nat) : UInt8 := if n < 10 then UInt8.ofNat (0x30 + n) else UInt8.ofNat (0x57 + n)

def printByte (b : UInt8) : Bytes :=
  if b > 31 ∧ b ≠ quote ∧ b ≠ backslash then [b]
  else if b = backslash then [backslash, backslash]
  else if b = quote then [backslash, quote]
  else if b = 8 then backslash :: lit "b"
  else if b = 12 then backslash :: lit "f"
  else if b = 10 then backslash :: lit "n"
  else if b = 13 then backslash :: lit "r"
  else if b = 9 then backslash :: lit "t"
  else backslash :: lit "u00" ++ [hexChar (b.toNat / 16), hexChar (b.toNat % 16)]

def printStringPtr (s : Bytes) : Bytes := quote :: s.flatMap printByte ++ [quote]

def printMember (m : Bytes × Bytes) : Bytes :=
  lit "\t" ++ printStringPtr m.1 ++ lit ":\t" ++ printStringPtr m.2

def printMembers : List (Bytes × Bytes) → Bytes
  | [] => []
  | [m] => printMember m ++ lit "\n"
  | m :: m' :: next => printMember m ++ lit ",\n" ++ printMembers (m' :: next)

def cJSONPrint (members : List (Bytes × Bytes)) : Bytes := lit "\x7b\n" ++ printMembers members ++ lit "\x7d"

def cJSONAddStringToObject (members : List (Bytes × Bytes)) (name : Bytes) (s : Option Bytes) :
    List (Bytes × Bytes) :=
  match s with
  | some s => members ++ [(name, s)]
  | none => members

/-- At the end of the buffer the offset steps back onto its last byte. -/
def bufferSkipWhitespace (buf : Bytes) : Bytes :=
  match buf.dropWhile (· ≤ 32) with
  | [] => buf.getLast?.toList
  | rest => rest

/-- The first loop of parse_string: the bytes up to the closing quote, and the rest after it. -/
def scanString : Bytes → Option (Bytes × Bytes)
  | [] => none
  | b :: rest =>
    if b = quote then some ([], rest)
    else if b = backslash then
      match rest with
      | [] => none
      | c :: rest => (scanString rest).map fun r => (b :: c :: r.1, r.2)
    else (scanString rest).map fun r => (b :: r.1, r.2)

def hexDigit (b : UInt8) : Option Nat :=
  if 0x30 ≤ b ∧ b ≤ 0x39 then some (b.toNat - 0x30)
  else if 0x41 ≤ b ∧ b ≤ 0x46 then some (10 + (b.toNat - 0x41))
  else if 0x61 ≤ b ∧ b ≤ 0x66 then some (10 + (b.toNat - 0x61))
  else none

/-- An invalid digit makes the whole number 0. -/
def parseHex4 (a b c d : UInt8) : Nat :=
  match hexDigit a, hexDigit b, hexDigit c, hexDigit d with
  | some a, some b, some c, some d => ((a * 16 + b) * 16 + c) * 16 + d
  | _, _, _, _ => 0

def utf8Bytes (mark : Nat) : Nat → Nat → Bytes
  | 0, codepoint => [UInt8.ofNat ((codepoint ||| mark) &&& 0xFF)]
  | n + 1, codepoint => utf8Bytes mark n (codepoint >>> 6) ++
      [UInt8.ofNat ((codepoint ||| 0x80) &&& 0xBF)]

def utf8 (codepoint : Nat) : Bytes :=
  if codepoint < 0x80 then [UInt8.ofNat (codepoint &&& 0x7F)]
  else if codepoint < 0x800 then utf8Bytes 0xC0 1 codepoint
  else if codepoint < 0x10000 then utf8Bytes 0xE0 2 codepoint
  else utf8Bytes 0xF0 3 codepoint

def unescapeChar (c : UInt8) : Option UInt8 :=
  if c = 0x62 then some 8
  else if c = 0x66 then some 12
  else if c = 0x6e then some 10
  else if c = 0x72 then some 13
  else if c = 0x74 then some 9
  else if c = quote ∨ c = backslash ∨ c = 0x2f then some c
  else none

/-- The second loop of parse_string. A backslash that is left alone, after a
malformed \u that took its partner, is followed by the closing quote. -/
def unescape : Bytes → Option Bytes
  | [] => some []
  | b :: rest =>
    if b ≠ backslash then (unescape rest).map (b :: ·)
    else match rest with
      | [] => some [quote]
      | c :: rest =>
        if c = 0x75 then
          match rest with
          | h₁ :: h₂ :: h₃ :: h₄ :: rest =>
            let firstCode := parseHex4 h₁ h₂ h₃ h₄
            if 0xDC00 ≤ firstCode ∧ firstCode ≤ 0xDFFF then none
            else if 0xD800 ≤ firstCode ∧ firstCode ≤ 0xDBFF then
              match rest with
              | b' :: u :: l₁ :: l₂ :: l₃ :: l₄ :: rest =>
                let secondCode := parseHex4 l₁ l₂ l₃ l₄
                if b' ≠ backslash ∨ u ≠ 0x75 then none
                else if secondCode < 0xDC00 ∨ 0xDFFF < secondCode then none
                else (unescape rest).map (utf8 (0x10000 +
                  (((firstCode &&& 0x3FF) <<< 10) ||| (secondCode &&& 0x3FF))) ++ ·)
              | _ => none
            else (unescape rest).map (utf8 firstCode ++ ·)
          | _ => none
        else match unescapeChar c with
          | some c => (unescape rest).map (c :: ·)
          | none => none

def parseString (buf : Bytes) : Option (Bytes × Bytes) :=
  match buf with
  | [] => none
  | b :: rest =>
    if b ≠ quote then none
    else (scanString rest).bind fun r => (unescape r.1).map fun s => (s, r.2)

def isDigit (b : UInt8) : Bool := 0x30 ≤ b ∧ b ≤ 0x39

/-- The length of the longest decimal number at the beginning, as strtod takes it. -/
def strtodLength (s : Bytes) : Nat :=
  let sign := if s.head? = some 0x2b ∨ s.head? = some 0x2d then 1 else 0
  let int := ((s.drop sign).takeWhile isDigit).length
  let mantissa := match s.drop (sign + int) with
    | 0x2e :: frac => if int + (frac.takeWhile isDigit).length = 0 then 0
        else int + 1 + (frac.takeWhile isDigit).length
    | _ => int
  let exponent := match s.drop (sign + mantissa) with
    | e :: more =>
      let expSign := if more.head? = some 0x2b ∨ more.head? = some 0x2d then 1 else 0
      let digits := ((more.drop expSign).takeWhile isDigit).length
      if (e = 0x65 ∨ e = 0x45) ∧ digits ≠ 0 then 1 + expSign + digits else 0
    | [] => 0
  if mantissa = 0 then 0 else sign + mantissa + exponent

def numberChar (b : UInt8) : Bool :=
  isDigit b ∨ b = 0x2b ∨ b = 0x2d ∨ b = 0x65 ∨ b = 0x45 ∨ b = 0x2e

/-- number_c_string has room for 63 characters. -/
def parseNumber (buf : Bytes) : Option (CJSON × Bytes) :=
  let n := strtodLength ((buf.take 63).takeWhile numberChar)
  if n = 0 then none else some (.number (buf.take n), buf.drop n)

def parseItems {α : Type} (item : Bytes → Option (α × Bytes)) (close : UInt8) :
    Nat → Bytes → Option (List α × Bytes)
  | 0, _ => none
  | fuel + 1, buf =>
    (item (bufferSkipWhitespace buf)).bind fun r =>
      match bufferSkipWhitespace r.2 with
      | [] => none
      | b :: rest =>
        if b = 0x2c then (parseItems item close fuel rest).map fun rs => (r.1 :: rs.1, rs.2)
        else if b = close then some ([r.1], rest)
        else none

/-- parse_array and parse_object; every item takes a byte, so the length of the text is fuel enough. -/
def parseBracket {α : Type} (item : Bytes → Option (α × Bytes)) (close : UInt8) (buf : Bytes) :
    Option (List α × Bytes) :=
  match bufferSkipWhitespace buf with
  | [] => none
  | b :: rest => if b = close then some ([], rest) else parseItems item close (b :: rest).length (b :: rest)

def parseMember (value : Bytes → Option (CJSON × Bytes)) (buf : Bytes) :
    Option ((Bytes × CJSON) × Bytes) :=
  (parseString buf).bind fun name =>
    match bufferSkipWhitespace name.2 with
    | [] => none
    | b :: rest =>
      if b ≠ 0x3a then none
      else (value (bufferSkipWhitespace rest)).map fun v => ((name.1, v.1), v.2)

/-- The first argument is the number of brackets that may still be opened. -/
def parseValue (depth : Nat) (buf : Bytes) : Option (CJSON × Bytes) :=
  if lit "null" <+: buf then some (.null, buf.drop 4)
  else if lit "false" <+: buf then some (.false, buf.drop 5)
  else if lit "true" <+: buf then some (.true, buf.drop 4)
  else match buf with
    | [] => none
    | b :: rest =>
      if b = quote then (parseString (b :: rest)).map fun r => (.string r.1, r.2)
      else if b = 0x2d ∨ isDigit b then parseNumber (b :: rest)
      else match depth with
        | 0 => none
        | depth + 1 =>
          if b = 0x5b then (parseBracket (parseValue depth) 0x5d rest).map fun r => (.array r.1, r.2)
          else if b = 0x7b then
            (parseBracket (parseMember (parseValue depth)) 0x7d rest).map fun r => (.object r.1, r.2)
          else none

def nestingLimit : Nat := 1000

def skipUtf8Bom (buf : Bytes) : Bytes :=
  if 4 < buf.length ∧ [0xEF, 0xBB, 0xBF] <+: buf then buf.drop 3 else buf

/-- cJSON_Parse of a C string; what follows the first value is ignored. -/
def cJSONParse (value : Bytes) : Option CJSON :=
  (parseValue nestingLimit (bufferSkipWhitespace (skipUtf8Bom (value ++ [0])))).map Prod.fst

def tolower (b : UInt8) : UInt8 := if 0x41 ≤ b ∧ b ≤ 0x5a then b + 32 else b

/-- cJSON_GetObjectItem compares C strings without regard to case. -/
def cJSONGetObjectItem (object : Option CJSON) (name : Bytes) : Option CJSON :=
  match object with
  | some (.object child) =>
    (child.find? fun m => (cstr m.1).map tolower = name.map tolower).map Prod.snd
  | _ => none

def CJSON.valuestring : CJSON → Option Bytes
  | .string s => some (cstr s)
  | _ => none

theorem hexChar_plain : ∀ n < 16, hexChar n ≠ quote ∧ hexChar n ≠ backslash := by decide

theorem parseHex4_control : ∀ n < 32,
    parseHex4 0x30 0x30 (hexChar (n / 16)) (hexChar (n % 16)) = n := by decide

theorem printByte_cases (b : UInt8) :
    (printByte b = [b] ∧ 31 < b ∧ b ≠ quote ∧ b ≠ backslash) ∨
    (∃ c, printByte b = [backslash, c] ∧ 31 < c ∧ c ≠ 0x75 ∧ unescapeChar c = some b) ∨
    (b.toNat < 32 ∧ printByte b =
      [backslash, 0x75, 0x30, 0x30, hexChar (b.toNat / 16), hexChar (b.toNat % 16)]) := by
  rw [printByte]
  split
  · rename_i hPlain
    exact .inl ⟨rfl, hPlain⟩
  rename_i hPlain
  split
  · rename_i hBackslash
    subst hBackslash
    exact .inr (.inl ⟨backslash, rfl, by decide⟩)
  rename_i hBackslash
  split
  · rename_i hQuote
    subst hQuote
    exact .inr (.inl ⟨quote, rfl, by decide⟩)
  rename_i hQuote
  split
  · rename_i hB
    subst hB
    exact .inr (.inl ⟨0x62, rfl, by decide⟩)
  split
  · rename_i hF
    subst hF
    exact .inr (.inl ⟨0x66, rfl, by decide⟩)
  split
  · rename_i hN
    subst hN
    exact .inr (.inl ⟨0x6e, rfl, by decide⟩)
  split
  · rename_i hR
    subst hR
    exact .inr (.inl ⟨0x72, rfl, by decide⟩)
  split
  · rename_i hT
    subst hT
    exact .inr (.inl ⟨0x74, rfl, by decide⟩)
  · refine .inr (.inr ⟨?_, rfl⟩)
    have hLow : ¬ 31 < b := fun hHigh => hPlain ⟨hHigh, hQuote, hBackslash⟩
    rw [UInt8.lt_iff_toNat_lt] at hLow
    exact Nat.lt_succ_of_le (Nat.le_of_not_lt hLow)

@[simp] theorem scanString_quote (rest : Bytes) : scanString (quote :: rest) = some ([], rest) := by
  rw [scanString.eq_def]
  exact if_pos rfl

theorem scanString_plain {b : UInt8} (hQuote : b ≠ quote) (hBackslash : b ≠ backslash) (rest : Bytes) :
    scanString (b :: rest) = (scanString rest).map fun r => (b :: r.1, r.2) := by
  rw [scanString.eq_def]
  exact (if_neg hQuote).trans (if_neg hBackslash)

theorem scanString_escape (c : UInt8) (rest : Bytes) :
    scanString (backslash :: c :: rest) = (scanString rest).map fun r => (backslash :: c :: r.1, r.2) := by
  rw [scanString.eq_def]
  simp [show backslash ≠ quote by decide]

theorem scanString_printByte (b : UInt8) (rest : Bytes) :
    scanString (printByte b ++ rest) = (scanString rest).map fun r => (printByte b ++ r.1, r.2) := by
  obtain ⟨hEq, _, hQuote, hBackslash⟩ | ⟨c, hEq, _⟩ | ⟨hLow, hEq⟩ := printByte_cases b
  · rw [hEq]
    exact scanString_plain hQuote hBackslash rest
  · rw [hEq]
    exact scanString_escape c rest
  · obtain ⟨hQuote₁, hBackslash₁⟩ := hexChar_plain (b.toNat / 16) (by omega)
    obtain ⟨hQuote₂, hBackslash₂⟩ := hexChar_plain (b.toNat % 16) (by omega)
    have hZero : (0x30 : UInt8) ≠ quote ∧ (0x30 : UInt8) ≠ backslash := by decide
    simp only [hEq, List.cons_append, List.nil_append, scanString_escape,
      scanString_plain hZero.1 hZero.2, scanString_plain hQuote₁ hBackslash₁,
      scanString_plain hQuote₂ hBackslash₂, Option.map_map, Function.comp_def]

theorem scanString_printed (s rest : Bytes) :
    scanString (s.flatMap printByte ++ quote :: rest) = some (s.flatMap printByte, rest) := by
  induction s with
  | nil => exact scanString_quote rest
  | cons b s ih => rw [List.flatMap_cons, List.append_assoc, scanString_printByte, ih, Option.map_some]

theorem utf8_low {n : Nat} (h : n < 32) : utf8 n = [UInt8.ofNat n] := by
  have hAll : ∀ n < 32, utf8 n = [UInt8.ofNat n] := by decide
  exact hAll n h

theorem unescape_plain {b : UInt8} (hBackslash : b ≠ backslash) (rest : Bytes) :
    unescape (b :: rest) = (unescape rest).map (b :: ·) := by
  rw [unescape.eq_def]
  exact if_pos hBackslash

theorem unescape_char {b c : UInt8} (hNotU : c ≠ 0x75) (hChar : unescapeChar c = some b) (rest : Bytes) :
    unescape (backslash :: c :: rest) = (unescape rest).map (b :: ·) := by
  rw [unescape.eq_def]
  apply (if_neg (not_not.mpr rfl)).trans
  apply (if_neg hNotU).trans
  rw [hChar]

theorem unescape_hex {h₁ h₂ h₃ h₄ : UInt8} (hLow : parseHex4 h₁ h₂ h₃ h₄ < 0xD800) (rest : Bytes) :
    unescape (backslash :: 0x75 :: h₁ :: h₂ :: h₃ :: h₄ :: rest) =
      (unescape rest).map (utf8 (parseHex4 h₁ h₂ h₃ h₄) ++ ·) := by
  rw [unescape.eq_def]
  apply (if_neg (not_not.mpr rfl)).trans
  apply (if_pos rfl).trans
  apply (if_neg (by omega)).trans
  exact if_neg (by omega)

theorem unescape_printByte (b : UInt8) (rest : Bytes) :
    unescape (printByte b ++ rest) = (unescape rest).map (b :: ·) := by
  obtain ⟨hEq, _, _, hBackslash⟩ | ⟨c, hEq, _, hNotU, hChar⟩ | ⟨hLow, hEq⟩ := printByte_cases b
  · rw [hEq]
    exact unescape_plain hBackslash rest
  · rw [hEq]
    exact unescape_char hNotU hChar rest
  · have hHex := parseHex4_control b.toNat hLow
    rw [hEq]
    apply (unescape_hex (by omega) rest).trans
    rw [hHex, utf8_low hLow, UInt8.ofNat_toNat]
    rfl

theorem unescape_printed (s : Bytes) : unescape (s.flatMap printByte) = some s := by
  induction s with
  | nil => rfl
  | cons b s ih => rw [List.flatMap_cons, unescape_printByte, ih, Option.map_some]

theorem parseString_printStringPtr (s rest : Bytes) :
    parseString (printStringPtr s ++ rest) = some (s, rest) := by
  simp [printStringPtr, parseString, scanString_printed, unescape_printed]

theorem bufferSkipWhitespace_of_gt {b : UInt8} (h : 32 < b) (rest : Bytes) :
    bufferSkipWhitespace (b :: rest) = b :: rest := by
  have hStop : ¬ b ≤ 32 := UInt8.not_le.mpr h
  simp [bufferSkipWhitespace, hStop]

theorem bufferSkipWhitespace_space {b : UInt8} (h : b ≤ 32) {rest : Bytes} (hRest : rest ≠ []) :
    bufferSkipWhitespace (b :: rest) = bufferSkipWhitespace rest := by
  rw [bufferSkipWhitespace, bufferSkipWhitespace, List.dropWhile_cons_of_pos (by simpa using h)]
  cases rest with
  | nil => exact absurd rfl hRest
  | cons c rest => rw [List.getLast?_cons_cons]

theorem bufferSkipWhitespace_one {blank b : UInt8} (hBlank : blank ≤ 32) (hText : 32 < b) (rest : Bytes) :
    bufferSkipWhitespace (blank :: b :: rest) = b :: rest := by
  rw [bufferSkipWhitespace_space hBlank (List.cons_ne_nil b rest), bufferSkipWhitespace_of_gt hText]

theorem bufferSkipWhitespace_idem (buf : Bytes) :
    bufferSkipWhitespace (bufferSkipWhitespace buf) = bufferSkipWhitespace buf := by
  induction buf with
  | nil => rfl
  | cons b buf ih =>
    obtain hSpace | hText := UInt8.le_or_lt b 32
    · cases buf with
      | nil => simp [bufferSkipWhitespace, hSpace]
      | cons c buf => rw [bufferSkipWhitespace_space hSpace (List.cons_ne_nil c buf), ih]
    · rw [bufferSkipWhitespace_of_gt hText, bufferSkipWhitespace_of_gt hText]

theorem parseItems_skip {α : Type} (item : Bytes → Option (α × Bytes)) (close : UInt8) (fuel : Nat)
    (buf : Bytes) :
    parseItems item close fuel (bufferSkipWhitespace buf) = parseItems item close fuel buf := by
  cases fuel with
  | zero => rfl
  | succ fuel => rw [parseItems, parseItems, bufferSkipWhitespace_idem]

theorem not_prefix_of_head {word : Bytes} {b : UInt8} {text : Bytes} (h : (word.head? == some b) = false)
    (hWord : word.isEmpty = false) : ¬ word <+: b :: text := by
  cases word with
  | nil => cases hWord
  | cons c word =>
    rw [List.cons_prefix_cons]
    rintro ⟨rfl, _⟩
    simp at h

theorem parseValue_string (depth : Nat) (s rest : Bytes) :
    parseValue depth (printStringPtr s ++ rest) = some (.string s, rest) := by
  obtain ⟨text, hText⟩ : ∃ text, printStringPtr s ++ rest = quote :: text := ⟨_, rfl⟩
  have hParse : parseString (quote :: text) = some (s, rest) := by
    rw [← hText]
    exact parseString_printStringPtr s rest
  have hNull : ¬ lit "null" <+: quote :: text := not_prefix_of_head rfl rfl
  have hFalse : ¬ lit "false" <+: quote :: text := not_prefix_of_head rfl rfl
  have hTrue : ¬ lit "true" <+: quote :: text := not_prefix_of_head rfl rfl
  rw [hText, parseValue.eq_def, if_neg hNull, if_neg hFalse, if_neg hTrue]
  simp [hParse]

theorem parseMember_printMember (depth : Nat) (m : Bytes × Bytes) (rest : Bytes) :
    parseMember (parseValue depth) (bufferSkipWhitespace (printMember m ++ rest)) =
      some ((m.1, .string m.2), rest) := by
  have hTab : bufferSkipWhitespace (printMember m ++ rest) =
      printStringPtr m.1 ++ 0x3a :: 0x09 :: (printStringPtr m.2 ++ rest) := by
    rw [printMember, List.append_assoc, List.append_assoc, List.append_assoc]
    exact bufferSkipWhitespace_one (by decide) (by decide) _
  have hValue : bufferSkipWhitespace (0x09 :: (printStringPtr m.2 ++ rest)) =
      printStringPtr m.2 ++ rest := bufferSkipWhitespace_one (by decide) (by decide) _
  rw [hTab, parseMember, parseString_printStringPtr, Option.bind_some,
    bufferSkipWhitespace_of_gt (by decide)]
  simp [hValue, parseValue_string]

theorem parseItems_printMembers (depth : Nat) (m : Bytes × Bytes) (next : List (Bytes × Bytes))
    (rest : Bytes) {fuel : Nat} (hFuel : next.length < fuel) :
    parseItems (parseMember (parseValue depth)) 0x7d fuel (printMembers (m :: next) ++ 0x7d :: rest) =
      some ((m :: next).map fun m => (m.1, .string m.2), rest) := by
  induction next generalizing m fuel with
  | nil =>
    obtain ⟨fuel, rfl⟩ := Nat.exists_eq_succ_of_ne_zero (Nat.ne_of_gt hFuel)
    have hClose : bufferSkipWhitespace (lit "\n" ++ 0x7d :: rest) = 0x7d :: rest :=
      bufferSkipWhitespace_one (by decide) (by decide) rest
    rw [printMembers, List.append_assoc, parseItems, parseMember_printMember]
    simp [hClose]
  | cons m' next ih =>
    obtain ⟨fuel, rfl⟩ := Nat.exists_eq_succ_of_ne_zero (Nat.ne_of_gt (Nat.zero_lt_of_lt hFuel))
    have hRest := @ih m' fuel (by simpa using hFuel)
    have hComma : bufferSkipWhitespace (lit ",\n" ++ (printMembers (m' :: next) ++ 0x7d :: rest)) =
        0x2c :: 0x0a :: (printMembers (m' :: next) ++ 0x7d :: rest) :=
      bufferSkipWhitespace_of_gt (by decide) _
    have hNewline : bufferSkipWhitespace (0x0a :: (printMembers (m' :: next) ++ 0x7d :: rest)) =
        bufferSkipWhitespace (printMembers (m' :: next) ++ 0x7d :: rest) :=
      bufferSkipWhitespace_space (by decide) (by simp)
    rw [printMembers, List.append_assoc, List.append_assoc, parseItems, parseMember_printMember,
      Option.bind_some]
    simp only [hComma, if_true]
    rw [← parseItems_skip, hNewline, parseItems_skip, hRest]
    rfl

theorem parseBracket_items {α : Type} {item : Bytes → Option (α × Bytes)} {close b : UInt8} {buf rest : Bytes}
    (hSkip : bufferSkipWhitespace buf = b :: rest) (hOpen : b ≠ close) :
    parseBracket item close buf = parseItems item close (b :: rest).length buf := by
  rw [parseBracket, hSkip]
  simp only [if_neg hOpen]
  rw [← hSkip, parseItems_skip]

theorem printMembers_cons (m : Bytes × Bytes) (next : List (Bytes × Bytes)) :
    ∃ more, printMembers (m :: next) = 0x09 :: quote :: more := by
  cases next with
  | nil => exact ⟨_, rfl⟩
  | cons m' next => exact ⟨_, rfl⟩

theorem length_printMembers (m : Bytes × Bytes) (next : List (Bytes × Bytes)) :
    next.length + 1 < (printMembers (m :: next)).length := by
  induction next generalizing m with
  | nil =>
    obtain ⟨more, hMore⟩ := printMembers_cons m []
    rw [hMore, List.length_cons, List.length_cons, List.length_nil]
    omega
  | cons m' next ih =>
    have hRest := ih m'
    rw [printMembers, List.length_append, List.length_append, List.length_cons]
    have hMember : 0 < (printMember m).length := Nat.zero_lt_succ _
    omega

theorem parseBracket_printMembers (depth : Nat) (members : List (Bytes × Bytes)) (rest : Bytes) :
    parseBracket (parseMember (parseValue depth)) 0x7d (0x0a :: (printMembers members ++ 0x7d :: rest)) =
      some (members.map fun m => (m.1, .string m.2), rest) := by
  cases members with
  | nil =>
    have hSkip : bufferSkipWhitespace (0x0a :: 0x7d :: rest) = 0x7d :: rest :=
      bufferSkipWhitespace_one (by decide) (by decide) rest
    rw [printMembers, List.nil_append, parseBracket, hSkip]
    rfl
  | cons m next =>
    obtain ⟨more, hMore⟩ := printMembers_cons m next
    have hNewline : bufferSkipWhitespace (0x0a :: (printMembers (m :: next) ++ 0x7d :: rest)) =
        bufferSkipWhitespace (printMembers (m :: next) ++ 0x7d :: rest) :=
      bufferSkipWhitespace_space (by decide) (by simp)
    have hSkip : bufferSkipWhitespace (0x0a :: (printMembers (m :: next) ++ 0x7d :: rest)) =
        quote :: (more ++ 0x7d :: rest) := by
      rw [hNewline, hMore]
      exact bufferSkipWhitespace_one (by decide) (by decide) _
    have hFuel : next.length < (quote :: (more ++ 0x7d :: rest)).length := by
      have hLength := length_printMembers m next
      rw [hMore] at hLength
      simp only [List.length_cons, List.length_append] at hLength ⊢
      omega
    rw [parseBracket_items hSkip (by decide), ← parseItems_skip, hNewline, parseItems_skip,
      parseItems_printMembers depth m next rest hFuel]

theorem cJSONParse_cJSONPrint (members : List (Bytes × Bytes)) (rest : Bytes) :
    cJSONParse (cJSONPrint members ++ rest) = some (.object (members.map fun m => (m.1, .string m.2))) := by
  obtain ⟨text, hText⟩ : ∃ text, text = 0x0a :: (printMembers members ++ 0x7d :: (rest ++ [0])) := ⟨_, rfl⟩
  have hPrint : cJSONPrint members ++ rest ++ [0] = 0x7b :: text := by
    rw [cJSONPrint, hText, List.append_assoc, List.append_assoc, List.append_assoc]
    rfl
  have hNull : ¬ lit "null" <+: 0x7b :: text := not_prefix_of_head rfl rfl
  have hFalse : ¬ lit "false" <+: 0x7b :: text := not_prefix_of_head rfl rfl
  have hTrue : ¬ lit "true" <+: 0x7b :: text := not_prefix_of_head rfl rfl
  have hBracket := parseBracket_printMembers 999 members (rest ++ [0])
  have hBom : skipUtf8Bom (0x7b :: text) = 0x7b :: text := by
    rw [skipUtf8Bom, if_neg]
    simp
  rw [cJSONParse, hPrint, hBom, bufferSkipWhitespace_of_gt (by decide), nestingLimit, parseValue.eq_def,
    if_neg hNull, if_neg hFalse, if_neg hTrue]
  rw [← hText] at hBracket
  simp [hBracket, quote, isDigit]

theorem printable_printByte (b : UInt8) : ∀ c ∈ printByte b, 31 < c := by
  have hHex : ∀ n < 16, 31 < hexChar n := by decide
  have hBackslash : 31 < backslash := by decide
  obtain ⟨hEq, hHigh, _⟩ | ⟨c, hEq, hHigh, _⟩ | ⟨hLow, hEq⟩ := printByte_cases b
  · simpa [hEq] using hHigh
  · simpa [hEq, hBackslash] using hHigh
  · simp [hEq, hBackslash, hHex (b.toNat / 16) (by omega), hHex (b.toNat % 16) (by omega)]

theorem printable_printStringPtr (s : Bytes) : ∀ c ∈ printStringPtr s, 31 < c := by
  simp only [printStringPtr, List.cons_append, List.mem_cons, List.mem_append, List.mem_flatMap,
    List.not_mem_nil, or_false]
  rintro c (rfl | ⟨b, _, hc⟩ | rfl)
  · decide
  · exact printable_printByte b c hc
  · decide

theorem not_mem_printStringPtr {c : UInt8} (hc : c ≤ 31) (s : Bytes) : c ∉ printStringPtr s :=
  fun h => absurd (printable_printStringPtr s c h) (UInt8.not_lt.mpr hc)

theorem noNul_printMember (m : Bytes × Bytes) : 0 ∉ printMember m := by
  simp only [printMember, List.mem_append, not_or]
  exact ⟨⟨⟨by decide, not_mem_printStringPtr (by decide) m.1⟩, by decide⟩,
    not_mem_printStringPtr (by decide) m.2⟩

theorem newline_printMember (m : Bytes × Bytes) : 0x0a ∉ printMember m := by
  simp only [printMember, List.mem_append, not_or]
  exact ⟨⟨⟨by decide, not_mem_printStringPtr (by decide) m.1⟩, by decide⟩,
    not_mem_printStringPtr (by decide) m.2⟩

theorem noNul_printMembers (members : List (Bytes × Bytes)) : 0 ∉ printMembers members := by
  induction members with
  | nil => exact List.not_mem_nil
  | cons m next ih =>
    cases next with
    | nil =>
      rw [printMembers, List.mem_append, not_or]
      exact ⟨noNul_printMember m, by decide⟩
    | cons m' next =>
      rw [printMembers, List.mem_append, List.mem_append, not_or, not_or]
      exact ⟨⟨noNul_printMember m, by decide⟩, ih⟩

theorem noNul_cJSONPrint (members : List (Bytes × Bytes)) : 0 ∉ cJSONPrint members := by
  rw [cJSONPrint, List.mem_append, List.mem_append, not_or, not_or]
  exact ⟨⟨by decide, noNul_printMembers members⟩, by decide⟩

theorem count_printMembers (members : List (Bytes × Bytes)) :
    (printMembers members).count 0x0a = members.length := by
  have hMember : ∀ m, (printMember m).count 0x0a = 0 :=
    fun m => List.count_eq_zero_of_not_mem (newline_printMember m)
  have hEnd : (lit "\n").count 0x0a = 1 := by decide
  have hComma : (lit ",\n").count 0x0a = 1 := by decide
  induction members with
  | nil => rfl
  | cons m next ih =>
    cases next with
    | nil => rw [printMembers, List.count_append, hMember, hEnd, List.length_singleton]
    | cons m' next =>
      rw [printMembers, List.count_append, List.count_append, hMember, hComma, ih, Nat.zero_add,
        Nat.add_comm]
      rfl

theorem count_cJSONPrint (members : List (Bytes × Bytes)) :
    (cJSONPrint members).count 0x0a = members.length + 1 := by
  have hOpen : (lit "\x7b\n").count 0x0a = 1 := by decide
  have hClose : (lit "\x7d").count 0x0a = 0 := by decide
  rw [cJSONPrint, List.count_append, List.count_append, count_printMembers, hOpen, hClose]
  omega

def memberLines : List (Bytes × Bytes) → List Bytes
  | [] => []
  | [m] => [printMember m ++ [0x0a]]
  | m :: m' :: next => (printMember m ++ lit "," ++ [0x0a]) :: memberLines (m' :: next)

theorem flatten_memberLines (members : List (Bytes × Bytes)) : (memberLines members).flatten = printMembers members := by
  induction members with
  | nil => rfl
  | cons m next ih =>
    cases next with
    | nil => exact List.append_nil _
    | cons m' next =>
      rw [memberLines, List.flatten_cons, ih, printMembers, List.append_assoc (printMember m)]
      rfl

theorem length_memberLines (members : List (Bytes × Bytes)) : (memberLines members).length = members.length := by
  induction members with
  | nil => rfl
  | cons m next ih =>
    cases next with
    | nil => rfl
    | cons m' next =>
      rw [memberLines, List.length_cons, ih]
      rfl

theorem memberLines_shape {members : List (Bytes × Bytes)} {line : Bytes} (h : line ∈ memberLines members) :
    line.head? = some 0x09 ∧ ∃ body, line = body ++ [0x0a] ∧ 0x0a ∉ body := by
  have hTab : ∀ m rest, (printMember m ++ rest).head? = some 0x09 := fun _ _ => rfl
  induction members with
  | nil => cases h
  | cons m next ih =>
    cases next with
    | nil =>
      cases List.mem_singleton.mp h
      exact ⟨hTab m _, _, rfl, newline_printMember m⟩
    | cons m' next =>
      obtain rfl | h := List.mem_cons.mp h
      · refine ⟨?_, _, rfl, ?_⟩
        · rw [List.append_assoc]
          exact hTab m _
        rw [List.mem_append, not_or]
        exact ⟨newline_printMember m, by decide⟩
      · exact ih h

def printedLines (members : List (Bytes × Bytes)) : List Bytes :=
  lit "\x7b\n" :: (memberLines members ++ [lit "\x7d\n"])

theorem flatten_printedLines (members : List (Bytes × Bytes)) :
    (printedLines members).flatten = cJSONPrint members ++ [0x0a] := by
  rw [printedLines, List.flatten_cons, List.flatten_append, flatten_memberLines, cJSONPrint, List.append_assoc,
    List.append_assoc]
  rfl

theorem length_printedLines (members : List (Bytes × Bytes)) : (printedLines members).length = members.length + 2 := by
  rw [printedLines, List.length_cons, List.length_append, length_memberLines, List.length_singleton]

theorem cJSONGetObjectItem_zip {keys values : List Bytes} (hPlain : ∀ k ∈ keys, 0 ∉ k)
    (hDistinct : (keys.map fun k => k.map tolower).Nodup) {i : Nat} {k : Bytes} (hk : keys[i]? = some k) :
    cJSONGetObjectItem (some (.object ((keys.zip values).map fun m => (m.1, .string m.2)))) k =
      values[i]?.map .string := by
  induction keys generalizing values i with
  | nil => cases hk
  | cons key keys ih =>
    cases values with
    | nil => rfl
    | cons value values =>
      have hKey : cstr key = key := cstr_of_noNul (hPlain key List.mem_cons_self)
      rw [List.map_cons, List.nodup_cons] at hDistinct
      cases i with
      | zero =>
        cases hk
        simp [cJSONGetObjectItem, hKey]
      | succ i =>
        have hMem : k ∈ keys := List.mem_of_getElem? hk
        have hOther : ¬ (cstr key).map tolower = k.map tolower := by
          rw [hKey]
          intro hEq
          exact hDistinct.1 (hEq ▸ List.mem_map_of_mem hMem)
        have hRest := @ih values (fun k hk => hPlain k (List.mem_cons_of_mem key hk)) hDistinct.2 i hk
        simpa [cJSONGetObjectItem, hOther] using hRest

def verbatim (b : UInt8) : Bool := b > 31 ∧ b ≠ quote ∧ b ≠ backslash

theorem flatMap_printByte {s : Bytes} (h : ∀ b ∈ s, verbatim b = true) : s.flatMap printByte = s := by
  induction s with
  | nil => rfl
  | cons b s ih =>
    have hByte : printByte b = [b] := if_pos (of_decide_eq_true (h b List.mem_cons_self))
    rw [List.flatMap_cons, hByte, ih fun c hc => h c (List.mem_cons_of_mem b hc)]
    rfl

theorem length_printMember (m : Bytes × Bytes) :
    (printMember m).length = (m.1.flatMap printByte).length + (m.2.flatMap printByte).length + 7 := by
  have hTab : (lit "\t").length = 1 := rfl
  have hColon : (lit ":\t").length = 2 := rfl
  simp only [printMember, printStringPtr, List.length_append, List.length_cons, List.length_nil, hTab, hColon]
  omega

theorem length_cJSONPrint {members : List (Bytes × Bytes)} (h : members ≠ []) :
    (cJSONPrint members).length = ((members.map Prod.fst).flatten.flatMap printByte).length +
      ((members.map Prod.snd).flatten.flatMap printByte).length + 9 * members.length + 2 := by
  have hMembers : (printMembers members).length + 1 = ((members.map Prod.fst).flatten.flatMap printByte).length +
      ((members.map Prod.snd).flatten.flatMap printByte).length + 9 * members.length := by
    induction members with
    | nil => exact absurd rfl h
    | cons m next ih =>
      have hFirst := length_printMember m
      have hEnd : (lit "\n").length = 1 := rfl
      have hComma : (lit ",\n").length = 2 := rfl
      rw [List.map_cons, List.map_cons, List.flatten_cons, List.flatten_cons, List.flatMap_append,
        List.flatMap_append, List.length_append, List.length_append, List.length_cons]
      cases next with
      | nil =>
        rw [printMembers, List.length_append, hFirst, hEnd]
        simp only [List.map_nil, List.flatten_nil, List.flatMap_nil, List.length_nil]
        omega
      | cons m' next =>
        have hRest := ih (List.cons_ne_nil m' next)
        rw [printMembers, List.length_append, List.length_append, hFirst, hComma]
        omega
  have hOpen : (lit "\x7b\n").length = 2 := rfl
  have hClose : (lit "\x7d").length = 1 := rfl
  rw [cJSONPrint, List.length_append, List.length_append, hOpen, hClose]
  omega

theorem length_cJSONPrint_le {members : List (Bytes × Bytes)}
    (h : ∀ m ∈ members, (∀ b ∈ m.1, verbatim b = true) ∧ ∀ b ∈ m.2, verbatim b = true) :
    (cJSONPrint members).length ≤ (members.map Prod.fst).flatten.length +
      (members.map Prod.snd).flatten.length + 9 * members.length + 3 := by
  by_cases hEmpty : members = []
  · rw [hEmpty]
    decide
  · have hKeys : ∀ b ∈ (members.map Prod.fst).flatten, verbatim b = true := by
      simp only [List.mem_flatten, List.mem_map]
      rintro b ⟨_, ⟨m, hm, rfl⟩, hb⟩
      exact (h m hm).1 b hb
    have hValues : ∀ b ∈ (members.map Prod.snd).flatten, verbatim b = true := by
      simp only [List.mem_flatten, List.mem_map]
      rintro b ⟨_, ⟨m, hm, rfl⟩, hb⟩
      exact (h m hm).2 b hb
    rw [length_cJSONPrint hEmpty, flatMap_printByte hKeys, flatMap_printByte hValues]
    omega

end MonitorSystem.CJson
