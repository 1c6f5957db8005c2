import MonitorSystem.CJson
import MonitorSystem.Lib.Cleanup
import Mathlib.Data.Multiset.AddSub

/-! # The buffer that cJSON parses from

The parser moves an offset through the text and allocates the items and strings
of the value; any allocation may fail, and then and on an error what was
allocated is given back. A read outside of the text, a write outside of a block
and a block that is freed twice are undefined.
-/

namespace MonitorSystem.Parsing

open CJson Lib.CString Lib.Cleanup

/-- The blocks that are live are those that malloc gave and free did not take back. -/
structure ParseBuffer where
  offset : Nat
  requests : Nat
  live : Multiset Nat

abbrev Parser (α : Type) := Step ParseBuffer α

/-- A string in a block of its own. -/
structure Text where
  block : Nat
  bytes : Bytes

/-- What an item is, with the items below it and their blocks. -/
inductive Data
  | null
  | false
  | true
  | number (text : Bytes)
  | string (valuestring : Text)
  | array (child : List (Nat × Data))
  | object (child : List (Nat × Text × Data))

section Memory

variable (grants : Nat → Bool)

def allocate : Parser Nat := fun p =>
  if grants p.requests then
    some (some p.requests, { p with requests := p.requests + 1, live := p.requests ::ₘ p.live })
  else some (none, { p with requests := p.requests + 1 })

def deallocate (block : Nat) : Parser Unit := fun p =>
  if block ∈ p.live then some (some (), { p with live := p.live.erase block }) else none

mutual

/-- What cJSON_Delete does with what an item points to, before it frees the item. -/
def deleteData : Data → Parser Unit
  | .null | .false | .true | .number _ => pure ()
  | .string valuestring => deallocate valuestring.block
  | .array child => deleteElements child
  | .object child => deleteMembers child

def deleteElements : List (Nat × Data) → Parser Unit
  | [] => pure ()
  | (block, data) :: next => do
    deleteData data
    deallocate block
    deleteElements next

def deleteMembers : List (Nat × Text × Data) → Parser Unit
  | [] => pure ()
  | (block, name, data) :: next => do
    deleteData data
    deallocate name.block
    deallocate block
    deleteMembers next

end

def cJSONDelete (item : Nat × Data) : Parser Unit := do
  deleteData item.2
  deallocate item.1

end Memory

section Model

variable (grants : Nat → Bool) (content : Bytes)

def offset : Parser Nat := fun p => some (some p.offset, p)

def moveTo (i : Nat) : Parser Unit := fun p => some (some (), { p with offset := i })

def failAt {α : Type} (i : Nat) : Parser α := do
  moveTo i
  Step.fail

def byteAt (i : Nat) : Parser UInt8 := fun p => content[i]?.map fun b => (some b, p)

def put (capacity : Nat) (output bytes : Bytes) : Parser Bytes :=
  if output.length + bytes.length ≤ capacity then pure (output ++ bytes) else Step.undefined

def parseHex4 (input : Nat) : Nat → Nat → Parser Nat
  | 0, h => pure h
  | more + 1, h => do
    let b ← byteAt content input
    match hexDigit b with
    | some digit => parseHex4 (input + 1) more (if more = 0 then h + digit else (h + digit) <<< 4)
    | none => pure 0

/-- The length of the sequence and the bytes that are written for it. -/
def utf16LiteralToUtf8 (inputPointer inputEnd : Nat) : Parser (Nat × Bytes) :=
  if inputEnd - inputPointer < 6 then failAt inputPointer
  else do
    let firstCode ← parseHex4 content (inputPointer + 2) 4 0
    if 0xDC00 ≤ firstCode ∧ firstCode ≤ 0xDFFF then failAt inputPointer
    else if 0xD800 ≤ firstCode ∧ firstCode ≤ 0xDBFF then
      let secondSequence := inputPointer + 6
      if inputEnd - secondSequence < 6 then failAt inputPointer
      else do
        let b ← byteAt content secondSequence
        if b ≠ backslash then failAt inputPointer
        else do
          let u ← byteAt content (secondSequence + 1)
          if u ≠ 0x75 then failAt inputPointer
          else do
            let secondCode ← parseHex4 content (secondSequence + 2) 4 0
            if secondCode < 0xDC00 ∨ 0xDFFF < secondCode then failAt inputPointer
            else return (12, utf8 (0x10000 + (((firstCode &&& 0x3FF) <<< 10) ||| (secondCode &&& 0x3FF))))
    else return (6, utf8 firstCode)

def unescapeTo (capacity inputEnd : Nat) : Nat → Nat → Bytes → Parser Bytes
  | 0, _, _ => Step.undefined
  | fuel + 1, inputPointer, output =>
    if inputPointer < inputEnd then do
      let b ← byteAt content inputPointer
      if b ≠ backslash then do
        let output ← put capacity output [b]
        unescapeTo capacity inputEnd fuel (inputPointer + 1) output
      else do
        let c ← byteAt content (inputPointer + 1)
        if c = 0x75 then do
          let sequence ← utf16LiteralToUtf8 content inputPointer inputEnd
          let output ← put capacity output sequence.2
          unescapeTo capacity inputEnd fuel (inputPointer + sequence.1) output
        else match unescapeChar c with
          | some c => do
            let output ← put capacity output [c]
            unescapeTo capacity inputEnd fuel (inputPointer + 2) output
          | none => failAt inputPointer
    else pure output

/-- The length of a string up to the quote that ends it, and the bytes skipped in it.
Every read of this loop is guarded. -/
def findEnd : Bytes → Option (Nat × Nat)
  | [] => none
  | b :: rest =>
    if b = quote then some (0, 0)
    else if b = backslash then
      match rest with
      | [] => none
      | _ :: rest => (findEnd rest).map fun r => (r.1 + 2, r.2 + 1)
    else (findEnd rest).map fun r => (r.1 + 1, r.2)

def parseString : Parser Text := do
  let start ← offset
  let b ← byteAt content start
  if b ≠ quote then failAt (start + 1)
  else match findEnd (content.drop (start + 1)) with
    | none => failAt (start + 1)
    | some (length, skippedBytes) => do
      let inputEnd := start + 1 + length
      let allocationLength := inputEnd - start - skippedBytes
      let block ← (allocate grants).onFail (moveTo (start + 1))
      let output ← (unescapeTo content (allocationLength + 1) inputEnd (length + 2) (start + 1) []).onFail
        (deallocate block)
      let _ ← put (allocationLength + 1) output [0]
      moveTo (inputEnd + 1)
      return ⟨block, output⟩

def parseNumber : Parser Data := do
  let start ← offset
  let length := strtodLength (((content.drop start).take 63).takeWhile numberChar)
  if length = 0 then Step.fail
  else do
    moveTo (start + length)
    return .number ((content.drop start).take length)

def skipped (i : Nat) : Nat :=
  if content.length ≤ i then i
  else
    let i := i + ((content.drop i).takeWhile (· ≤ 32)).length
    if i = content.length then i - 1 else i

def bufferSkipWhitespace : Parser Unit := do
  let i ← offset
  moveTo (skipped content i)

def advance : Parser Unit := do
  let i ← offset
  moveTo (i + 1)
  bufferSkipWhitespace content

section Items

variable {α : Type} (item : List α → Nat → Parser α) (delete : List α → Parser Unit) (close : UInt8)

def parseItems : Nat → List α → Parser (List α)
  | 0, _ => Step.undefined
  | fuel + 1, head => do
    let newItem ← (allocate grants).onFail (delete head)
    let current ← item head newItem
    bufferSkipWhitespace content
    let i ← offset
    if content[i]? = some 0x2c then parseItems fuel (head ++ [current])
    else if content[i]? = some close then return head ++ [current]
    else do
      delete (head ++ [current])
      Step.fail

/-- parse_array and parse_object behind the test of the nesting limit. -/
def parseBracket : Parser (List α) := do
  advance content
  let i ← offset
  if content[i]? = some close then do
    moveTo (i + 1)
    return []
  else if content.length ≤ i then failAt (i - 1)
  else do
    moveTo (i - 1)
    let head ← parseItems grants content item delete close content.length []
    let i ← offset
    moveTo (i + 1)
    return head

end Items

def parseElement (value : Parser Data) (head : List (Nat × Data)) (newItem : Nat) : Parser (Nat × Data) := do
  advance content
  let data ← value.onFail do
    deleteElements head
    deallocate newItem
  return (newItem, data)

def deleteNamed (head : List (Nat × Text × Data)) (newItem : Nat) (name : Text) : Parser Unit := do
  deleteMembers head
  deallocate name.block
  deallocate newItem

def parseMember (value : Parser Data) (head : List (Nat × Text × Data)) (newItem : Nat) :
    Parser (Nat × Text × Data) := do
  advance content
  let name ← (parseString grants content).onFail do
    deleteMembers head
    deallocate newItem
  bufferSkipWhitespace content
  let i ← offset
  if content[i]? ≠ some 0x3a then do
    deleteNamed head newItem name
    Step.fail
  else do
    advance content
    let data ← value.onFail (deleteNamed head newItem name)
    return (newItem, name, data)

/-- The first argument is the number of brackets that may still be opened. -/
def parseValue (depth : Nat) : Parser Data := do
  let i ← offset
  if lit "null" <+: content.drop i then do
    moveTo (i + 4)
    return .null
  else if lit "false" <+: content.drop i then do
    moveTo (i + 5)
    return .false
  else if lit "true" <+: content.drop i then do
    moveTo (i + 4)
    return .true
  else match content[i]? with
    | none => Step.fail
    | some b =>
      if b = quote then do
        let valuestring ← parseString grants content
        return .string valuestring
      else if b = 0x2d ∨ CJson.isDigit b then parseNumber content
      else match depth with
        | 0 => Step.fail
        | depth + 1 =>
          if b = 0x5b then do
            let child ← parseBracket grants content (parseElement content (parseValue depth)) deleteElements 0x5d
            return .array child
          else if b = 0x7b then do
            let child ← parseBracket grants content (parseMember grants content (parseValue depth)) deleteMembers 0x7d
            return .object child
          else Step.fail

def skipUtf8Bom : Parser Unit := do
  let i ← offset
  if 4 < content.length - i ∧ [0xEF, 0xBB, 0xBF] <+: content.drop i then moveTo (i + 3) else pure ()

def cJSONParseWithLengthOpts (requireNullTerminated : Bool) : Parser (Nat × Data) :=
  if content.length = 0 then Step.fail
  else do
    let item ← allocate grants
    skipUtf8Bom content
    bufferSkipWhitespace content
    let data ← (parseValue grants content nestingLimit).onFail (deallocate item)
    if requireNullTerminated then do
      bufferSkipWhitespace content
      let i ← offset
      if content[i]? = some 0 then return (item, data)
      else do
        cJSONDelete (item, data)
        Step.fail
    else return (item, data)

/-- Of a C string, which is parsed with its terminator. -/
def cJSONParse (text : Bytes) : Parser (Nat × Data) := cJSONParseWithLengthOpts grants (text ++ [0]) false

end Model

end MonitorSystem.Parsing
