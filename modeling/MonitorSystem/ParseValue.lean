import MonitorSystem.ParseString
import Mathlib.Algebra.Order.Group.Multiset

/-! # Values in the parsed text

Each function of the parser reads what its counterpart on texts reads. What it
has allocated is what the value that it returns points to, and nothing when it
fails. So a value that is parsed and deleted leaves no block behind.
-/

namespace MonitorSystem.Parsing

open CJson Lib.CString Lib.Cleanup

mutual

def value : Data → CJSON
  | .null => .null
  | .false => .false
  | .true => .true
  | .number text => .number text
  | .string valuestring => .string valuestring.bytes
  | .array child => .array (elementValues child)
  | .object child => .object (memberValues child)

def elementValues : List (Nat × Data) → List CJSON
  | [] => []
  | (_, data) :: next => value data :: elementValues next

def memberValues : List (Nat × Text × Data) → List (Bytes × CJSON)
  | [] => []
  | (_, name, data) :: next => (name.bytes, value data) :: memberValues next

end

mutual

def blocks : Data → Multiset Nat
  | .null | .false | .true | .number _ => 0
  | .string valuestring => {valuestring.block}
  | .array child => elementBlocks child
  | .object child => memberBlocks child

def elementBlocks : List (Nat × Data) → Multiset Nat
  | [] => 0
  | (block, data) :: next => block ::ₘ (blocks data + elementBlocks next)

def memberBlocks : List (Nat × Text × Data) → Multiset Nat
  | [] => 0
  | (block, name, data) :: next => block ::ₘ name.block ::ₘ (blocks data + memberBlocks next)

end

def itemBlocks (item : Nat × Data) : Multiset Nat := item.1 ::ₘ blocks item.2

theorem Data.cases_in {P : Data → Prop} (hNull : P .null) (hFalse : P .false) (hTrue : P .true)
    (hNumber : ∀ text, P (.number text)) (hString : ∀ s, P (.string s))
    (hArray : ∀ child, (∀ e ∈ child, P e.2) → P (.array child))
    (hObject : ∀ child, (∀ m ∈ child, P m.2.2) → P (.object child)) (data : Data) : P data := by
  apply @Data.rec P (fun child => ∀ e ∈ child, P e.2) (fun child => ∀ m ∈ child, P m.2.2) (fun e => P e.2)
    (fun m => P m.2.2) (fun m => P m.2) hNull hFalse hTrue hNumber hString hArray hObject
  · intro e he
    cases he
  · intro e next hHead hTail w hw
    obtain rfl | hIn := List.mem_cons.mp hw
    · exact hHead
    · exact hTail w hIn
  · intro m hm
    cases hm
  · intro m next hHead hTail w hw
    obtain rfl | hIn := List.mem_cons.mp hw
    · exact hHead
    · exact hTail w hIn
  · intro _ _ hData
    exact hData
  · intro _ _ hData
    exact hData
  · intro _ _ hData
    exact hData

section Delete

variable {p : ParseBuffer}

theorem elementBlocks_append (head tail : List (Nat × Data)) :
    elementBlocks (head ++ tail) = elementBlocks head + elementBlocks tail := by
  induction head with
  | nil => rw [List.nil_append, elementBlocks, zero_add]
  | cons first head ih => rw [List.cons_append, elementBlocks, elementBlocks, ih, Multiset.cons_add, add_assoc]

theorem memberBlocks_append (head tail : List (Nat × Text × Data)) :
    memberBlocks (head ++ tail) = memberBlocks head + memberBlocks tail := by
  induction head with
  | nil => rw [List.nil_append, memberBlocks, zero_add]
  | cons first head ih =>
    rw [List.cons_append, memberBlocks, memberBlocks, ih, Multiset.cons_add, Multiset.cons_add, add_assoc]

def Deletes (delete : Parser Unit) (owned : Multiset Nat) : Prop :=
  ∀ (p : ParseBuffer) (live : Multiset Nat) (failed : ParseBuffer → Prop), p.live = live + owned →
    delete.Meets p (fun _ q => q.offset = p.offset ∧ q.live = live) failed

theorem deletes_pure : Deletes (pure ()) 0 := by
  intro p live failed hLive
  exact ⟨rfl, by rw [hLive, add_zero]⟩

theorem deletes_deallocate (block : Nat) : Deletes (deallocate block) {block} := by
  intro p live failed hLive
  refine deallocate_spec ?_
  rw [hLive, ← Multiset.singleton_add, add_comm]

theorem Deletes.bind {first next : Parser Unit} {owned owned' : Multiset Nat} (h : Deletes first owned)
    (hNext : Deletes next owned') : Deletes (first >>= fun _ => next) (owned + owned') := by
  intro p live failed hLive
  refine (h p (live + owned') failed ?_).bind ?_
  · rw [hLive, add_assoc, add_comm owned owned']
  · rintro _ q ⟨hOffset, hLive⟩
    refine (hNext q live failed hLive).mono ?_ fun _ h => h
    rintro _ t ⟨hOffset', hLive⟩
    exact ⟨hOffset'.trans hOffset, hLive⟩

theorem deleteElements_spec {child : List (Nat × Data)} (h : ∀ e ∈ child, Deletes (deleteData e.2) (blocks e.2)) :
    Deletes (deleteElements child) (elementBlocks child) := by
  induction child with
  | nil => exact deletes_pure
  | cons e next ih =>
    obtain ⟨block, data⟩ := e
    have hRest := ih fun e he => h e (List.mem_cons_of_mem _ he)
    have hOne := (h _ List.mem_cons_self).bind ((deletes_deallocate block).bind hRest)
    have hBlocks : elementBlocks ((block, data) :: next) = blocks data + ({block} + elementBlocks next) := by
      rw [elementBlocks, Multiset.singleton_add, Multiset.add_cons]
    rw [hBlocks]
    exact hOne

theorem deleteMembers_spec {child : List (Nat × Text × Data)}
    (h : ∀ m ∈ child, Deletes (deleteData m.2.2) (blocks m.2.2)) :
    Deletes (deleteMembers child) (memberBlocks child) := by
  induction child with
  | nil => exact deletes_pure
  | cons m next ih =>
    obtain ⟨block, name, data⟩ := m
    have hRest := ih fun m hm => h m (List.mem_cons_of_mem _ hm)
    have hOne := (h _ List.mem_cons_self).bind ((deletes_deallocate name.block).bind ((deletes_deallocate block).bind hRest))
    have hBlocks : memberBlocks ((block, name, data) :: next) =
        blocks data + ({name.block} + ({block} + memberBlocks next)) := by
      rw [memberBlocks, Multiset.singleton_add, Multiset.singleton_add, Multiset.add_cons, Multiset.add_cons,
        Multiset.cons_swap]
    rw [hBlocks]
    exact hOne

theorem deleteData_spec (data : Data) : Deletes (deleteData data) (blocks data) := by
  induction data using Data.cases_in with
  | hNull => exact deletes_pure
  | hFalse => exact deletes_pure
  | hTrue => exact deletes_pure
  | hNumber text => exact deletes_pure
  | hString s => exact deletes_deallocate s.block
  | hArray child ih => exact deleteElements_spec ih
  | hObject child ih => exact deleteMembers_spec ih

theorem cJSONDelete_spec (item : Nat × Data) : Deletes (cJSONDelete item) (itemBlocks item) := by
  have hItem : itemBlocks item = blocks item.2 + {item.1} := by
    rw [itemBlocks, ← Multiset.singleton_add, add_comm]
  rw [hItem]
  exact (deleteData_spec item.2).bind (deletes_deallocate item.1)

end Delete

section Blanks

variable {content : Bytes} {i : Nat}

theorem drop_last (h : i < content.length) : content.drop (content.length - 1) = (content.drop i).getLast?.toList := by
  have hNonempty : content ≠ [] := List.ne_nil_of_length_pos (by omega)
  rw [List.drop_length_sub_one hNonempty, List.getLast?_drop, if_neg (by omega), List.getLast?_eq_some_getLast hNonempty]
  rfl

theorem skipped_spec (h : i ≤ content.length) :
    content.drop (skipped content i) = CJson.bufferSkipWhitespace (content.drop i) ∧ i ≤ skipped content i ∧
      skipped content i ≤ content.length ∧ (i < content.length → skipped content i < content.length) := by
  rw [skipped, CJson.bufferSkipWhitespace]
  split
  · rename_i hEnd
    have hNil : content.drop i = [] := List.drop_eq_nil_of_le hEnd
    rw [hNil]
    exact ⟨rfl, le_rfl, h, fun hLt => absurd hLt (Nat.not_lt.mpr hEnd)⟩
  · rename_i hInside
    have hSplit := List.takeWhile_append_dropWhile (p := fun b : UInt8 => decide (b ≤ 32)) (l := content.drop i)
    have hBehind : content.drop (i + ((content.drop i).takeWhile (· ≤ 32)).length) =
        (content.drop i).dropWhile (· ≤ 32) := drop_behind hSplit.symm
    have hLength := congrArg List.length hSplit
    rw [List.length_append, List.length_drop] at hLength
    dsimp only
    split
    · rename_i hAll
      have hNil : (content.drop i).dropWhile (· ≤ 32) = [] := by
        rw [← hBehind, hAll, List.drop_length]
      rw [hAll, hNil, drop_last (show i < content.length by omega)]
      exact ⟨rfl, by omega, by omega, fun _ => by omega⟩
    · rename_i hSome
      refine ⟨?_, by omega, by omega, fun _ => by omega⟩
      rw [hBehind]
      split
      · rename_i hNil
        have hEnd := congrArg List.length hNil
        rw [List.length_nil] at hEnd
        omega
      · rfl

theorem getElem?_of_drop {b : UInt8} {rest : Bytes} (h : content.drop i = b :: rest) : content[i]? = some b := by
  rw [← List.head?_drop, h, List.head?_cons]

theorem drop_of_getElem? {b : UInt8} (h : content[i]? = some b) :
    i < content.length ∧ content.drop i = b :: content.drop (i + 1) := by
  obtain ⟨hInside, rfl⟩ := List.getElem?_eq_some_iff.mp h
  exact ⟨hInside, List.drop_eq_getElem_cons hInside⟩

theorem bufferSkipWhitespace_eq (p : ParseBuffer) :
    bufferSkipWhitespace content p = some (some (), { p with offset := skipped content p.offset }) := rfl

theorem advance_eq (p : ParseBuffer) :
    advance content p = some (some (), { p with offset := skipped content (p.offset + 1) }) := rfl

end Blanks

section Items

variable {grants : Nat → Bool} {content : Bytes} {α β : Type} {item : List α → Nat → Parser α}
  {delete : List α → Parser Unit}
  {owned : List α → Multiset Nat} {view : α → β} {parsed : Bytes → Option (β × Bytes)} {close : UInt8} {p : ParseBuffer}
  {live : Multiset Nat}

/-- An item is read behind the position of the offset; what it fails with has been deleted,
with the items before it. -/
def ReadsItem (grants : Nat → Bool) (content : Bytes) (item : List α → Nat → Parser α) (owned : List α → Multiset Nat)
    (view : α → β) (parsed : Bytes → Option (β × Bytes)) : Prop :=
  ∀ (head : List α) (newItem : Nat) (p : ParseBuffer) (live : Multiset Nat), p.offset + 1 < content.length →
    p.live = newItem ::ₘ (live + owned head) → (item head newItem).Meets p
      (fun a => Read content (p.offset + 1) (live + owned (head ++ [a]))
        (parsed (CJson.bufferSkipWhitespace (content.drop (p.offset + 1)))) (view a))
      (Refused grants live (parsed (CJson.bufferSkipWhitespace (content.drop (p.offset + 1)))))

/-- The items that were read, with the offset on the bracket that closes them. -/
structure ReadItems (content : Bytes) (i : Nat) (head : List α) (live : Multiset Nat) (owned : List α → Multiset Nat)
    (view : α → β) (parsed : Option (List β × Bytes)) (xs : List α) (q : ParseBuffer) : Prop where
  forward : i < q.offset
  inside : q.offset < content.length
  live : q.live = live + owned xs
  parsed : ∃ more, xs = head ++ more ∧ parsed = some (more.map view, content.drop (q.offset + 1))

theorem parseItems_spec (hItem : ReadsItem grants content item owned view parsed)
    (hDelete : ∀ head, Deletes (delete head) (owned head)) (hComma : content.getLast? ≠ some 0x2c) {fuel n : Nat}
    {head : List α} (hStart : p.offset + 1 < content.length) (hLive : p.live = live + owned head)
    (hFuel : content.length ≤ p.offset + 1 + fuel) (hList : content.length ≤ p.offset + 1 + n) :
    (parseItems grants content item delete close fuel head).Meets p
      (ReadItems content p.offset head live owned view
        (CJson.parseItems parsed close n (content.drop (p.offset + 1))))
      (Refused grants live (CJson.parseItems parsed close n (content.drop (p.offset + 1)))) := by
  induction fuel generalizing p head n with
  | zero => omega
  | succ fuel ih =>
    obtain ⟨n, rfl⟩ : ∃ m, n = m + 1 := Nat.exists_eq_succ_of_ne_zero (by omega)
    rw [parseItems, CJson.parseItems]
    refine Step.Meets.bind (Step.Meets.onFail allocate_spec ?_) ?_
    · rintro q ⟨hSame, hDenied⟩
      refine (hDelete head q live _ (hSame.trans hLive)).mono ?_ fun _ h => h
      rintro _ t ⟨_, hFreed⟩
      exact ⟨hFreed, .inr hDenied⟩
    rintro newItem q ⟨hOffset, hNew⟩
    rw [← hOffset] at hStart hFuel hList ⊢
    have hRead := hItem head newItem q live hStart (by rw [hNew, hLive])
    refine (hRead.mono (fun _ _ h => h) fun t ht => ht.mono fun hNone => by rw [hNone, Option.bind_none]).bind ?_
    intro a t ht
    obtain ⟨hBlanks, hForward, hInside, _⟩ := skipped_spec ht.inside
    refine Step.Meets.next (bufferSkipWhitespace_eq t) ?_
    refine Step.Meets.next (show offset _ = some (some (skipped content t.offset), _) from rfl) ?_
    have hPast := ht.forward
    have hLeft := ht.live
    rw [ht.parsed, Option.bind_some]
    dsimp only
    rw [← hBlanks]
    split
    · rename_i hByte
      obtain ⟨hAt, hDrop⟩ := drop_of_getElem? hByte
      have hMore : skipped content t.offset + 1 < content.length := by
        have hNotLast : skipped content t.offset ≠ content.length - 1 := by
          intro hEq
          rw [hEq, ← List.getLast?_eq_getElem?] at hByte
          exact hComma hByte
        omega
      rw [hDrop]
      dsimp only
      rw [if_pos rfl]
      have hRest := @ih { t with offset := skipped content t.offset } n (head ++ [a]) hMore hLeft
        (by dsimp only; omega) (by dsimp only; omega)
      refine hRest.mono ?_ fun u hu => hu.mono fun hNone => by rw [hNone, Option.map_none]
      intro xs u hu
      obtain ⟨more, rfl, hParsed⟩ := hu.parsed
      refine ⟨?_, hu.inside, hu.live, a :: more, by rw [List.append_assoc]; rfl, by rw [hParsed, Option.map_some]; rfl⟩
      have := hu.forward
      dsimp only at this
      omega
    rename_i hNoComma
    split
    · rename_i hByte
      obtain ⟨hAt, hDrop⟩ := drop_of_getElem? hByte
      have hDiffer : close ≠ 0x2c := by
        rintro rfl
        exact hNoComma hByte
      rw [hDrop]
      dsimp only
      rw [if_neg hDiffer, if_pos rfl]
      refine Step.Meets.pure ⟨?_, hAt, hLeft, [a], rfl, rfl⟩
      dsimp only
      omega
    · rename_i hNoClose
      refine (hDelete (head ++ [a]) { t with offset := skipped content t.offset } live _ hLeft).bind ?_
      rintro _ u ⟨_, hFreed⟩
      refine Step.Meets.fail ⟨hFreed, .inl ?_⟩
      cases hDrop : content.drop (skipped content t.offset) with
      | nil => rfl
      | cons b rest =>
        have hByte := getElem?_of_drop hDrop
        rw [hByte] at hNoComma hNoClose
        dsimp only
        rw [if_neg (fun hEq => hNoComma (congrArg some hEq)), if_neg (fun hEq => hNoClose (congrArg some hEq))]

theorem parseBracket_spec (hItem : ReadsItem grants content item owned view parsed)
    (hDelete : ∀ head, Deletes (delete head) (owned head)) (hNone : owned [] = 0) (hComma : content.getLast? ≠ some 0x2c)
    (hStart : p.offset < content.length) : (parseBracket grants content item delete close).Meets p
      (fun xs => Read content p.offset (p.live + owned xs)
        (CJson.parseBracket parsed close (content.drop (p.offset + 1))) (xs.map view))
      (Refused grants p.live (CJson.parseBracket parsed close (content.drop (p.offset + 1)))) := by
  obtain ⟨hBlanks, hForward, hInside, _⟩ := skipped_spec (show p.offset + 1 ≤ content.length from hStart)
  rw [parseBracket, CJson.parseBracket, ← hBlanks]
  refine Step.Meets.next (advance_eq p) ?_
  refine Step.Meets.next (show offset _ = some (some (skipped content (p.offset + 1)), _) from rfl) ?_
  split
  · rename_i hByte
    obtain ⟨hAt, hDrop⟩ := drop_of_getElem? hByte
    rw [hDrop]
    dsimp only
    rw [if_pos rfl]
    refine Step.Meets.next (show moveTo _ _ = some (some (), _) from rfl) (Step.Meets.pure ⟨?_, hAt, ?_, rfl⟩)
    · dsimp only
      omega
    · dsimp only
      rw [hNone, add_zero]
  rename_i hNoClose
  split
  · rename_i hEnd
    rw [List.drop_eq_nil_of_le hEnd]
    exact failAt_spec ⟨rfl, .inl rfl⟩
  · rename_i hMore
    obtain ⟨b, rest, hDrop⟩ : ∃ b rest, content.drop (skipped content (p.offset + 1)) = b :: rest :=
      ⟨_, _, List.drop_eq_getElem_cons (Nat.lt_of_not_le hMore)⟩
    have hByte := getElem?_of_drop hDrop
    have hLength : (b :: rest).length = content.length - skipped content (p.offset + 1) := by
      rw [← hDrop, List.length_drop]
    have hBack : skipped content (p.offset + 1) - 1 + 1 = skipped content (p.offset + 1) := by omega
    rw [hByte] at hNoClose
    rw [hDrop]
    dsimp only
    rw [if_neg (fun hEq => hNoClose (congrArg some hEq))]
    refine Step.Meets.next (show moveTo _ _ = some (some (), _) from rfl) ?_
    have hItems := @parseItems_spec grants content α β item delete owned view parsed close
      { p with offset := skipped content (p.offset + 1) - 1 } p.live hItem hDelete hComma content.length
      (b :: rest).length [] (by dsimp only; omega) (by rw [hNone, add_zero]) (by dsimp only; omega) (by dsimp only; omega)
    dsimp only at hItems
    rw [hBack, hDrop] at hItems
    refine hItems.bind ?_
    intro xs q hq
    obtain ⟨more, rfl, hParsed⟩ := hq.parsed
    have hPast := hq.forward
    refine Step.Meets.next (show offset q = some (some q.offset, q) from rfl) ?_
    refine Step.Meets.next (show moveTo _ q = some (some (), _) from rfl) (Step.Meets.pure ⟨?_, hq.inside, hq.live, hParsed⟩)
    dsimp only
    omega

end Items

section Values

variable {grants : Nat → Bool} {content : Bytes} {p : ParseBuffer}

/-- A value is read where its counterpart on texts reads one. -/
def ReadsValue (grants : Nat → Bool) (content : Bytes) (parser : Parser Data) (parsed : Bytes → Option (CJSON × Bytes)) :
    Prop :=
  ∀ p : ParseBuffer, p.offset ≤ content.length → parser.Meets p
    (fun data => Read content p.offset (p.live + blocks data) (parsed (content.drop p.offset)) (value data))
    (Refused grants p.live (parsed (content.drop p.offset)))

theorem elementValues_eq (child : List (Nat × Data)) : elementValues child = child.map fun e => value e.2 := by
  induction child with
  | nil => rfl
  | cons e next ih => rw [elementValues, ih, List.map_cons]

theorem memberValues_eq (child : List (Nat × Text × Data)) :
    memberValues child = child.map fun m => (m.2.1.bytes, value m.2.2) := by
  induction child with
  | nil => rfl
  | cons m next ih => rw [memberValues, ih, List.map_cons]

theorem parseElement_spec {parser : Parser Data} {parsed : Bytes → Option (CJSON × Bytes)}
    (h : ReadsValue grants content parser parsed) :
    ReadsItem grants content (parseElement content parser) elementBlocks (fun e => value e.2) parsed := by
  intro head newItem p live hStart hLive
  obtain ⟨hBlanks, hForward, hInside, _⟩ := skipped_spec hStart.le
  rw [← hBlanks, parseElement]
  refine Step.Meets.next (advance_eq p) ?_
  refine Step.Meets.bind (Step.Meets.onFail (h { p with offset := skipped content (p.offset + 1) } hInside) ?_) ?_
  · intro q hq
    have hHead : q.live = newItem ::ₘ live + elementBlocks head := by
      rw [hq.live, Multiset.cons_add]
      exact hLive
    refine ((deleteElements_spec fun e _ => deleteData_spec e.2) q _ _ hHead).bind ?_
    rintro _ t ⟨_, hItem⟩
    refine (deallocate_spec hItem).mono ?_ fun _ h => h
    rintro _ u ⟨_, hFreed⟩
    exact ⟨hFreed, hq.reason⟩
  · intro data q hq
    refine Step.Meets.pure ⟨hForward.trans_lt hq.forward, hq.inside, ?_, hq.parsed⟩
    rw [hq.live, elementBlocks_append, elementBlocks, elementBlocks, add_zero]
    dsimp only
    rw [hLive, Multiset.cons_add, Multiset.add_cons, Multiset.add_cons, add_assoc]

theorem deleteNamed_spec (head : List (Nat × Text × Data)) (newItem : Nat) (name : Text) :
    Deletes (deleteNamed head newItem name) (name.block ::ₘ newItem ::ₘ memberBlocks head) := by
  have hAll : name.block ::ₘ newItem ::ₘ memberBlocks head = memberBlocks head + ({name.block} + {newItem}) := by
    rw [add_comm, add_assoc, Multiset.singleton_add, Multiset.singleton_add]
  rw [hAll]
  exact (deleteMembers_spec fun m _ => deleteData_spec m.2.2).bind
    ((deletes_deallocate name.block).bind (deletes_deallocate newItem))

theorem parseMember_spec {parser : Parser Data} {parsed : Bytes → Option (CJSON × Bytes)}
    (h : ReadsValue grants content parser parsed) :
    ReadsItem grants content (parseMember grants content parser) memberBlocks
      (fun m => (m.2.1.bytes, value m.2.2)) (CJson.parseMember parsed) := by
  intro head newItem p live hStart hLive
  obtain ⟨hBlanks, hForward, _, hInside⟩ := skipped_spec hStart.le
  have hHead : p.live = newItem ::ₘ live + memberBlocks head := by rw [hLive, Multiset.cons_add]
  rw [← hBlanks, parseMember, CJson.parseMember]
  refine Step.Meets.next (advance_eq p) ?_
  refine Step.Meets.bind (Step.Meets.onFail
    (@parseString_spec grants content { p with offset := skipped content (p.offset + 1) } (hInside hStart)) ?_) ?_
  · intro q hq
    refine ((deleteMembers_spec fun m _ => deleteData_spec m.2.2) q _ _ (hq.live.trans hHead)).bind ?_
    rintro _ t ⟨_, hItem⟩
    refine (deallocate_spec hItem).mono ?_ fun _ h => h
    rintro _ u ⟨_, hFreed⟩
    exact ⟨hFreed, hq.reason.imp_left fun hNone => by rw [hNone, Option.bind_none]⟩
  intro name q hq
  obtain ⟨hBlanks', hForward', hInside', _⟩ := skipped_spec hq.inside
  have hPast := hq.forward
  dsimp only at hPast
  have hName : q.live = live + (name.block ::ₘ newItem ::ₘ memberBlocks head) := by
    rw [hq.live, Multiset.add_cons, Multiset.add_cons]
    dsimp only
    rw [hLive]
  refine Step.Meets.next (bufferSkipWhitespace_eq q) ?_
  refine Step.Meets.next (show offset _ = some (some (skipped content q.offset), _) from rfl) ?_
  rw [hq.parsed, Option.bind_some]
  dsimp only
  rw [← hBlanks']
  split
  · rename_i hNoColon
    refine (deleteNamed_spec head newItem name { q with offset := skipped content q.offset } live _ hName).bind ?_
    rintro _ t ⟨_, hFreed⟩
    refine Step.Meets.fail ⟨hFreed, .inl ?_⟩
    cases hDrop : content.drop (skipped content q.offset) with
    | nil => rfl
    | cons b rest =>
      rw [getElem?_of_drop hDrop] at hNoColon
      exact if_pos fun hEq => hNoColon (congrArg some hEq)
  · rename_i hColon
    obtain ⟨hAt, hDrop⟩ := drop_of_getElem? (not_not.mp hColon)
    obtain ⟨hBlanks'', hForward'', hInside'', _⟩ := skipped_spec (show skipped content q.offset + 1 ≤ content.length from hAt)
    rw [hDrop]
    dsimp only
    rw [if_neg (not_not.mpr rfl), ← hBlanks'']
    refine Step.Meets.next (advance_eq _) ?_
    refine Step.Meets.bind (Step.Meets.onFail
      (h { q with offset := skipped content (skipped content q.offset + 1) } hInside'') ?_) ?_
    · intro t ht
      refine (deleteNamed_spec head newItem name t live _ (ht.live.trans hName)).mono ?_ fun _ h => h
      rintro _ u ⟨_, hFreed⟩
      exact ⟨hFreed, ht.reason.imp_left fun hNone => by rw [hNone, Option.map_none]⟩
    · intro data t ht
      have hPast' := ht.forward
      dsimp only at hPast'
      refine Step.Meets.pure ⟨by omega, ht.inside, ?_, by rw [ht.parsed, Option.map_some]⟩
      rw [ht.live, memberBlocks_append, memberBlocks, memberBlocks, add_zero]
      dsimp only
      rw [hName]
      simp only [Multiset.cons_add, Multiset.add_cons, add_assoc]
      exact Multiset.cons_swap _ _ _

theorem strtodLength_le (s : Bytes) : strtodLength s ≤ s.length := by
  have hTake : ∀ t : Bytes, (t.takeWhile CJson.isDigit).length ≤ t.length := fun t => (List.takeWhile_prefix _).length_le
  have hHead : ∀ t : Bytes, (if t.head? = some 0x2b ∨ t.head? = some 0x2d then 1 else 0) ≤ t.length := by
    intro t
    cases t with
    | nil => exact le_rfl
    | cons b t => split <;> simp
  unfold strtodLength
  extract_lets sign int mantissa exponent
  have hSign : sign ≤ s.length := hHead s
  clear_value sign
  have hInt : int ≤ (s.drop sign).length := hTake _
  rw [List.length_drop] at hInt
  clear_value int
  have hMantissa : sign + mantissa ≤ s.length := by
    have hInner : mantissa ≤ int + (s.drop (sign + int)).length := by
      dsimp only [mantissa]
      split
      · rename_i frac hFrac
        have hDigits := hTake frac
        rw [hFrac, List.length_cons]
        split
        · exact Nat.zero_le _
        · show int + 1 + (frac.takeWhile CJson.isDigit).length ≤ int + (frac.length + 1)
          omega
      · omega
    rw [List.length_drop] at hInner
    omega
  clear_value mantissa
  have hExponent : exponent ≤ (s.drop (sign + mantissa)).length := by
    dsimp only [exponent]
    split
    · rename_i e more hMore
      have hExpSign := hHead more
      rw [hMore, List.length_cons]
      generalize (if more.head? = some 0x2b ∨ more.head? = some 0x2d then 1 else 0) = expSign at *
      have hDigits := hTake (more.drop expSign)
      rw [List.length_drop] at hDigits
      split
      · show 1 + expSign + ((more.drop expSign).takeWhile CJson.isDigit).length ≤ more.length + 1
        omega
      · exact Nat.zero_le _
    · exact Nat.zero_le _
  rw [List.length_drop] at hExponent
  split
  · exact Nat.zero_le _
  · omega

theorem parseNumber_spec : (parseNumber content).Meets p
    (fun data => Read content p.offset (p.live + blocks data) (CJson.parseNumber (content.drop p.offset)) (value data))
    (Refused grants p.live (CJson.parseNumber (content.drop p.offset))) := by
  have hBound := strtodLength_le (((content.drop p.offset).take 63).takeWhile numberChar)
  have hTake := ((List.takeWhile_prefix (l := (content.drop p.offset).take 63) numberChar).length_le).trans
    ((List.take_prefix 63 (content.drop p.offset)).length_le)
  rw [List.length_drop] at hTake
  rw [parseNumber, CJson.parseNumber]
  refine Step.Meets.next (show offset p = some (some p.offset, p) from rfl) ?_
  dsimp only
  split
  · exact Step.Meets.fail ⟨rfl, .inl rfl⟩
  · refine Step.Meets.next (show moveTo _ p = some (some (), _) from rfl) (Step.Meets.pure ⟨?_, ?_, ?_, ?_⟩)
    · dsimp only
      omega
    · dsimp only
      omega
    · exact (add_zero p.live).symm
    · rw [← List.drop_drop]
      rfl

theorem word_spec {word : Bytes} {data : Data} {failed : ParseBuffer → Prop} {length : Nat} (hBlocks : blocks data = 0)
    (hLength : word.length = length + 1) (h : word <+: content.drop p.offset) :
    (do
      moveTo (p.offset + (length + 1))
      return data : Parser Data).Meets p
      (fun d => Read content p.offset (p.live + blocks d)
        (some (value data, (content.drop p.offset).drop (length + 1))) (value d)) failed := by
  have hInside := h.length_le
  rw [List.length_drop] at hInside
  refine Step.Meets.next (show moveTo _ p = some (some (), _) from rfl) (Step.Meets.pure ⟨?_, ?_, ?_, ?_⟩)
  · dsimp only
    omega
  · dsimp only
    omega
  · rw [hBlocks, add_zero]
  · rw [List.drop_drop]

theorem parseValue_step (hComma : content.getLast? ≠ some 0x2c) {depth : Nat}
    (hBelow : ∀ n, depth = n + 1 → ReadsValue grants content (parseValue grants content n) (CJson.parseValue n)) :
    ReadsValue grants content (parseValue grants content depth) (CJson.parseValue depth) := by
  intro p hInside
  rw [parseValue.eq_def, CJson.parseValue.eq_def]
  refine Step.Meets.next (show offset p = some (some p.offset, p) from rfl) ?_
  split
  · exact word_spec rfl rfl ‹_›
  split
  · exact word_spec rfl rfl ‹_›
  split
  · exact word_spec rfl rfl ‹_›
  cases hDrop : content.drop p.offset with
  | nil =>
    have hNone : content[p.offset]? = none := by rw [← List.head?_drop, hDrop, List.head?_nil]
    rw [hNone]
    exact Step.Meets.fail ⟨rfl, .inl rfl⟩
  | cons b rest =>
    have hByte := getElem?_of_drop hDrop
    have hAt := (drop_of_getElem? hByte).1
    have hRest : content.drop (p.offset + 1) = rest := @drop_behind content p.offset [b] _ hDrop
    rw [hByte]
    dsimp only
    split
    · have hRead := @parseString_spec grants content p hAt
      rw [hDrop] at hRead
      refine (hRead.mono (fun _ _ h => h) fun q hq => hq.mono fun hNone => by rw [hNone, Option.map_none]).bind ?_
      intro s q hq
      refine Step.Meets.pure ⟨hq.forward, hq.inside, ?_, by rw [hq.parsed, Option.map_some]; rfl⟩
      rw [hq.live, blocks, add_comm, Multiset.singleton_add]
    split
    · have hRead := @parseNumber_spec grants content p
      rwa [hDrop] at hRead
    cases depth with
    | zero => exact Step.Meets.fail ⟨rfl, .inl rfl⟩
    | succ depth =>
      have hValue := hBelow depth rfl
      dsimp only
      split
      · have hRead := @parseBracket_spec grants content _ _ _ deleteElements _ _ _ 0x5d p (parseElement_spec hValue)
          (fun head => deleteElements_spec fun e _ => deleteData_spec e.2) rfl hComma hAt
        rw [hRest] at hRead
        refine (hRead.mono (fun _ _ h => h) fun q hq => hq.mono fun hNone => by rw [hNone, Option.map_none]).bind ?_
        intro child q hq
        refine Step.Meets.pure ⟨hq.forward, hq.inside, hq.live, ?_⟩
        rw [hq.parsed, Option.map_some, value, elementValues_eq]
      split
      · have hRead := @parseBracket_spec grants content _ _ _ deleteMembers _ _ _ 0x7d p (parseMember_spec hValue)
          (fun head => deleteMembers_spec fun m _ => deleteData_spec m.2.2) rfl hComma hAt
        rw [hRest] at hRead
        refine (hRead.mono (fun _ _ h => h) fun q hq => hq.mono fun hNone => by rw [hNone, Option.map_none]).bind ?_
        intro child q hq
        refine Step.Meets.pure ⟨hq.forward, hq.inside, hq.live, ?_⟩
        rw [hq.parsed, Option.map_some, value, memberValues_eq]
      · exact Step.Meets.fail ⟨rfl, .inl rfl⟩

theorem parseValue_spec (hComma : content.getLast? ≠ some 0x2c) (depth : Nat) :
    ReadsValue grants content (parseValue grants content depth) (CJson.parseValue depth) := by
  induction depth with
  | zero => exact parseValue_step hComma nofun
  | succ depth ih =>
    apply parseValue_step hComma
    intro n hEq
    cases hEq
    exact ih

end Values

section Texts

/-- What the text is parsed as; behind the value there may have to be a NUL. -/
def parsedText (content : Bytes) (requireNullTerminated : Bool) : Option CJSON :=
  (CJson.parseValue nestingLimit (CJson.bufferSkipWhitespace (CJson.skipUtf8Bom content))).bind fun r =>
    if requireNullTerminated ∧ (CJson.bufferSkipWhitespace r.2).head? ≠ some 0 then none else some r.1

variable {grants : Nat → Bool} {content : Bytes} {p : ParseBuffer}

theorem skipUtf8Bom_spec (hStart : p.offset = 0) : ∃ i, skipUtf8Bom content p = some (some (), { p with offset := i }) ∧
    i ≤ content.length ∧ content.drop i = CJson.skipUtf8Bom content := by
  have hZero : content.drop 0 = content := rfl
  rw [CJson.skipUtf8Bom, skipUtf8Bom, Step.bind_of_some (show offset p = some (some p.offset, p) from rfl), hStart, hZero,
    Nat.sub_zero]
  split
  · rename_i hBom
    exact ⟨3, rfl, by omega, rfl⟩
  · refine ⟨0, ?_, Nat.zero_le _, rfl⟩
    rw [← hStart]
    rfl

theorem cJSONParseWithLengthOpts_spec (grants : Nat → Bool) {content : Bytes} (requireNullTerminated : Bool)
    (hComma : content.getLast? ≠ some 0x2c) {p : ParseBuffer} (hStart : p.offset = 0) :
    (cJSONParseWithLengthOpts grants content requireNullTerminated).Meets p
      (fun item q => parsedText content requireNullTerminated = some (value item.2) ∧ q.live = p.live + itemBlocks item)
      (Refused grants p.live (parsedText content requireNullTerminated)) := by
  rw [cJSONParseWithLengthOpts]
  split
  · rename_i hEmpty
    rw [List.eq_nil_of_length_eq_zero hEmpty]
    exact Step.Meets.fail ⟨rfl, .inl rfl⟩
  refine (allocate_spec.mono (fun _ _ h => h) fun q hq => ⟨hq.1, .inr hq.2⟩).bind ?_
  rintro item q ⟨hOffset, hItem⟩
  obtain ⟨i, hBom, hInside, hDrop⟩ := @skipUtf8Bom_spec content q (hOffset.trans hStart)
  obtain ⟨hBlanks, _, hInside', _⟩ := skipped_spec hInside
  refine Step.Meets.next hBom ?_
  refine Step.Meets.next (bufferSkipWhitespace_eq _) ?_
  have hRead := @parseValue_spec grants _ hComma nestingLimit { q with offset := skipped content i } hInside'
  rw [parsedText, ← hDrop, ← hBlanks]
  refine Step.Meets.bind (Step.Meets.onFail hRead ?_) ?_
  · intro t ht
    refine (deallocate_spec (ht.live.trans hItem)).mono ?_ fun _ h => h
    rintro _ u ⟨_, hFreed⟩
    exact ⟨hFreed, ht.reason.imp_left fun hNone => by rw [hNone, Option.bind_none]⟩
  intro data t ht
  have hLive : t.live = p.live + itemBlocks (item, data) := by
    rw [ht.live]
    dsimp only
    rw [hItem, itemBlocks, Multiset.cons_add, Multiset.add_cons]
  rw [ht.parsed, Option.bind_some]
  cases requireNullTerminated with
  | false => exact Step.Meets.pure ⟨if_neg (fun h => Bool.false_ne_true h.1), hLive⟩
  | true =>
    obtain ⟨hBlanks', _, _, _⟩ := skipped_spec ht.inside
    rw [if_pos rfl]
    refine Step.Meets.next (bufferSkipWhitespace_eq t) ?_
    refine Step.Meets.next (show offset _ = some (some (skipped content t.offset), _) from rfl) ?_
    dsimp only
    rw [← hBlanks', List.head?_drop]
    split
    · rename_i hNul
      exact Step.Meets.pure ⟨if_neg (fun h => h.2 hNul), hLive⟩
    · rename_i hNoNul
      refine (cJSONDelete_spec (item, data) { t with offset := skipped content t.offset } p.live _ hLive).bind ?_
      rintro _ u ⟨_, hFreed⟩
      exact Step.Meets.fail ⟨hFreed, .inl (if_pos ⟨rfl, hNoNul⟩)⟩

theorem pair_parsed : ∃ item q, cJSONParseWithLengthOpts (fun _ => true) (lit "[1, 2]") false ⟨0, 0, 0⟩ =
    some (some item, q) ∧ q.live = itemBlocks item := by
  have hRun : (cJSONParseWithLengthOpts (fun _ => true) (lit "[1, 2]") false ⟨0, 0, 0⟩).map (fun r => r.1.isSome) =
      some true := by decide +kernel
  obtain ⟨⟨result, q⟩, hRun, hSome⟩ := Option.map_eq_some_iff.mp hRun
  obtain ⟨item, rfl⟩ := Option.isSome_iff_exists.mp hSome
  have hParse := cJSONParseWithLengthOpts_spec (fun _ => true) false
    (show (lit "[1, 2]").getLast? ≠ some 0x2c by decide) (show (ParseBuffer.mk 0 0 0).offset = 0 from rfl)
  obtain ⟨_, hLive⟩ := hParse.of_some hRun
  exact ⟨item, q, hRun, hLive.trans (zero_add _)⟩

/-- Behind a comma at its end a name is looked for outside of the text. -/
example : cJSONParseWithLengthOpts (fun _ => true) (lit "\x7b\"1\":1,") false ⟨0, 0, 0⟩ = none := by decide +kernel

theorem parsedText_cString (text : Bytes) : parsedText (text ++ [0]) false = CJson.cJSONParse text := by
  rw [parsedText, CJson.cJSONParse]
  cases CJson.parseValue nestingLimit (CJson.bufferSkipWhitespace (CJson.skipUtf8Bom (text ++ [0]))) with
  | none => rfl
  | some r =>
    rw [Option.bind_some, if_neg]
    · rfl
    · rintro ⟨hFalse, _⟩
      cases hFalse

theorem cJSONParse_spec (grants : Nat → Bool) (text : Bytes) {p : ParseBuffer} (hStart : p.offset = 0) :
    (cJSONParse grants text).Meets p
      (fun item q => CJson.cJSONParse text = some (value item.2) ∧ q.live = p.live + itemBlocks item)
      (Refused grants p.live (CJson.cJSONParse text)) := by
  have hComma : (text ++ [0]).getLast? ≠ some 0x2c := by
    rw [List.getLast?_concat]
    decide
  have hParse := cJSONParseWithLengthOpts_spec grants false hComma hStart
  rwa [parsedText_cString] at hParse

theorem parse_delete (grants : Nat → Bool) (text : Bytes) (requests : Nat) (live : Multiset Nat) :
    (do
      let item ← cJSONParse grants text
      cJSONDelete item : Parser Unit).Meets ⟨0, requests, live⟩
      (fun _ q => q.live = live ∧ (CJson.cJSONParse text).isSome) (Refused grants live (CJson.cJSONParse text)) := by
  refine (cJSONParse_spec grants text rfl).bind ?_
  rintro item q ⟨hText, hLive⟩
  refine (cJSONDelete_spec item q live _ hLive).mono ?_ fun _ h => h
  rintro _ t ⟨_, hFreed⟩
  exact ⟨hFreed, by rw [hText]; rfl⟩

end Texts

end MonitorSystem.Parsing
