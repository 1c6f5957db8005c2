import MonitorSystem.Lib.Blocks
import MonitorSystem.Lib.Stdio
import MonitorSystem.Report
import Mathlib.Data.List.Perm.Subperm

/-! # Replaying a persistence file

do_with_file collects msg_lines results of fgets in an array that it never
clears before the first record, sends them as one message, and empties the
file whatever became of the messages.
-/

namespace MonitorSystem.SendFile

open Msg Report Lib.Blocks Lib.CString Lib.Stdio

def memLines : Nat := 7
def cpuLines : Nat := 9
def diskLines : Nat := 7
def sysLines : Nat := 17

def linesOf : Kind → Nat
  | .mem => memLines
  | .cpu => cpuLines
  | .disk => diskLines
  | .sys => sysLines

structure Replayed where
  text : Bytes
  accepted : Bool
deriving DecidableEq

/-- The loop of do_with_file over the results of fgets. strncat copies the C
string in the line; none where it runs past the end of temp. -/
def loop (msgLines : Nat) (send : Nat → Bool) :
    List Bytes → Nat → Bytes → List Replayed → Option (List Replayed)
  | [], _, _, sent => some sent
  | a :: rest, lines, temp, sent =>
    let temp := temp ++ cstr a
    if msgBuffSize ≤ temp.length then none
    else if lines - 1 = 0 then
      if temp = [] then some sent
      else loop msgLines send rest msgLines [] (sent ++ [⟨temp, send sent.length⟩])
    else loop msgLines send rest (lines - 1) temp sent

structure Replay where
  sent : List Replayed
  file : Bytes

/-- temp is what the array holds before the loop; the file is empty afterwards. -/
def doWithFile (msgLines : Nat) (send : Nat → Bool) (temp file : Bytes) : Option Replay :=
  (loop msgLines send (fgetsLines msgBuffSize file) msgLines (cstr temp) []).map fun sent => ⟨sent, []⟩

def texts (msgLines : Nat) (lines : List Bytes) : List Bytes :=
  (blocks msgLines lines).map fun block => block.flatMap cstr

def records (msgLines : Nat) (file : Bytes) : List Bytes := texts msgLines (fgetsLines msgBuffSize file)

def Replay.accepted (r : Replay) : List Bytes := (r.sent.filter Replayed.accepted).map Replayed.text

/-- do_with_file returns, and every complete record was accepted or is still in the file. -/
def LosesNothing (msgLines : Nat) (send : Nat → Bool) (temp file : Bytes) : Prop :=
  ∃ r, doWithFile msgLines send temp file = some r ∧
    (records msgLines file).Subperm (r.accepted ++ records msgLines r.file)

def Fits (msgLines : Nat) (temp : Bytes) (lines : List Bytes) : Prop :=
  ∀ i, i * msgLines < lines.length →
    ((if i = 0 then temp else []) ++ ((lines.drop (i * msgLines)).take msgLines).flatMap cstr).length <
      msgBuffSize

def withTemp (temp : Bytes) : List Bytes → List Bytes
  | [] => []
  | record :: next => (temp ++ record) :: next

theorem length_append_mono {temp piece text : Bytes} (h : msgBuffSize ≤ (temp ++ piece).length) :
    msgBuffSize ≤ (temp ++ (piece ++ text)).length := by
  rw [← List.append_assoc, List.length_append]
  exact Nat.le_add_right_of_le h

theorem loop_block {msgLines lines : Nat} {send : Nat → Bool} {temp : Bytes} {sent : List Replayed}
    {block : List Bytes} (hLines : 0 < lines) (hBlock : block.length = lines) (rest : List Bytes) :
    loop msgLines send (block ++ rest) lines temp sent =
      if msgBuffSize ≤ (temp ++ block.flatMap cstr).length then none
      else if temp ++ block.flatMap cstr = [] then some sent
      else loop msgLines send rest msgLines []
        (sent ++ [⟨temp ++ block.flatMap cstr, send sent.length⟩]) := by
  induction block generalizing lines temp with
  | nil =>
    rw [List.length_nil] at hBlock
    omega
  | cons a block ih =>
    rw [List.length_cons] at hBlock
    rw [List.cons_append, loop, List.flatMap_cons]
    cases block with
    | nil =>
      rw [List.length_nil] at hBlock
      simp [← hBlock]
    | cons b block =>
      have hMore : lines - 1 ≠ 0 := by
        rw [List.length_cons] at hBlock
        omega
      have hRest := @ih (lines - 1) (temp ++ cstr a) (by omega) (by omega)
      simp only [if_neg hMore]
      split
      · rename_i hFull
        rw [if_pos (length_append_mono hFull)]
      · rw [hRest, List.append_assoc]

theorem loop_short {msgLines lines : Nat} {send : Nat → Bool} {temp : Bytes} {sent : List Replayed}
    {rest : List Bytes} (hShort : rest.length < lines) :
    loop msgLines send rest lines temp sent =
      if rest ≠ [] ∧ msgBuffSize ≤ (temp ++ rest.flatMap cstr).length then none else some sent := by
  induction rest generalizing lines temp with
  | nil => simp [loop]
  | cons a rest ih =>
    rw [List.length_cons] at hShort
    have hMore : lines - 1 ≠ 0 := by omega
    have hRest := @ih (lines - 1) (temp ++ cstr a) (by omega)
    rw [loop, List.flatMap_cons]
    simp only [if_neg hMore, ne_eq, List.cons_ne_nil, not_false_eq_true, true_and]
    split
    · rename_i hFull
      rw [if_pos (length_append_mono hFull)]
    · rename_i hRoom
      rw [hRest]
      cases rest with
      | nil => simpa using hRoom
      | cons b rest => simp [List.append_assoc]

theorem fits_append {msgLines : Nat} (hLines : 0 < msgLines) {temp : Bytes} {block : List Bytes}
    (hBlock : block.length = msgLines) (rest : List Bytes) :
    Fits msgLines temp (block ++ rest) ↔
      (temp ++ block.flatMap cstr).length < msgBuffSize ∧ Fits msgLines [] rest := by
  have hSucc : ∀ i, (i + 1) * msgLines < (block ++ rest).length ↔ i * msgLines < rest.length := by
    intro i
    rw [List.length_append, hBlock, Nat.succ_mul]
    omega
  have hDrop : ∀ i, (block ++ rest).drop ((i + 1) * msgLines) = rest.drop (i * msgLines) := by
    intro i
    rw [Nat.succ_mul, Nat.add_comm, ← List.drop_drop, List.drop_left' hBlock]
  constructor
  · intro h
    constructor
    · have hFirst := h 0 (by rw [List.length_append]; omega)
      simpa [List.take_left' hBlock] using hFirst
    · intro i hi
      have hNext := h (i + 1) ((hSucc i).mpr hi)
      simpa [hDrop i] using hNext
  · rintro ⟨hFirst, hNext⟩ i hi
    cases i with
    | zero => simpa [List.take_left' hBlock] using hFirst
    | succ i => simpa [hDrop i] using hNext i ((hSucc i).mp hi)

theorem fits_short {msgLines : Nat} {temp : Bytes} {rest : List Bytes} (hShort : rest.length < msgLines) :
    Fits msgLines temp rest ↔ rest = [] ∨ (temp ++ rest.flatMap cstr).length < msgBuffSize := by
  constructor
  · intro h
    cases rest with
    | nil => exact .inl rfl
    | cons a rest =>
      have hFirst := h 0 (by simp)
      rw [if_pos rfl, Nat.zero_mul, List.drop_zero, List.take_of_length_le hShort.le] at hFirst
      exact .inr hFirst
  · rintro (rfl | hRoom) i hi
    · exact absurd hi (Nat.not_lt_zero _)
    · cases i with
      | zero => simpa [List.take_of_length_le hShort.le] using hRoom
      | succ i =>
        rw [Nat.succ_mul] at hi
        omega

/-- What a replay that returns has sent: a beginning of the collected texts, none
of them empty; it sent them all only if all of them fit the array. -/
structure SentFrom (msgLines : Nat) (send : Nat → Bool) (temp : Bytes) (lines : List Bytes) (start : Nat)
    (more : List Replayed) : Prop where
  texts : more.map Replayed.text <+: withTemp temp (texts msgLines lines)
  nonempty : ∀ m ∈ more, m.text ≠ []
  flags : ∀ i m, more[i]? = some m → m.accepted = send (start + i)
  fits : more.length = (SendFile.texts msgLines lines).length → Fits msgLines temp lines

theorem texts_append {msgLines : Nat} (hLines : 0 < msgLines) {block : List Bytes}
    (hBlock : block.length = msgLines) (rest : List Bytes) :
    texts msgLines (block ++ rest) = block.flatMap cstr :: texts msgLines rest := by
  rw [texts, blocks_append hLines hBlock, List.map_cons]
  rfl

theorem texts_short {msgLines : Nat} {rest : List Bytes} (hShort : rest.length < msgLines) :
    texts msgLines rest = [] := by
  rw [texts, blocks_of_lt hShort]
  rfl

@[simp] theorem withTemp_nil (list : List Bytes) : withTemp [] list = list := by
  cases list <;> rfl

theorem loop_some {msgLines : Nat} (hLines : 0 < msgLines) {send : Nat → Bool} {temp : Bytes}
    {lines : List Bytes} {sent out : List Replayed}
    (h : loop msgLines send lines msgLines temp sent = some out) :
    ∃ more, out = sent ++ more ∧ SentFrom msgLines send temp lines sent.length more := by
  induction lines using blockInduction hLines generalizing temp sent with
  | short rest hShort =>
    rw [loop_short hShort] at h
    obtain ⟨hRoom, hEq⟩ := Option.ite_none_left_eq_some.mp h
    refine ⟨[], ?_, ?_, ?_, ?_, ?_⟩
    · rw [List.append_nil, Option.some.inj hEq]
    · exact List.nil_prefix
    · intro m hm
      cases hm
    · intro i m hm
      cases hm
    · intro _
      rw [fits_short hShort]
      rw [not_and_or, not_not, not_le] at hRoom
      exact hRoom
  | step block rest hBlock ih =>
    rw [loop_block hLines hBlock] at h
    obtain ⟨hRoom, h⟩ := Option.ite_none_left_eq_some.mp h
    rw [not_le] at hRoom
    split at h
    · refine ⟨[], ?_, ?_, ?_, ?_, ?_⟩
      · rw [List.append_nil, Option.some.inj h]
      · exact List.nil_prefix
      · intro m hm
        cases hm
      · intro i m hm
        cases hm
      · intro hLength
        rw [texts_append hLines hBlock] at hLength
        cases hLength
    · rename_i hText
      obtain ⟨more, hOut, hMore⟩ := ih h
      refine ⟨⟨temp ++ block.flatMap cstr, send sent.length⟩ :: more, ?_, ?_, ?_, ?_, ?_⟩
      · rw [hOut, List.append_assoc]
        rfl
      · rw [texts_append hLines hBlock, withTemp, List.map_cons, List.prefix_cons_inj]
        have hTexts := hMore.texts
        rwa [withTemp_nil] at hTexts
      · rintro m hm
        obtain rfl | hm := List.mem_cons.mp hm
        · exact hText
        · exact hMore.nonempty m hm
      · intro i m hm
        cases i with
        | zero =>
          cases hm
          rfl
        | succ i =>
          have hFlag := hMore.flags i m hm
          rwa [List.length_append, List.length_singleton, Nat.add_assoc, Nat.add_comm 1 i] at hFlag
      · intro hLength
        rw [texts_append hLines hBlock, List.length_cons, List.length_cons, Nat.add_right_cancel_iff] at hLength
        rw [fits_append hLines hBlock]
        exact ⟨hRoom, hMore.fits hLength⟩

theorem loop_fits {msgLines : Nat} (hLines : 0 < msgLines) {send : Nat → Bool} {temp : Bytes}
    {lines : List Bytes} {sent : List Replayed} (hFits : Fits msgLines temp lines)
    (hNonempty : [] ∉ withTemp temp (texts msgLines lines)) :
    ∃ more, loop msgLines send lines msgLines temp sent = some (sent ++ more) ∧
      more.map Replayed.text = withTemp temp (texts msgLines lines) := by
  induction lines using blockInduction hLines generalizing temp sent with
  | short rest hShort =>
    rw [fits_short hShort] at hFits
    refine ⟨[], ?_, ?_⟩
    · rw [loop_short hShort, if_neg, List.append_nil]
      rw [not_and_or, not_not, not_le]
      exact hFits
    · rw [texts_short hShort]
      rfl
  | step block rest hBlock ih =>
    rw [fits_append hLines hBlock] at hFits
    rw [texts_append hLines hBlock, withTemp, List.mem_cons, not_or] at hNonempty
    obtain ⟨more, hLoop, hTexts⟩ :=
      @ih [] (sent ++ [⟨temp ++ block.flatMap cstr, send sent.length⟩]) hFits.2
        (by simpa using hNonempty.2)
    refine ⟨⟨temp ++ block.flatMap cstr, send sent.length⟩ :: more, ?_, ?_⟩
    · rw [loop_block hLines hBlock, if_neg (not_le.mpr hFits.1), if_neg (Ne.symm hNonempty.1), hLoop,
        List.append_assoc]
      rfl
    · rw [texts_append hLines hBlock, withTemp, List.map_cons, hTexts, withTemp_nil]

theorem length_withTemp (temp : Bytes) (list : List Bytes) : (withTemp temp list).length = list.length := by
  cases list <;> rfl

theorem SentFrom.whole {msgLines start : Nat} {send : Nat → Bool} {temp : Bytes} {lines : List Bytes}
    {more : List Replayed} (h : SentFrom msgLines send temp lines start more)
    (hCovers : (SendFile.texts msgLines lines).length ≤ (more.filter Replayed.accepted).length) :
    more.map Replayed.text = withTemp temp (SendFile.texts msgLines lines) ∧ ∀ m ∈ more, m.accepted = true := by
  have hAtMost := h.texts.length_le
  have hFilter := List.length_filter_le Replayed.accepted more
  rw [List.length_map, length_withTemp] at hAtMost
  constructor
  · apply h.texts.eq_of_length
    rw [List.length_map, length_withTemp]
    exact le_antisymm hAtMost (hCovers.trans hFilter)
  · exact List.length_filter_eq_length_iff.mp (le_antisymm hFilter (hAtMost.trans hCovers))

theorem SentFrom.all_accepted {msgLines start : Nat} {send : Nat → Bool} {temp : Bytes} {lines : List Bytes}
    {more : List Replayed} (h : SentFrom msgLines send temp lines start more)
    (hSend : ∀ i < more.length, send (start + i) = true) : ∀ m ∈ more, m.accepted = true := by
  intro m hm
  obtain ⟨i, hi⟩ := List.getElem?_of_mem hm
  rw [h.flags i m hi]
  exact hSend i (List.getElem?_eq_some_iff.mp hi).1

theorem mem_nil_withTemp {temp : Bytes} {list : List Bytes} (h : list = [] ∨ (temp = [] ∧ [] ∉ list)) :
    [] ∉ withTemp temp list := by
  obtain rfl | ⟨rfl, hNot⟩ := h
  · exact List.not_mem_nil
  · rwa [withTemp_nil]

theorem temp_of_perm {temp record : Bytes} {next : List Bytes}
    (h : (record :: next).Perm ((temp ++ record) :: next)) : temp = [] := by
  have hLength := h.flatten.length_eq
  simp only [List.flatten_cons, List.length_append] at hLength
  exact List.length_eq_zero_iff.mp (by omega)

theorem doWithFile_eq_some {msgLines : Nat} {send : Nat → Bool} {temp file : Bytes} {r : Replay} :
    doWithFile msgLines send temp file = some r ↔ r.file = [] ∧
      loop msgLines send (fgetsLines msgBuffSize file) msgLines (cstr temp) [] = some r.sent := by
  rw [doWithFile, Option.map_eq_some_iff]
  constructor
  · rintro ⟨sent, hLoop, rfl⟩
    exact ⟨rfl, hLoop⟩
  · rintro ⟨hFile, hLoop⟩
    refine ⟨r.sent, hLoop, ?_⟩
    rw [← hFile]

theorem records_nil {msgLines : Nat} (hLines : 0 < msgLines) : records msgLines [] = [] :=
  texts_short hLines

/-- do_with_file returns without losing a record exactly when temp never
overflows and either there is no complete record, or temp held no text at
first, no record is empty, and every send succeeded. -/
theorem losesNothing_iff {msgLines : Nat} (hLines : 0 < msgLines) (send : Nat → Bool) (temp file : Bytes) :
    LosesNothing msgLines send temp file ↔
      Fits msgLines (cstr temp) (fgetsLines msgBuffSize file) ∧
      (records msgLines file = [] ∨ (cstr temp = [] ∧ [] ∉ records msgLines file ∧
        ∀ i < (records msgLines file).length, send i = true)) := by
  constructor
  · rintro ⟨r, hReturn, hSub⟩
    obtain ⟨hFile, hLoop⟩ := doWithFile_eq_some.mp hReturn
    obtain ⟨more, hSent, hMore⟩ := loop_some hLines hLoop
    rw [List.nil_append] at hSent
    rw [hFile, records_nil hLines, List.append_nil, Replay.accepted, hSent] at hSub
    have hCovers := hSub.length_le
    rw [List.length_map] at hCovers
    obtain ⟨hTexts, hAll⟩ : more.map Replayed.text = withTemp (cstr temp) (records msgLines file) ∧
        ∀ m ∈ more, m.accepted = true := hMore.whole hCovers
    have hCount := congrArg List.length hTexts
    rw [List.length_map, length_withTemp] at hCount
    refine ⟨hMore.fits hCount, ?_⟩
    rw [List.filter_eq_self.mpr hAll, hTexts] at hSub
    cases hRecords : records msgLines file with
    | nil => exact .inl rfl
    | cons record next =>
      rw [hRecords] at hSub hTexts hCount
      have hTemp : cstr temp = [] := temp_of_perm (hSub.perm_of_length_le le_rfl)
      rw [hTemp, withTemp_nil] at hTexts
      refine .inr ⟨hTemp, ?_, ?_⟩
      · rw [← hTexts]
        intro hEmpty
        obtain ⟨m, hm, hText⟩ := List.mem_map.mp hEmpty
        exact hMore.nonempty m hm hText
      · intro i hi
        rw [← hCount] at hi
        have hFlag := hMore.flags i _ (List.getElem?_eq_getElem hi)
        rw [List.length_nil, Nat.zero_add] at hFlag
        rw [← hFlag]
        exact hAll _ (List.getElem_mem hi)
  · rintro ⟨hFits, hCase⟩
    have hNonempty : [] ∉ withTemp (cstr temp) (records msgLines file) :=
      mem_nil_withTemp (hCase.imp id fun h => ⟨h.1, h.2.1⟩)
    obtain ⟨more, hLoop, hTexts⟩ := @loop_fits msgLines hLines send (cstr temp) _ [] hFits hNonempty
    refine ⟨⟨more, []⟩, doWithFile_eq_some.mpr ⟨rfl, hLoop⟩, ?_⟩
    obtain hNone | ⟨hTemp, _, hSend⟩ := hCase
    · rw [hNone]
      exact List.nil_subperm
    · obtain ⟨more', hEq, hMore⟩ := loop_some hLines hLoop
      rw [List.nil_append, List.nil_append] at hEq
      subst hEq
      have hCount := congrArg List.length hTexts
      rw [List.length_map, length_withTemp] at hCount
      have hAll := hMore.all_accepted fun i hi => by
        rw [List.length_nil, Nat.zero_add]
        exact hSend i (hCount ▸ hi)
      rw [Replay.accepted, List.filter_eq_self.mpr hAll, hTexts, hTemp, withTemp_nil]
      exact (List.prefix_append _ _).sublist.subperm

/-- temp holds every text up to the first empty one, at which the loop stops,
and else also the lines behind the last record. -/
def Room (behind : List Bytes) : Bytes → List Bytes → Prop
  | temp, [] => behind = [] ∨ (temp ++ behind.flatMap cstr).length < msgBuffSize
  | temp, text :: texts =>
    temp ++ text = [] ∨ ((temp ++ text).length < msgBuffSize ∧ Room behind [] texts)

instance decidableRoom (behind : List Bytes) : ∀ temp texts, Decidable (Room behind temp texts)
  | temp, [] => inferInstanceAs (Decidable (behind = [] ∨ (temp ++ behind.flatMap cstr).length < msgBuffSize))
  | temp, text :: texts =>
    have := decidableRoom behind [] texts
    inferInstanceAs (Decidable (temp ++ text = [] ∨ ((temp ++ text).length < msgBuffSize ∧ Room behind [] texts)))

def toSend (temp : Bytes) (texts : List Bytes) : List Bytes := (withTemp temp texts).takeWhile (· ≠ [])

theorem loop_room {msgLines : Nat} (hLines : 0 < msgLines) {send : Nat → Bool} {temp : Bytes}
    {lines : List Bytes} {sent : List Replayed}
    (hRoom : Room (remainder msgLines lines) temp (texts msgLines lines)) :
    ∃ more, loop msgLines send lines msgLines temp sent = some (sent ++ more) ∧
      more.map Replayed.text = toSend temp (texts msgLines lines) := by
  induction lines using blockInduction hLines generalizing temp sent with
  | short rest hShort =>
    rw [texts_short hShort, remainder_of_lt hShort, Room] at hRoom
    refine ⟨[], ?_, ?_⟩
    · rw [loop_short hShort, if_neg, List.append_nil]
      rwa [not_and_or, not_not, not_le]
    · rw [texts_short hShort]
      rfl
  | step block rest hBlock ih =>
    rw [texts_append hLines hBlock, remainder_append hLines hBlock, Room] at hRoom
    rw [texts_append hLines hBlock, toSend, withTemp]
    by_cases hText : temp ++ block.flatMap cstr = []
    · refine ⟨[], ?_, ?_⟩
      · rw [loop_block hLines hBlock, if_pos hText, hText, List.append_nil]
        rfl
      · rw [hText]
        rfl
    · obtain ⟨hFits, hNext⟩ := hRoom.resolve_left hText
      obtain ⟨more, hLoop, hTexts⟩ := @ih [] (sent ++ [⟨temp ++ block.flatMap cstr, send sent.length⟩]) hNext
      refine ⟨⟨temp ++ block.flatMap cstr, send sent.length⟩ :: more, ?_, ?_⟩
      · rw [loop_block hLines hBlock, if_neg (not_le.mpr hFits), if_neg hText, hLoop, List.append_assoc]
        rfl
      · rw [toSend, withTemp_nil] at hTexts
        rw [List.map_cons, hTexts, List.takeWhile_cons, if_pos (decide_eq_true hText)]

theorem room_of_loop {msgLines : Nat} (hLines : 0 < msgLines) {send : Nat → Bool} {temp : Bytes}
    {lines : List Bytes} {sent out : List Replayed}
    (h : loop msgLines send lines msgLines temp sent = some out) :
    Room (remainder msgLines lines) temp (texts msgLines lines) := by
  induction lines using blockInduction hLines generalizing temp sent with
  | short rest hShort =>
    rw [loop_short hShort] at h
    obtain ⟨hRoom, _⟩ := Option.ite_none_left_eq_some.mp h
    rw [texts_short hShort, remainder_of_lt hShort, Room]
    rwa [not_and_or, not_not, not_le] at hRoom
  | step block rest hBlock ih =>
    rw [texts_append hLines hBlock, remainder_append hLines hBlock, Room]
    rw [loop_block hLines hBlock] at h
    obtain ⟨hRoom, h⟩ := Option.ite_none_left_eq_some.mp h
    split at h
    · rename_i hText
      exact .inl hText
    · exact .inr ⟨not_le.mp hRoom, ih h⟩

def savedReport : Bytes :=
  CJson.cJSONPrint (Kind.mem.columns.zip
    [lit "2021-12-13 10:00:00", lit "15", lit "4", lit "27", lit "30"]) ++ lit "\n"

/-- The connection breaks again and the only send of the replay fails. -/
theorem record_lost : ¬ ∀ (msgLines : Nat) (send : Nat → Bool) (temp file : Bytes), 0 < msgLines →
    LosesNothing msgLines send temp file := by
  intro hAll
  obtain ⟨r, hReturn, hSub⟩ := hAll memLines (fun _ => false) [] savedReport (by decide)
  have hEnd : (doWithFile memLines (fun _ => false) [] savedReport).map
      (fun r => (r.accepted, r.file)) = some ([], []) := by decide +kernel
  have hRecord : (records memLines savedReport).length = 1 := by decide +kernel
  rw [hReturn, Option.map_some, Option.some.injEq, Prod.mk.injEq] at hEnd
  rw [hEnd.1, hEnd.2, records_nil (by decide), List.append_nil] at hSub
  have hLength := hSub.length_le
  rw [hRecord, List.length_nil] at hLength
  exact absurd hLength (by decide)

theorem record_replayed : LosesNothing memLines (fun _ => true) [] savedReport := by
  rw [losesNothing_iff (by decide)]
  refine ⟨?_, .inr ⟨rfl, by decide +kernel, fun _ _ => rfl⟩⟩
  have hCount : (fgetsLines msgBuffSize savedReport).length = 7 := by decide +kernel
  intro i hi
  rw [hCount, memLines] at hi
  obtain rfl : i = 0 := by omega
  decide +kernel

end MonitorSystem.SendFile
