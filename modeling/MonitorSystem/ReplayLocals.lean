import MonitorSystem.Lib.CBuffer
import MonitorSystem.SendFile

/-! # do_with_file on its local arrays

Nothing clears temp before the first strncat, so it begins with what the stack
held. The events are those of the loop up to its end or to the first strncat
that leaves the array.
-/

namespace MonitorSystem.ReplayLocals

open Msg SendFile Lib.Blocks Lib.CString Lib.CBuffer Lib.Stdio

structure Locals where
  a : Buffer msgBuffSize
  temp : Buffer msgBuffSize
  msg : MonitorMsgDs

inductive Event
  | collected (text : Bytes)
  | copied (payload : Bytes)
  | sent (msg : MonitorMsgDs)

def trace (msgType : BitVec 64) (msgLines : Nat) : List Bytes → Nat → Locals → List Event
  | [], _, _ => []
  | line :: rest, lines, l =>
    let a := l.a.fill line
    .collected (l.temp.text ++ a.text.take msgBuffSize) ::
      match l.temp.strncat a.text msgBuffSize with
      | none => []
      | some temp =>
        if lines - 1 = 0 then
          let msg : MonitorMsgDs := ⟨msgType, strncpy msgBuffSize temp.text, length_strncpy _ _⟩
          .copied msg.buff ::
            if msg.text = [] then []
            else .sent msg :: trace msgType msgLines rest msgLines ⟨a, zeroed msgBuffSize, msg⟩
        else trace msgType msgLines rest (lines - 1) { l with a := a, temp := temp }

def doWithFile (msgType : BitVec 64) (msgLines : Nat) (file : Bytes) (l : Locals) : List Event :=
  trace msgType msgLines (fgetsLines msgBuffSize file) msgLines l

/-- The text fits temp with its terminator, and a payload has one. -/
def Event.Safe : Event → Prop
  | .collected text => text.length ≤ 499
  | .copied payload => 0 ∈ payload
  | .sent _ => True

instance : DecidablePred Event.Safe
  | .collected text => inferInstanceAs (Decidable (text.length ≤ 499))
  | .copied payload => inferInstanceAs (Decidable (0 ∈ payload))
  | .sent _ => inferInstanceAs (Decidable True)

def Event.message : Event → Option (BitVec 64 × Bytes)
  | .sent msg => some (msg.type, msg.text)
  | .collected _ | .copied _ => none

def messages (events : List Event) : List (BitVec 64 × Bytes) := events.filterMap Event.message

/-- Both runs are defined to their end and send the same messages. -/
structure Same (first second : List Event) : Prop where
  firstSafe : ∀ e ∈ first, e.Safe
  secondSafe : ∀ e ∈ second, e.Safe
  agree : messages first = messages second

/-- The loop over the texts has no result exactly when an event is not safe,
and else it has sent the same texts. -/
def Follows (msgType : BitVec 64) (sent : List Replayed) (events : List Event) : Option (List Replayed) → Prop
  | none => ¬ ∀ e ∈ events, e.Safe
  | some out => (∀ e ∈ events, e.Safe) ∧
      ∃ more, out = sent ++ more ∧ messages events = more.map fun r => (msgType, r.text)

theorem follows_nil (msgType : BitVec 64) (sent : List Replayed) : Follows msgType sent [] (some sent) := by
  refine ⟨?_, [], (List.append_nil sent).symm, rfl⟩
  intro e he
  cases he

theorem Follows.safe {msgType : BitVec 64} {sent : List Replayed} {e : Event} {events : List Event}
    {out : Option (List Replayed)} (hSafe : e.Safe) (hSilent : e.message = none)
    (h : Follows msgType sent events out) : Follows msgType sent (e :: events) out := by
  cases out with
  | none =>
    intro hAll
    exact h (List.forall_mem_cons.mp hAll).2
  | some out =>
    obtain ⟨hEvents, more, hOut, hMessages⟩ := h
    refine ⟨List.forall_mem_cons.mpr ⟨hSafe, hEvents⟩, more, hOut, ?_⟩
    rw [messages, List.filterMap_cons_none hSilent]
    exact hMessages

theorem Follows.sent {msgType : BitVec 64} {sent : List Replayed} {msg : MonitorMsgDs} {r : Replayed}
    {events : List Event} {out : Option (List Replayed)} (hType : msg.type = msgType) (hText : msg.text = r.text)
    (h : Follows msgType (sent ++ [r]) events out) : Follows msgType sent (.sent msg :: events) out := by
  cases out with
  | none =>
    intro hAll
    exact h (List.forall_mem_cons.mp hAll).2
  | some out =>
    obtain ⟨hEvents, more, hOut, hMessages⟩ := h
    refine ⟨List.forall_mem_cons.mpr ⟨trivial, hEvents⟩, r :: more, ?_, ?_⟩
    · rw [hOut, List.append_assoc]
      rfl
    · have hMessage : (Event.sent msg).message = some (msgType, r.text) := by rw [Event.message, hType, hText]
      rw [messages, List.filterMap_cons_some hMessage]
      exact congrArg _ hMessages

theorem trace_follows {msgType : BitVec 64} {msgLines : Nat} {send : Nat → Bool} {list : List Bytes}
    (hShort : ∀ line ∈ list, line.length < msgBuffSize) (lines : Nat) (l : Locals) (sent : List Replayed) :
    Follows msgType sent (trace msgType msgLines list lines l)
      (loop msgLines send list lines l.temp.text sent) := by
  induction list generalizing lines l sent with
  | nil => exact follows_nil msgType sent
  | cons line rest ih =>
    rw [List.forall_mem_cons] at hShort
    have hLine : (l.a.fill line).text = cstr line := Buffer.text_fill hShort.1
    have hWhole : (cstr line).take msgBuffSize = cstr line :=
      List.take_of_length_le ((length_cstr_le line).trans hShort.1.le)
    rw [trace, loop, hLine]
    dsimp only
    rw [hWhole]
    cases hAppend : l.temp.strncat (cstr line) msgBuffSize with
    | none =>
      have hFull := Buffer.strncat_eq_none.mp hAppend
      rw [hWhole] at hFull
      rw [if_pos hFull]
      intro hSafe
      have hFits : (l.temp.text ++ cstr line).length ≤ 499 := hSafe _ List.mem_cons_self
      exact absurd hFull (Nat.not_le.mpr (Nat.lt_succ_of_le hFits))
    | some temp =>
      have hText := Buffer.text_strncat (noNul_cstr line) hAppend
      have hRoom : ¬ msgBuffSize ≤ (l.temp.text ++ cstr line).length := by
        intro hFull
        rw [← hWhole] at hFull
        cases hAppend.symm.trans (Buffer.strncat_eq_none.mpr hFull)
      rw [hWhole] at hText
      rw [if_neg hRoom, ← hText]
      rw [← hText, not_le] at hRoom
      have hCollected : (Event.collected temp.text).Safe := Nat.le_of_lt_succ hRoom
      refine .safe hCollected rfl ?_
      dsimp only
      split
      · have hPayload : cstr (strncpy msgBuffSize temp.text) = temp.text := cstr_strncpy temp.noNul_text hRoom
        obtain ⟨tail, hCopied⟩ := strncpy_of_lt hRoom
        refine .safe ?_ rfl ?_
        · change 0 ∈ strncpy msgBuffSize temp.text
          rw [hCopied]
          simp
        · simp only [MonitorMsgDs.text, hPayload]
          split
          · exact follows_nil msgType sent
          · have hNext := ih hShort.2 msgLines ⟨l.a.fill line, zeroed msgBuffSize,
              ⟨msgType, strncpy msgBuffSize temp.text, length_strncpy _ _⟩⟩ (sent ++ [⟨temp.text, send sent.length⟩])
            rw [text_zeroed (by decide)] at hNext
            exact Follows.sent (r := ⟨temp.text, send sent.length⟩) rfl hPayload hNext
      · exact ih hShort.2 (lines - 1) { l with a := l.a.fill line, temp := temp } sent

theorem doWithFile_follows (msgType : BitVec 64) (msgLines : Nat) (send : Nat → Bool) (file : Bytes) (l : Locals) :
    Follows msgType [] (doWithFile msgType msgLines file l)
      (loop msgLines send (fgetsLines msgBuffSize file) msgLines l.temp.text []) := by
  apply trace_follows
  intro line hLine
  exact length_of_mem_fgetsAll (by decide) hLine

theorem safe_of_room {msgLines : Nat} (hLines : 0 < msgLines) (msgType : BitVec 64) {file : Bytes} {l : Locals}
    (hRoom : Room (remainder msgLines (fgetsLines msgBuffSize file)) l.temp.text (records msgLines file)) :
    (∀ e ∈ doWithFile msgType msgLines file l, e.Safe) ∧
      messages (doWithFile msgType msgLines file l) =
        (toSend l.temp.text (records msgLines file)).map fun text => (msgType, text) := by
  obtain ⟨more, hLoop, hTexts⟩ := @loop_room msgLines hLines (fun _ => true) _ _ [] hRoom
  have hFollows := doWithFile_follows msgType msgLines (fun _ => true) file l
  rw [hLoop] at hFollows
  obtain ⟨hSafe, sent, hSent, hMessages⟩ := hFollows
  obtain rfl : more = sent := hSent
  refine ⟨hSafe, ?_⟩
  rw [hMessages, records, ← hTexts, List.map_map]
  rfl

theorem room_of_safe {msgLines : Nat} (hLines : 0 < msgLines) {msgType : BitVec 64} {file : Bytes} {l : Locals}
    (hSafe : ∀ e ∈ doWithFile msgType msgLines file l, e.Safe) :
    Room (remainder msgLines (fgetsLines msgBuffSize file)) l.temp.text (records msgLines file) := by
  have hFollows := doWithFile_follows msgType msgLines (fun _ => true) file l
  cases hLoop : loop msgLines (fun _ => true) (fgetsLines msgBuffSize file) msgLines l.temp.text [] with
  | none =>
    rw [hLoop] at hFollows
    exact absurd hSafe hFollows
  | some out => exact room_of_loop hLines hLoop

/-- The arrays are never left and every payload is terminated exactly when the
texts up to the first empty one, and else also the lines behind the last full
record, fit temp, the first one behind what temp holds at first. -/
theorem safe_replay_iff {msgLines : Nat} (hLines : 0 < msgLines) (msgType : BitVec 64) (file : Bytes) (l : Locals) :
    (∀ e ∈ doWithFile msgType msgLines file l, e.Safe) ↔
      Room (remainder msgLines (fgetsLines msgBuffSize file)) l.temp.text (records msgLines file) := by
  constructor
  · intro hSafe
    exact room_of_safe hLines hSafe
  · intro hRoom
    exact (safe_of_room hLines msgType hRoom).1

def stack (old : Buffer msgBuffSize) : Locals := ⟨zeroed msgBuffSize, old, Msg.cleared 0⟩

def longLine : Bytes := List.replicate 299 0x61 ++ [0x0a]

/-- Two lines of 300 bytes are collected for one record. -/
theorem temp_overflows : ¬ ∀ (msgLines : Nat) (msgType : BitVec 64) (file : Bytes) (l : Locals), 0 < msgLines →
    ∀ e ∈ doWithFile msgType msgLines file l, e.Safe := by
  intro hAll
  have hSafe := hAll memLines sysMem (longLine ++ longLine) (stack (zeroed msgBuffSize)) (by decide)
  have hNot : ¬ ∀ e ∈ doWithFile sysMem memLines (longLine ++ longLine) (stack (zeroed msgBuffSize)), e.Safe := by
    decide +kernel
  exact hNot hSafe

-- records must not be computed while the statements below are compared
attribute [local irreducible] records

theorem room_savedReport : Room (remainder memLines (fgetsLines msgBuffSize savedReport)) []
    (records memLines savedReport) := by
  decide +kernel

theorem safe_savedReport : 0 < memLines ∧
    ∀ e ∈ doWithFile sysMem memLines savedReport (stack (zeroed msgBuffSize)), e.Safe := by
  have hTemp : (stack (zeroed msgBuffSize)).temp.text = [] := text_zeroed (by decide)
  have hLines : 0 < memLines := by decide
  refine ⟨hLines, (safe_replay_iff hLines sysMem savedReport (stack (zeroed msgBuffSize))).mpr ?_⟩
  rw [hTemp]
  exact room_savedReport

theorem toSend_cons_inj {temp temp' text : Bytes} {texts : List Bytes} :
    toSend temp (text :: texts) = toSend temp' (text :: texts) ↔ temp = temp' := by
  constructor
  · intro h
    rw [toSend, toSend, withTemp, withTemp, List.takeWhile_cons, List.takeWhile_cons] at h
    by_cases hText : temp ++ text = []
    · by_cases hText' : temp' ++ text = []
      · rw [(List.append_eq_nil_iff.mp hText).1, (List.append_eq_nil_iff.mp hText').1]
      · simp [hText, hText'] at h
    · by_cases hText' : temp' ++ text = []
      · simp [hText, hText'] at h
      · simpa [hText, hText'] using h
  · rintro rfl
    rfl

/-- Two runs agree exactly when both stay in the arrays and, if there is a
record at all, temp holds the same text at first. -/
theorem same_iff {msgLines : Nat} (hLines : 0 < msgLines) (msgType : BitVec 64) (file : Bytes) (l l' : Locals) :
    Same (doWithFile msgType msgLines file l) (doWithFile msgType msgLines file l') ↔
      Room (remainder msgLines (fgetsLines msgBuffSize file)) l.temp.text (records msgLines file) ∧
      Room (remainder msgLines (fgetsLines msgBuffSize file)) l'.temp.text (records msgLines file) ∧
      (records msgLines file = [] ∨ l.temp.text = l'.temp.text) := by
  have hPair : Function.Injective fun text : Bytes => (msgType, text) := fun _ _ h => (Prod.mk.inj h).2
  have hSend : toSend l.temp.text (records msgLines file) = toSend l'.temp.text (records msgLines file) ↔
      records msgLines file = [] ∨ l.temp.text = l'.temp.text := by
    cases records msgLines file with
    | nil => exact iff_of_true rfl (.inl rfl)
    | cons text texts =>
      rw [toSend_cons_inj]
      exact (or_iff_right (List.cons_ne_nil text texts)).symm
  constructor
  · rintro ⟨hSafe, hSafe', hAgree⟩
    have hRoom := room_of_safe hLines hSafe
    have hRoom' := room_of_safe hLines hSafe'
    rw [(safe_of_room hLines msgType hRoom).2, (safe_of_room hLines msgType hRoom').2] at hAgree
    exact ⟨hRoom, hRoom', hSend.mp (List.map_injective_iff.mpr hPair hAgree)⟩
  · rintro ⟨hRoom, hRoom', hTemp⟩
    obtain ⟨hSafe, hMessages⟩ := safe_of_room hLines msgType hRoom
    obtain ⟨hSafe', hMessages'⟩ := safe_of_room hLines msgType hRoom'
    refine ⟨hSafe, hSafe', ?_⟩
    rw [hMessages, hMessages', hSend.mpr hTemp]

def stale : Buffer msgBuffSize := ⟨0x78 :: List.replicate 499 0, by decide +kernel⟩

/-- One record, and a stack that held a letter where temp is now. -/
theorem replay_depends_on_stack : ¬ ∀ (msgLines : Nat) (msgType : BitVec 64) (file : Bytes) (l l' : Locals),
    0 < msgLines → Same (doWithFile msgType msgLines file l) (doWithFile msgType msgLines file l') := by
  intro hAll
  obtain ⟨_, _, hAgree⟩ :=
    hAll memLines sysMem savedReport (stack (zeroed msgBuffSize)) (stack stale) (by decide)
  have hNot : messages (doWithFile sysMem memLines savedReport (stack (zeroed msgBuffSize))) ≠
      messages (doWithFile sysMem memLines savedReport (stack stale)) := by decide +kernel
  exact hNot hAgree

/-- Two stacks that differ in the line buffer and in the message. -/
theorem same_savedReport : Same (doWithFile sysMem memLines savedReport (stack (zeroed msgBuffSize)))
    (doWithFile sysMem memLines savedReport ⟨stale, zeroed msgBuffSize, Msg.cleared piAck⟩) := by
  have hTemp : (zeroed msgBuffSize).text = [] := text_zeroed (by decide)
  have hLines : 0 < memLines := by decide
  refine (same_iff hLines sysMem savedReport (stack (zeroed msgBuffSize))
    ⟨stale, zeroed msgBuffSize, Msg.cleared piAck⟩).mpr ⟨?_, ?_, .inr rfl⟩
  · rw [stack, hTemp]
    exact room_savedReport
  · rw [hTemp]
    exact room_savedReport

end MonitorSystem.ReplayLocals
