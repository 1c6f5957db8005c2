import MonitorSystem.Dispatch
import MonitorSystem.Saved
import MonitorSystem.SendData

/-! # One turn of the relogin thread

The turn begins when check_for_relogin has reached 0. What the network and the
file system do is an input. A client that exits, receives SIGPIPE, hands
fgets a null FILE or writes past an array does not run afterwards.
-/

namespace MonitorSystem.Relogin

open Msg Report Dispatch SendData SendFile Lib.CString Lib.Blocks Lib.Stdio

/-- The outcomes of the calls in login and of the replays, and what the array
temp of each call of do_with_file held before. -/
structure Attempt where
  connected : Bool
  token : Sent
  ready : Bool
  reply : Recv
  temp : Kind → Bytes
  send : Kind → Nat → Sent
  emptied : Kind → Bool

def ackSize : Nat := 4

/-- login; none where the process ends in it. The variable ack starts as 0. -/
def login (a : Attempt) : Option Int :=
  if a.connected = false then none
  else match a.token with
    | .brokenPipe => none
    | .error => some 0
    | .accepted _ =>
      if a.ready = false then some 0
      else match a.reply with
        | .error => some 0
        | .eof => some 0
        | .data bytes => if leNat (bytes.take ackSize) ≠ 1 then some 0 else some 1

def Sent.ok : Sent → Bool
  | .accepted _ => true
  | .error | .brokenPipe => false

def replay (a : Attempt) (c : Client) (kind : Kind) : Client :=
  if c.running = false then c
  else match c.files kind with
    | none => c.exit
    | some file =>
      match doWithFile (linesOf kind) (fun i => Sent.ok (a.send kind i)) (a.temp kind) file with
      | none => c.exit
      | some r =>
        if (List.range r.sent.length).any fun i => a.send kind i = .brokenPipe then c.exit
        else if a.emptied kind then { c with files := Function.update c.files kind (some r.file) }
        else c.exit

def kinds : List Kind := [.mem, .cpu, .disk, .sys]

def relogin (a : Attempt) (c : Client) : Client :=
  let c := { c with checkForRelogin := reloginNum }
  match login a with
  | none => c.exit
  | some res => if 0 < res then kinds.foldl (replay a) c else c

/-- The thread waits again, the process runs, and without a login nothing was replayed. -/
structure Survives (a : Attempt) (c : Client) : Prop where
  running : (relogin a c).running = true
  waits : 0 < (relogin a c).checkForRelogin
  files : login a ≠ some 1 → (relogin a c).files = c.files

structure Accepted (a : Attempt) : Prop where
  token : ∃ n, a.token = .accepted n
  ready : a.ready = true
  reply : ∃ bytes, a.reply = .data bytes ∧ leNat (bytes.take ackSize) = 1

/-- The file exists and can be emptied, its records fit temp, and no send of them breaks the pipe. -/
def Replayable (a : Attempt) (kind : Kind) (file : Option Bytes) : Prop :=
  ∃ bytes, file = some bytes ∧ a.emptied kind = true ∧
    Room (remainder (linesOf kind) (fgetsLines msgBuffSize bytes)) (cstr (a.temp kind))
      (records (linesOf kind) bytes) ∧
    ∀ i < (toSend (cstr (a.temp kind)) (records (linesOf kind) bytes)).length, a.send kind i ≠ .brokenPipe

theorem login_eq_none_iff {a : Attempt} : login a = none ↔ a.connected = false ∨ a.token = .brokenPipe := by
  rw [login]
  cases a.connected with
  | false => simp
  | true =>
    cases a.token with
    | brokenPipe => simp
    | error => simp
    | accepted n =>
      cases a.ready with
      | false => simp
      | true =>
        cases a.reply with
        | error | eof => simp
        | data bytes =>
          by_cases hAck : leNat (bytes.take ackSize) = 1 <;> simp [hAck]

theorem login_eq_one_iff {a : Attempt} : login a = some 1 ↔ a.connected = true ∧ Accepted a := by
  constructor
  · intro hLogin
    rw [login] at hLogin
    split at hLogin
    · cases hLogin
    · rename_i hConnected
      split at hLogin
      · cases hLogin
      · cases hLogin
      · rename_i n hToken
        split at hLogin
        · cases hLogin
        · rename_i hReady
          split at hLogin
          · cases hLogin
          · cases hLogin
          · rename_i bytes hReply
            by_cases hAck : leNat (bytes.take ackSize) = 1
            · exact ⟨eq_true_of_ne_false hConnected, ⟨n, hToken⟩, eq_true_of_ne_false hReady, bytes, hReply, hAck⟩
            · rw [if_pos hAck] at hLogin
              cases hLogin
  · rintro ⟨hConnected, ⟨n, hToken⟩, hReady, bytes, hReply, hAck⟩
    simp [login, hConnected, hToken, hReady, hReply, hAck]

theorem login_le_one {a : Attempt} {res : Int} (h : login a = some res) : res = 0 ∨ res = 1 := by
  rw [login] at h
  split at h
  · cases h
  · split at h
    · cases h
    · exact .inl (Option.some.inj h).symm
    · split at h
      · exact .inl (Option.some.inj h).symm
      · split at h
        · exact .inl (Option.some.inj h).symm
        · exact .inl (Option.some.inj h).symm
        · split at h
          · exact .inl (Option.some.inj h).symm
          · exact .inr (Option.some.inj h).symm

theorem replay_stopped {a : Attempt} {c : Client} (h : c.running = false) (kind : Kind) : replay a c kind = c :=
  if_pos h

theorem replay_cases (a : Attempt) {c : Client} (hRun : c.running = true) (kind : Kind) :
    (Replayable a kind (c.files kind) ∧
      replay a c kind = { c with files := Function.update c.files kind (some []) }) ∨
    (¬ Replayable a kind (c.files kind) ∧ replay a c kind = c.exit) := by
  rw [replay, if_neg (ne_false_of_eq_true hRun)]
  cases c.files kind with
  | none =>
    refine .inr ⟨?_, rfl⟩
    rintro ⟨bytes, hFile, _⟩
    cases hFile
  | some file =>
    dsimp only
    cases hReturn : doWithFile (linesOf kind) (fun i => Sent.ok (a.send kind i)) (a.temp kind) file with
    | none =>
      refine .inr ⟨?_, rfl⟩
      rintro ⟨bytes, hFile, _, hRoom, _⟩
      cases hFile
      obtain ⟨more, hLoop, _⟩ := @loop_room _ (Saved.linesOf_pos kind) (fun i => Sent.ok (a.send kind i)) _ _ []
        hRoom
      rw [doWithFile, hLoop] at hReturn
      cases hReturn
    | some r =>
      obtain ⟨hEmpty, hLoop⟩ := doWithFile_eq_some.mp hReturn
      have hRoom := room_of_loop (Saved.linesOf_pos kind) hLoop
      obtain ⟨more, hSame, hTexts⟩ := @loop_room _ (Saved.linesOf_pos kind) (fun i => Sent.ok (a.send kind i)) _ _ []
        hRoom
      obtain rfl : more = r.sent := (Option.some.inj (hLoop.symm.trans hSame)).symm
      have hLength := congrArg List.length hTexts
      rw [List.length_map] at hLength
      have hBroken : ((List.range r.sent.length).any fun i => a.send kind i = .brokenPipe) = true ↔
          ∃ i < r.sent.length, a.send kind i = .brokenPipe := by simp
      dsimp only
      split
      · rename_i hAny
        refine .inr ⟨?_, rfl⟩
        rintro ⟨bytes, hFile, _, _, hSend⟩
        cases hFile
        obtain ⟨i, hi, hPipe⟩ := hBroken.mp hAny
        exact hSend i (hLength ▸ hi) hPipe
      · rename_i hNone
        rw [hBroken, not_exists] at hNone
        split
        · rename_i hEmptied
          refine .inl ⟨⟨file, rfl, hEmptied, hRoom, ?_⟩, by rw [hEmpty]⟩
          intro i hi hPipe
          exact hNone i ⟨hLength ▸ hi, hPipe⟩
        · rename_i hFull
          refine .inr ⟨?_, rfl⟩
          rintro ⟨bytes, _, hEmptied, _⟩
          exact hFull hEmptied

theorem replays_stopped {a : Attempt} {c : Client} (h : c.running = false) (kinds : List Kind) :
    kinds.foldl (replay a) c = c := by
  induction kinds with
  | nil => rfl
  | cons kind kinds ih => rw [List.foldl_cons, replay_stopped h, ih]

theorem replays_checkForRelogin (a : Attempt) (c : Client) (kinds : List Kind) :
    (kinds.foldl (replay a) c).checkForRelogin = c.checkForRelogin := by
  induction kinds generalizing c with
  | nil => rfl
  | cons kind kinds ih =>
    rw [List.foldl_cons, ih]
    by_cases hRun : c.running = true
    · obtain ⟨_, hReplay⟩ | ⟨_, hReplay⟩ := replay_cases a hRun kind <;> rw [hReplay]
      rfl
    · rw [replay_stopped (eq_false_of_ne_true hRun)]

theorem replays_running_iff {a : Attempt} {c : Client} (hRun : c.running = true) {kinds : List Kind}
    (hNodup : kinds.Nodup) :
    (kinds.foldl (replay a) c).running = true ↔ ∀ kind ∈ kinds, Replayable a kind (c.files kind) := by
  induction kinds generalizing c with
  | nil => simp [hRun]
  | cons kind kinds ih =>
    obtain ⟨hFresh, hRest⟩ := List.nodup_cons.mp hNodup
    rw [List.foldl_cons, List.forall_mem_cons]
    obtain ⟨hFile, hReplay⟩ | ⟨hFile, hReplay⟩ := replay_cases a hRun kind
    · have hRunning : (replay a c kind).running = true := by
        rw [hReplay]
        exact hRun
      have hOthers : ∀ other ∈ kinds, (replay a c kind).files other = c.files other := by
        intro other hOther
        rw [hReplay]
        apply Function.update_of_ne
        rintro rfl
        exact hFresh hOther
      rw [ih hRunning hRest]
      constructor
      · intro h
        refine ⟨hFile, ?_⟩
        intro other hOther
        rw [← hOthers other hOther]
        exact h other hOther
      · rintro ⟨_, h⟩ other hOther
        rw [hOthers other hOther]
        exact h other hOther
    · rw [hReplay, replays_stopped rfl]
      constructor
      · intro h
        cases h
      · rintro ⟨h, _⟩
        exact absurd h hFile

theorem mem_kinds (kind : Kind) : kind ∈ kinds := by
  cases kind <;> decide

theorem reloginNum_pos : (0 : Int) < reloginNum := by decide

theorem not_survives {a : Attempt} (hLogin : login a = none) (c : Client) : ¬ Survives a c := by
  rintro ⟨hRunning, _, _⟩
  rw [relogin, hLogin] at hRunning
  cases hRunning

theorem survives_rejected {a : Attempt} {c : Client} (hRun : c.running = true) (hLogin : login a = some 0) :
    Survives a c := by
  have hTurn : relogin a c = { c with checkForRelogin := reloginNum } := by
    rw [relogin, hLogin]
    rfl
  constructor
  · rw [hTurn]
    exact hRun
  · rw [hTurn]
    exact reloginNum_pos
  · intro _
    rw [hTurn]

theorem survives_accepted {a : Attempt} {c : Client} (hRun : c.running = true) (hLogin : login a = some 1) :
    Survives a c ↔ ∀ kind, Replayable a kind (c.files kind) := by
  have hTurn : relogin a c = kinds.foldl (replay a) { c with checkForRelogin := reloginNum } := by
    rw [relogin, hLogin]
    rfl
  have hReplays := @replays_running_iff a { c with checkForRelogin := reloginNum } hRun kinds (by decide)
  constructor
  · rintro ⟨hRunning, _, _⟩ kind
    rw [hTurn] at hRunning
    exact hReplays.mp hRunning kind (mem_kinds kind)
  · intro hFiles
    constructor
    · rw [hTurn]
      exact hReplays.mpr fun kind _ => hFiles kind
    · rw [hTurn, replays_checkForRelogin]
      exact reloginNum_pos
    · intro hNot
      exact absurd hLogin hNot

/-- The thread comes back exactly when connect does not fail, the token does not
break the pipe, and after an accepted login every file can be replayed. -/
theorem survives_iff {a : Attempt} {c : Client} (hRun : c.running = true) :
    Survives a c ↔ a.connected = true ∧ a.token ≠ .brokenPipe ∧
      (Accepted a → ∀ kind, Replayable a kind (c.files kind)) := by
  have hNone : login a = none ↔ ¬ (a.connected = true ∧ a.token ≠ .brokenPipe) := by
    rw [login_eq_none_iff, not_and_or, not_not, Bool.not_eq_true]
  cases hLogin : login a with
  | none =>
    apply iff_of_false (not_survives hLogin c)
    rintro ⟨hConnected, hToken, _⟩
    exact hNone.mp hLogin ⟨hConnected, hToken⟩
  | some res =>
    obtain ⟨hConnected, hToken⟩ : a.connected = true ∧ a.token ≠ .brokenPipe := by
      by_contra hNot
      rw [hNone.mpr hNot] at hLogin
      cases hLogin
    obtain rfl | rfl := login_le_one hLogin
    · apply iff_of_true (survives_rejected hRun hLogin)
      refine ⟨hConnected, hToken, ?_⟩
      intro hAccepted
      rw [login_eq_one_iff.mpr ⟨hConnected, hAccepted⟩] at hLogin
      cases hLogin
    · have hAccepted := (login_eq_one_iff.mp hLogin).2
      rw [survives_accepted hRun hLogin]
      constructor
      · intro hFiles
        exact ⟨hConnected, hToken, fun _ => hFiles⟩
      · rintro ⟨_, _, hFiles⟩
        exact hFiles hAccepted

def Attempt.refused : Attempt where
  connected := false
  token := .error
  ready := false
  reply := .error
  temp := fun _ => []
  send := fun _ _ => .accepted sizeofMsg
  emptied := fun _ => true

def Attempt.welcomed : Attempt :=
  { Attempt.refused with connected := true, token := .accepted 6, ready := true, reply := .data [1, 0, 0, 0] }

/-- The server is down, so connect fails. -/
theorem client_exits : ¬ ∀ (a : Attempt) (c : Client), c.running = true → Survives a c := by
  intro hAll
  obtain ⟨hRunning, _, _⟩ := hAll Attempt.refused connected rfl
  cases hRunning

def record (kind : Kind) : Bytes := (List.replicate (linesOf kind) (lit "text\n")).flatten

/-- Two memory records and the lines in front of a third, one record of every other kind. -/
def kept : Kind → Bytes
  | .mem => record .mem ++ record .mem ++ lit "text\ntext\n"
  | kind => record kind

/-- The second memory record is not taken, and temp holds the rest of an earlier replay. -/
def Attempt.interrupted : Attempt :=
  { Attempt.welcomed with
    temp := fun _ => lit "rest"
    send := fun kind i => if kind = .mem ∧ i = 1 then .error else .accepted sizeofMsg }

theorem survives_interrupted : Survives Attempt.interrupted { connected with files := fun kind => some (kept kind) } := by
  refine (survives_iff rfl).mpr ⟨rfl, by decide, ?_⟩
  intro _ kind
  refine ⟨kept kind, rfl, rfl, ?_, ?_⟩
  · cases kind <;> decide +kernel
  · intro i _ hPipe
    dsimp only [Attempt.interrupted] at hPipe
    split at hPipe <;> cases hPipe

end MonitorSystem.Relogin
