import MonitorSystem.Report

/-! # Sending a report or keeping it

One iteration of send_data_to_server. The calls that leave the program, send,
open and write, have their outcomes as inputs; a file that does not exist is
none.
-/

namespace MonitorSystem.SendData

open Msg CJson Report Lib.CString

inductive Sent
  | accepted (n : Nat)
  | error
  | brokenPipe
deriving DecidableEq

structure Io where
  send : Sent
  opened : Bool
  text : Option Nat
  newline : Bool

structure Client where
  running : Bool
  files : Kind → Option Bytes
  checkForRelogin : Int
  signals : Nat

def reloginNum : Int := 3

def tryToRelogin (c : Client) : Client :=
  if c.checkForRelogin = 0 then { c with signals := c.signals + 1 }
  else { c with checkForRelogin := c.checkForRelogin - 1 }

def Client.exit (c : Client) : Client := { c with running := false }

/-- O_CREAT | O_APPEND: the file exists afterwards and writes go to its end. -/
def Client.append (c : Client) (kind : Kind) (bytes : Bytes) : Client :=
  { c with files := Function.update c.files kind (some ((c.files kind).getD [] ++ bytes)) }

def persist (kind : Kind) (str : Bytes) (io : Io) (c : Client) : Client :=
  if io.opened = false then c.exit
  else match io.text with
    | none => (c.append kind []).exit
    | some n => (c.append kind (str.take n)).append kind (if io.newline then lit "\n" else [])

/-- A send on sockfd and what follows; SIGPIPE ends the process. -/
def sendTcp (kind : Kind) (str : Bytes) (io : Io) (c : Client) : Client :=
  match io.send with
  | .accepted _ => c
  | .brokenPipe => c.exit
  | .error =>
    let kept := persist kind str io c
    if kind = .mem ∧ kept.running then tryToRelogin kept else kept

/-- The result of the send on udp_sockfd is not looked at. -/
def transmit (kind : Kind) (out : Outgoing) (io : Io) (c : Client) : Client :=
  if out.urgent then c else sendTcp kind out.str io c

def kindOf (type : BitVec 64) : Option Kind :=
  if type = sysMem then some .mem
  else if type = sysCpu then some .cpu
  else if type = sysDisk then some .disk
  else if type = sysSys then some .sys
  else none

/-- One iteration; none where serialise has none. An empty report makes the client exit. -/
def iteration (m stack : MonitorMsgDs) (io : Io) (c : Client) : Option Client :=
  match kindOf m.type with
  | none => some c
  | some kind =>
    if m.text = [] then some c.exit
    else (serialise kind m stack).map fun out => transmit kind out io c

/-- The socket took the whole message, or its text is a new record of the file. -/
structure Kept (kind : Kind) (str : Bytes) (sent : Sent) (before after : Client) : Prop where
  running : after.running = true
  kept : sent = .accepted sizeofMsg ∨
    after.files kind = some ((before.files kind).getD [] ++ str ++ lit "\n")

structure Io.Stores (io : Io) (str : Bytes) : Prop where
  opened : io.opened = true
  text : ∃ n, io.text = some n ∧ str.length ≤ n
  newline : io.newline = true

@[simp] theorem append_files (c : Client) (kind : Kind) (bytes : Bytes) :
    (c.append kind bytes).files kind = some ((c.files kind).getD [] ++ bytes) := Function.update_self ..

theorem tryToRelogin_files (c : Client) : (tryToRelogin c).files = c.files := by
  rw [tryToRelogin]
  split <;> rfl

theorem tryToRelogin_running (c : Client) : (tryToRelogin c).running = c.running := by
  rw [tryToRelogin]
  split <;> rfl

theorem take_append_eq {str rest : Bytes} {n : Nat} (h : str.take n ++ rest = str ++ lit "\n")
    (hRest : rest = [] ∨ rest = lit "\n") : rest = lit "\n" ∧ str.length ≤ n := by
  have hLength := congrArg List.length h
  have hNewline : (lit "\n").length = 1 := rfl
  rw [List.length_append, List.length_append, List.length_take, hNewline] at hLength
  obtain rfl | rfl := hRest
  · rw [List.length_nil] at hLength
    omega
  · exact ⟨rfl, by omega⟩

theorem persist_kept_iff {kind : Kind} {str : Bytes} {io : Io} {c : Client} (hRun : c.running = true) :
    ((persist kind str io c).running = true ∧
      (persist kind str io c).files kind = some ((c.files kind).getD [] ++ str ++ lit "\n")) ↔
    io.Stores str := by
  rw [persist]
  cases hOpened : io.opened with
  | false =>
    simp only [if_true, Client.exit, Bool.false_eq_true, false_and, false_iff]
    intro hStores
    cases hOpened.symm.trans hStores.opened
  | true =>
    cases hText : io.text with
    | none =>
      simp only [Bool.true_eq_false, if_false, Client.exit, Bool.false_eq_true, false_and, false_iff]
      rintro ⟨_, ⟨n, hSome, _⟩, _⟩
      cases hText.symm.trans hSome
    | some n =>
      simp only [Bool.true_eq_false, if_false, append_files, Option.getD_some, Option.some.injEq]
      constructor
      · rintro ⟨_, hFile⟩
        rw [List.append_assoc, List.append_assoc, List.append_cancel_left_eq] at hFile
        obtain ⟨hNewline, hLe⟩ := take_append_eq hFile (by split <;> simp)
        refine ⟨hOpened, ⟨n, hText, hLe⟩, ?_⟩
        by_contra hNot
        rw [if_neg hNot] at hNewline
        cases hNewline
      · rintro ⟨_, ⟨n', hSome, hLe⟩, hNewline⟩
        cases hText.symm.trans hSome
        rw [if_pos hNewline, List.take_of_length_le hLe]
        exact ⟨hRun, rfl⟩

theorem untouched_ne (file : Option Bytes) (str : Bytes) : file ≠ some (file.getD [] ++ str ++ lit "\n") := by
  intro hEq
  cases file with
  | none => cases hEq
  | some bytes =>
    have hLength := congrArg List.length (Option.some.inj hEq)
    have hNewline : (lit "\n").length = 1 := rfl
    rw [List.length_append, List.length_append, hNewline, Option.getD_some] at hLength
    omega

theorem text_ne_nil {kind : Kind} {m stack : MonitorMsgDs} {out : Outgoing}
    (h : serialise kind m stack = some out) : m.text ≠ [] := by
  intro hNil
  rw [serialise, hNil] at h
  cases h

theorem kindOf_type (kind : Kind) : kindOf kind.type = some kind := by
  cases kind <;> decide

theorem iteration_eq {kind : Kind} {m stack : MonitorMsgDs} {out : Outgoing} (hKind : kindOf m.type = some kind)
    (hOut : serialise kind m stack = some out) (io : Io) (c : Client) :
    iteration m stack io c = some (transmit kind out io c) := by
  rw [iteration, hKind]
  simp only [if_neg (text_ne_nil hOut), hOut, Option.map_some]

theorem sendTcp_error_kept_iff {kind : Kind} {str : Bytes} {io : Io} {c : Client} (hRun : c.running = true)
    (hError : io.send = .error) :
    Kept kind str io.send c (sendTcp kind str io c) ↔ io.Stores str := by
  rw [← persist_kept_iff hRun, sendTcp, hError]
  have hNot : Sent.error ≠ .accepted sizeofMsg := by simp
  dsimp only
  split
  · constructor
    · rintro ⟨hRunning, hKept⟩
      rw [tryToRelogin_running] at hRunning
      rw [tryToRelogin_files] at hKept
      exact ⟨hRunning, hKept.resolve_left hNot⟩
    · rintro ⟨hRunning, hFile⟩
      refine ⟨(tryToRelogin_running _).trans hRunning, .inr ?_⟩
      rw [tryToRelogin_files]
      exact hFile
  · constructor
    · rintro ⟨hRunning, hKept⟩
      exact ⟨hRunning, hKept.resolve_left hNot⟩
    · rintro ⟨hRunning, hFile⟩
      exact ⟨hRunning, .inr hFile⟩

/-- A report survives exactly when the socket took all of it, or it went over
TCP, the send returned an error and the append succeeded. -/
theorem kept_iff {kind : Kind} {m stack : MonitorMsgDs} {out : Outgoing} (hKind : kindOf m.type = some kind)
    (hOut : serialise kind m stack = some out) (io : Io) {c : Client} (hRun : c.running = true) :
    ∃ c', iteration m stack io c = some c' ∧
      (Kept kind out.str io.send c c' ↔
        io.send = .accepted sizeofMsg ∨ (out.urgent = false ∧ io.send = .error ∧ io.Stores out.str)) := by
  refine ⟨transmit kind out io c, iteration_eq hKind hOut io c, ?_⟩
  have hUntouched : Kept kind out.str io.send c c ↔ io.send = .accepted sizeofMsg := by
    constructor
    · rintro ⟨_, hWhole | hFile⟩
      · exact hWhole
      · exact absurd hFile (untouched_ne (c.files kind) out.str)
    · intro hWhole
      exact ⟨hRun, .inl hWhole⟩
  rw [transmit]
  cases hUrgent : out.urgent with
  | true =>
    rw [if_pos rfl, hUntouched]
    simp
  | false =>
    rw [if_neg Bool.false_ne_true]
    cases hSend : io.send with
    | accepted n =>
      rw [sendTcp, hSend]
      rw [hSend] at hUntouched
      simpa using hUntouched
    | brokenPipe =>
      rw [sendTcp, hSend]
      simp only [reduceCtorEq, false_and, and_false, or_false, iff_false]
      rintro ⟨hRunning, _⟩
      cases hRunning
    | error =>
      rw [← hSend, sendTcp_error_kept_iff hRun hSend]
      simp [hSend]

def cpuLine : Bytes := lit "2021-12-13 10:00:00 0.50 0.40 0.30 7.5 45.0 normal\n"

def cpuReport : MonitorMsgDs where
  type := sysCpu
  buff := cpuLine ++ 0 :: List.replicate 448 0
  buff_length := by decide +kernel

def connected : Client := ⟨true, fun _ => none, reloginNum, 0⟩

/-- The server has reset the connection: the send raises SIGPIPE. -/
theorem report_lost : ¬ ∀ (kind : Kind) (m stack : MonitorMsgDs) (out : Outgoing) (io : Io) (c : Client),
    kindOf m.type = some kind → serialise kind m stack = some out → c.running = true →
      io.Stores out.str → ∃ c', iteration m stack io c = some c' ∧ Kept kind out.str io.send c c' := by
  intro hAll
  have hSome : (serialise .cpu cpuReport (cleared 0)).isSome = true := by decide +kernel
  obtain ⟨out, hOut⟩ := Option.isSome_iff_exists.mp hSome
  obtain ⟨c', hStep, hRunning, _⟩ := hAll .cpu cpuReport (cleared 0) out
    ⟨.brokenPipe, true, some out.str.length, true⟩ connected rfl hOut rfl ⟨rfl, ⟨_, rfl, le_rfl⟩, rfl⟩
  have hUrgent : (serialise .cpu cpuReport (cleared 0)).map Outgoing.urgent = some false := by
    decide +kernel
  rw [hOut, Option.map_some, Option.some.injEq] at hUrgent
  rw [iteration_eq rfl hOut, Option.some.injEq, transmit, hUrgent] at hStep
  subst hStep
  cases hRunning

theorem report_kept : ∃ out c', serialise .cpu cpuReport (cleared 0) = some out ∧
    iteration cpuReport (cleared 0) ⟨.error, true, some out.str.length, true⟩ connected = some c' ∧
    Kept .cpu out.str .error connected c' := by
  have hSome : (serialise .cpu cpuReport (cleared 0)).isSome = true := by decide +kernel
  obtain ⟨out, hOut⟩ := Option.isSome_iff_exists.mp hSome
  have hUrgent : (serialise .cpu cpuReport (cleared 0)).map Outgoing.urgent = some false := by
    decide +kernel
  rw [hOut, Option.map_some, Option.some.injEq] at hUrgent
  obtain ⟨c', hStep, hKept⟩ := @kept_iff .cpu cpuReport (cleared 0) out rfl hOut
    ⟨.error, true, some out.str.length, true⟩ connected rfl
  exact ⟨out, c', hOut, hStep, hKept.mpr (.inr ⟨hUrgent, rfl, rfl, ⟨_, rfl, le_rfl⟩, rfl⟩)⟩

end MonitorSystem.SendData
