import MonitorSystem.Pipeline
import MonitorSystem.Relogin
import MonitorSystem.RoundTrip

/-! # Reports kept while the connection is down

send_data_to_server takes reports one after the other and keeps those whose send
fails; between two of them the relogin thread may log in and replay the files.
Each turn is atomic here. Every report ends up on a socket once, or is still in
the file of its kind.
-/

namespace MonitorSystem.StoreForward

open Msg CJson Report SendData SendFile Saved RoundTrip Relogin MonitorSystem.Insert Payload Pipeline Lib.CString
  Lib.Stdio Lib.Transition Lib.Channel

/-- A complete report that is not urgent, as send_data_to_server takes it. -/
structure Taken where
  kind : Kind
  m : MonitorMsgDs
  stack : MonitorMsgDs
  out : Outgoing
  type : m.type = kind.type
  need : kind.need ≤ (tokens delim m.text).length
  serialised : serialise kind m stack = some out
  tcp : out.urgent = false
  fits : out.str.length ≤ 498
  sql : (rowOf kind m.text).text.length < sqlSize

/-- What has been taken and what the sockets have accepted is history. -/
structure State where
  client : Client
  taken : List Taken
  delivered : List MonitorMsgDs

inductive Turn
  | report (r : Taken) (io : Io)
  | relogin (a : Attempt)

def handed (io : Io) (msg : MonitorMsgDs) : List MonitorMsgDs :=
  match io.send with
  | .accepted _ => [msg]
  | .error | .brokenPipe => []

def resent (a : Attempt) (c : Client) (kind : Kind) : List MonitorMsgDs :=
  match (c.files kind).bind (doWithFile (linesOf kind) (fun i => Sent.ok (a.send kind i)) (a.temp kind)) with
  | none => []
  | some r => r.accepted.map (replayMessage kind)

def step (s : State) : Turn → Option State
  | .report r io =>
    if s.client.running = false then none
    else (iteration r.m r.stack io s.client).map fun c =>
      ⟨c, s.taken ++ [r], s.delivered ++ handed io r.out.msg⟩
  | .relogin a =>
    if s.client.running = false then none
    else some ⟨relogin a s.client, s.taken,
      s.delivered ++ if login a = some 1 then kinds.flatMap (resent a s.client) else []⟩

def system : System State Turn where
  start s := s.client.running = true ∧ (∀ kind, (s.client.files kind).getD [] = []) ∧ s.taken = [] ∧ s.delivered = []
  step := step

/-- A send takes the whole message or fails and the report is written to the
file. A login is rejected, or it finds the four files, the replays start with an
empty array, and the new connection takes everything. -/
def Clean (s : State) : Turn → Prop
  | .report r io => io.send = .accepted sizeofMsg ∨ (io.send = .error ∧ io.Stores r.out.str)
  | .relogin a => login a = some 0 ∨ (login a = some 1 ∧ ∀ kind, (s.client.files kind).isSome ∧
      a.emptied kind = true ∧ cstr (a.temp kind) = [] ∧ ∀ i, a.send kind i = .accepted sizeofMsg)

def Taken.row (r : Taken) : Bytes := (rowOf r.kind r.m.text).text

def textsOf (kind : Kind) (reports : List Taken) : List Bytes :=
  on kind (reports.map fun r => (r.kind, r.out.str))

/-- The reports in the files, and that all others were accepted by a socket. -/
structure Conserved (s : State) (kept : List Taken) : Prop where
  running : s.client.running = true
  files : ∀ kind, (s.client.files kind).getD [] = stored (textsOf kind kept)
  sublist : kept.Sublist s.taken
  rows : (s.delivered.filterMap statement ++ kept.map Taken.row).Perm (s.taken.map Taken.row)
  delivered : ∀ m ∈ s.delivered, (statement m).isSome

theorem Taken.complete (r : Taken) : Complete r.kind r.out.str :=
  complete_of_serialise r.serialised r.need (Nat.lt_succ_of_le (Nat.succ_le_succ r.fits))

def Taken.failed (r : Taken) : Failed r.kind where
  m := r.m
  stack := r.stack
  out := r.out
  io := ⟨.error, true, some r.out.str.length, true⟩
  type := r.type
  need := r.need
  serialised := r.serialised
  tcp := r.tcp
  fits := r.fits
  sql := r.sql
  error := rfl
  stores := ⟨rfl, ⟨_, rfl, le_rfl⟩, rfl⟩

theorem ended_of_text {m : MonitorMsgDs} (h : m.text.length < msgBuffSize) : 0 ∈ m.buff := by
  by_contra hNot
  rw [MonitorMsgDs.text, cstr_of_noNul hNot, m.buff_length] at h
  exact absurd h (Nat.lt_irrefl _)

theorem Taken.statement_eq (r : Taken) {msg : MonitorMsgDs} (hType : msg.type = r.kind.type)
    (hText : r.out.str <+: msg.text) (hFits : msg.text.length < msgBuffSize) : statement msg = some r.row := by
  have hDealt := r.failed.statement hType hText
  rw [statement, deal, if_neg (fun hBad => hBad.2 (ended_of_text hFits)), hDealt]
  rfl

theorem Taken.sent (r : Taken) : statement r.out.msg = some r.row := by
  obtain ⟨hType, hText⟩ := serialise_msg r.serialised
  apply r.statement_eq hType (hText ▸ List.prefix_rfl)
  rw [hText]
  exact (Nat.lt_succ_of_le r.fits).trans (by decide)

theorem Taken.resent (r : Taken) : statement (replayMessage r.kind (r.out.str ++ [0x0a])) = some r.row := by
  have hText := replayMessage_text r.kind r.complete.noNul_ended r.complete.length_ended
  apply r.statement_eq rfl
  · rw [hText]
    exact List.prefix_append _ _
  · rw [hText]
    exact r.complete.length_ended

theorem complete_textsOf {kind : Kind} {reports : List Taken} : ∀ t ∈ textsOf kind reports, Complete kind t := by
  intro t ht
  obtain ⟨e, he, hEq⟩ := List.mem_filterMap.mp ht
  obtain ⟨r, _, rfl⟩ := List.mem_map.mp he
  obtain ⟨rfl, hText⟩ := Option.ite_none_right_eq_some.mp hEq
  cases hText
  exact r.complete

theorem replay_texts {a : Attempt} {c : Client} {kind : Kind} {texts : List Bytes}
    (hComplete : ∀ t ∈ texts, Complete kind t) (hFile : c.files kind = some (stored texts))
    (hEmptied : a.emptied kind = true) (hTemp : cstr (a.temp kind) = [])
    (hSend : ∀ i, a.send kind i = .accepted sizeofMsg) :
    Replayable a kind (c.files kind) ∧
      resent a c kind = texts.map fun t => replayMessage kind (t ++ [0x0a]) := by
  obtain ⟨more, hLoop, hTexts⟩ := loop_stored hComplete (fun i => Sent.ok (a.send kind i)) []
  rw [List.nil_append] at hLoop
  constructor
  · refine ⟨_, hFile, hEmptied, ?_, ?_⟩
    · rw [hTemp]
      exact room_of_loop (linesOf_pos kind) hLoop
    · intro i _
      rw [hSend i]
      exact nofun
  · obtain ⟨more', hEq, hSent⟩ := loop_some (linesOf_pos kind) hLoop
    rw [List.nil_append] at hEq
    subst hEq
    have hAll := hSent.all_accepted fun i _ => congrArg Sent.ok (hSend _)
    rw [resent, hFile, Option.bind_some, doWithFile, hTemp, hLoop, Option.map_some]
    dsimp only
    rw [Replay.accepted, List.filter_eq_self.mpr hAll, hTexts, List.map_map]
    rfl

theorem statement_textsOf (kind : Kind) (reports : List Taken) :
    ((textsOf kind reports).map fun t => replayMessage kind (t ++ [0x0a])).filterMap statement =
      on kind (reports.map fun r => (r.kind, r.row)) := by
  induction reports with
  | nil => rfl
  | cons r reports ih =>
    rw [textsOf, List.map_cons, on_cons, List.map_cons, on_cons]
    split
    · rename_i hKind
      subst hKind
      rw [List.map_cons, List.filterMap_cons_some r.resent]
      exact congrArg (r.row :: ·) ih
    · exact ih

theorem isSome_textsOf {kind : Kind} {reports : List Taken} {m : MonitorMsgDs}
    (hm : m ∈ (textsOf kind reports).map fun t => replayMessage kind (t ++ [0x0a])) : (statement m).isSome := by
  obtain ⟨t, ht, rfl⟩ := List.mem_map.mp hm
  obtain ⟨e, he, hEq⟩ := List.mem_filterMap.mp ht
  obtain ⟨r, _, rfl⟩ := List.mem_map.mp he
  obtain ⟨rfl, hText⟩ := Option.ite_none_right_eq_some.mp hEq
  cases hText
  rw [r.resent]
  rfl

theorem Taken.persisted_files (r : Taken) {c : Client} {io : Io} (hRun : c.running = true) (hSend : io.send = .error)
    (hStores : io.Stores r.out.str) : (sendTcp r.kind r.out.str io c).running = true ∧
      (sendTcp r.kind r.out.str io c).files =
        Function.update c.files r.kind (some ((c.files r.kind).getD [] ++ r.out.str ++ lit "\n")) := by
  obtain ⟨n, hText, hLength⟩ := hStores.text
  have hPersist : persist r.kind r.out.str io c = { c with
      files := Function.update c.files r.kind (some ((c.files r.kind).getD [] ++ r.out.str ++ lit "\n")) } := by
    rw [persist, if_neg (by simp [hStores.opened]), hText]
    dsimp only
    rw [List.take_of_length_le hLength, if_pos hStores.newline, Client.append, append_files, Client.append,
      Function.update_idem, Option.getD_some]
  rw [sendTcp, hSend]
  dsimp only
  rw [hPersist]
  split
  · rw [tryToRelogin_running, tryToRelogin_files]
    exact ⟨hRun, rfl⟩
  · exact ⟨hRun, rfl⟩

theorem replays_emptied {a : Attempt} {c : Client} (hRun : c.running = true) {kinds : List Kind} (hNodup : kinds.Nodup)
    (hFiles : ∀ kind ∈ kinds, Replayable a kind (c.files kind)) :
    (kinds.foldl (replay a) c).running = true ∧
      ∀ kind, (kinds.foldl (replay a) c).files kind = if kind ∈ kinds then some [] else c.files kind := by
  induction kinds generalizing c with
  | nil => exact ⟨hRun, fun kind => by simp⟩
  | cons first kinds ih =>
    obtain ⟨hFresh, hRest⟩ := List.nodup_cons.mp hNodup
    obtain ⟨_, hReplay⟩ | ⟨hNot, _⟩ := replay_cases a hRun first
    · rw [List.foldl_cons, hReplay]
      have hOthers : ∀ kind ∈ kinds, Replayable a kind (Function.update c.files first (some []) kind) := by
        intro kind hKind
        rw [Function.update_of_ne]
        · exact hFiles kind (List.mem_cons_of_mem _ hKind)
        · rintro rfl
          exact hFresh hKind
      obtain ⟨hRunning, hEmptied⟩ := ih (c := { c with files := Function.update c.files first (some []) }) hRun hRest
        hOthers
      refine ⟨hRunning, ?_⟩
      intro kind
      rw [hEmptied kind]
      obtain rfl | hNe := eq_or_ne kind first
      · simp
      · simp [hNe]
    · exact absurd (hFiles first List.mem_cons_self) hNot

theorem step_report (r : Taken) (io : Io) {s : State} (hRun : s.client.running = true) :
    step s (.report r io) =
      some ⟨sendTcp r.kind r.out.str io s.client, s.taken ++ [r], s.delivered ++ handed io r.out.msg⟩ := by
  have hIteration := iteration_eq (r.type ▸ kindOf_type r.kind) r.serialised io s.client
  rw [step, if_neg (ne_false_of_eq_true hRun), hIteration, Option.map_some, transmit, r.tcp, if_neg Bool.false_ne_true]

theorem step_relogin (a : Attempt) {s : State} (hRun : s.client.running = true) :
    step s (.relogin a) = some ⟨relogin a s.client, s.taken,
      s.delivered ++ if login a = some 1 then kinds.flatMap (resent a s.client) else []⟩ :=
  if_neg (ne_false_of_eq_true hRun)

theorem conserved_accepted {s t : State} {kept : List Taken} {r : Taken} {io : Io} (h : Conserved s kept)
    (hSend : io.send = .accepted sizeofMsg) (hStep : step s (.report r io) = some t) : Conserved t kept := by
  have hSame : sendTcp r.kind r.out.str io s.client = s.client := by
    rw [sendTcp, hSend]
  have hHanded : handed io r.out.msg = [r.out.msg] := by
    rw [handed, hSend]
  rw [step_report r io h.running, hSame, hHanded] at hStep
  rw [← Option.some.inj hStep]
  refine ⟨h.running, h.files, h.sublist.trans (List.sublist_append_left _ _), ?_, ?_⟩
  · dsimp only
    rw [List.filterMap_append, List.filterMap_cons_some r.sent, List.filterMap_nil, List.map_append, List.map_singleton,
      List.append_assoc]
    have hSwap : ([r.row] ++ kept.map Taken.row).Perm (kept.map Taken.row ++ [r.row]) := List.perm_append_comm
    refine (hSwap.append_left _).trans ?_
    rw [← List.append_assoc]
    exact h.rows.append_right _
  · intro m hm
    obtain hOld | hNew := List.mem_append.mp hm
    · exact h.delivered m hOld
    · rw [List.mem_singleton.mp hNew, r.sent]
      rfl

theorem conserved_failed {s t : State} {kept : List Taken} {r : Taken} {io : Io} (h : Conserved s kept)
    (hSend : io.send = .error) (hStores : io.Stores r.out.str) (hStep : step s (.report r io) = some t) :
    Conserved t (kept ++ [r]) := by
  obtain ⟨hRunning, hFiles⟩ := r.persisted_files h.running hSend hStores
  have hHanded : handed io r.out.msg = [] := by
    rw [handed, hSend]
  rw [step_report r io h.running, hHanded, List.append_nil] at hStep
  rw [← Option.some.inj hStep]
  refine ⟨hRunning, ?_, h.sublist.append (List.Sublist.refl _), ?_, h.delivered⟩
  · intro kind
    dsimp only
    rw [hFiles, textsOf, List.map_append, List.map_singleton]
    obtain rfl | hNe := eq_or_ne kind r.kind
    · rw [Function.update_self, on_concat_self, stored_concat, Option.getD_some, h.files]
      rfl
    · rw [Function.update_of_ne hNe, on_concat_ne hNe.symm]
      exact h.files kind
  · dsimp only
    rw [List.map_append, List.map_append, ← List.append_assoc]
    exact h.rows.append_right _

theorem conserved_rejected {s t : State} {kept : List Taken} {a : Attempt} (h : Conserved s kept)
    (hLogin : login a = some 0) (hStep : step s (.relogin a) = some t) : Conserved t kept := by
  have hTurn : relogin a s.client = { s.client with checkForRelogin := reloginNum } := by
    rw [relogin, hLogin]
    rfl
  rw [step_relogin a h.running, hTurn, hLogin, if_neg (by decide), List.append_nil] at hStep
  rw [← Option.some.inj hStep]
  exact ⟨h.running, h.files, h.sublist, h.rows, h.delivered⟩

theorem conserved_replayed {s t : State} {kept : List Taken} {a : Attempt} (h : Conserved s kept)
    (hLogin : login a = some 1) (hReady : ∀ kind, (s.client.files kind).isSome ∧
      a.emptied kind = true ∧ cstr (a.temp kind) = [] ∧ ∀ i, a.send kind i = .accepted sizeofMsg)
    (hStep : step s (.relogin a) = some t) : Conserved t [] := by
  have hReplay : ∀ kind, Replayable a kind (s.client.files kind) ∧ resent a s.client kind =
      (textsOf kind kept).map fun t => replayMessage kind (t ++ [0x0a]) := by
    intro kind
    obtain ⟨hSome, hEmptied, hTemp, hSend⟩ := hReady kind
    obtain ⟨file, hFile⟩ := Option.isSome_iff_exists.mp hSome
    have hStored := h.files kind
    rw [hFile, Option.getD_some] at hStored
    exact replay_texts complete_textsOf (hFile.trans (congrArg some hStored)) hEmptied hTemp hSend
  have hTurn : relogin a s.client = kinds.foldl (replay a) { s.client with checkForRelogin := reloginNum } := by
    rw [relogin, hLogin]
    rfl
  have hNodup : kinds.Nodup := by decide
  obtain ⟨hRunning, hFiles⟩ := replays_emptied (a := a) (c := { s.client with checkForRelogin := reloginNum })
    h.running hNodup fun kind _ => (hReplay kind).1
  rw [← hTurn] at hRunning hFiles
  have hResent : (kinds.flatMap (resent a s.client)).filterMap statement =
      kinds.flatMap fun kind => on kind (kept.map fun r => (r.kind, r.row)) := by
    rw [List.filterMap_flatMap]
    apply List.flatMap_congr
    intro kind _
    rw [(hReplay kind).2]
    exact statement_textsOf kind kept
  have hRows : ((kinds.flatMap (resent a s.client)).filterMap statement).Perm (kept.map Taken.row) := by
    rw [hResent]
    have hKinds : ∀ e ∈ kept.map (fun r => (r.kind, r.row)), e.1 ∈ kinds := fun e _ => mem_kinds e.1
    have hAll := flatMap_on_perm hNodup hKinds
    rwa [List.map_map] at hAll
  rw [step_relogin a h.running, if_pos hLogin] at hStep
  rw [← Option.some.inj hStep]
  refine ⟨hRunning, ?_, List.nil_sublist _, ?_, ?_⟩
  · intro kind
    dsimp only
    rw [hFiles kind, if_pos (mem_kinds kind)]
    rfl
  · dsimp only
    rw [List.filterMap_append, List.map_nil, List.append_nil]
    exact (hRows.append_left _).trans h.rows
  · intro m hm
    obtain hOld | hNew := List.mem_append.mp hm
    · exact h.delivered m hOld
    · obtain ⟨kind, _, hMem⟩ := List.mem_flatMap.mp hNew
      rw [(hReplay kind).2] at hMem
      exact isSome_textsOf hMem

theorem conserved_step {s t : State} {kept : List Taken} {turn : Turn} (h : Conserved s kept) (hClean : Clean s turn)
    (hStep : step s turn = some t) : ∃ kept', Conserved t kept' := by
  cases turn with
  | report r io =>
    obtain hSend | ⟨hSend, hStores⟩ := hClean
    · exact ⟨kept, conserved_accepted h hSend hStep⟩
    · exact ⟨kept ++ [r], conserved_failed h hSend hStores hStep⟩
  | relogin a =>
    obtain hLogin | ⟨hLogin, hReady⟩ := hClean
    · exact ⟨kept, conserved_rejected h hLogin hStep⟩
    · exact ⟨[], conserved_replayed h hLogin hReady hStep⟩

/-- However sends fail and logins succeed, each report was accepted by a socket
once, as a message that leads to its row, or is still in the file of its kind. -/
theorem conserved_of_turns {s : State} (h : ReachableUnder system Clean s) : ∃ kept, Conserved s kept := by
  refine ReachableUnder.invariant (I := fun s => ∃ kept, Conserved s kept) ?_ ?_ h
  · rintro s ⟨hRun, hFiles, hTaken, hDelivered⟩
    refine ⟨[], hRun, hFiles, List.nil_sublist _, ?_, ?_⟩
    · rw [hTaken, hDelivered]
      rfl
    · intro m hm
      rw [hDelivered] at hm
      cases hm
  · rintro s turn t ⟨kept, hConserved⟩ hClean hStep
    exact conserved_step hConserved hClean hStep

theorem Conserved.kept_nil {s : State} {kept : List Taken} (h : Conserved s kept)
    (hEmpty : ∀ kind, (s.client.files kind).getD [] = []) : kept = [] := by
  cases kept with
  | nil => rfl
  | cons r kept =>
    have hNone := stored_eq_nil ((h.files r.kind).symm.trans (hEmpty r.kind))
    rw [textsOf, List.map_cons, on_cons, if_pos rfl] at hNone
    cases hNone

def fresh : State := ⟨{ connected with files := fun _ => some [] }, [], []⟩

theorem cpu_isSome : (serialise .cpu cpuReport (cleared 0)).isSome := by decide +kernel

def cpuOut : Outgoing := (serialise .cpu cpuReport (cleared 0)).get cpu_isSome

theorem cpu_type : cpuReport.type = Kind.cpu.type := rfl

theorem cpuOut_eq : serialise .cpu cpuReport (cleared 0) = some cpuOut := (Option.some_get cpu_isSome).symm

theorem cpuOut_fits : cpuOut.urgent = false ∧ cpuOut.str.length ≤ 498 := by decide +kernel

theorem cpu_row : Kind.cpu.need ≤ (tokens delim cpuReport.text).length ∧
    (rowOf .cpu cpuReport.text).text.length < sqlSize := by decide +kernel

def cpuTaken : Taken :=
  ⟨.cpu, cpuReport, cleared 0, cpuOut, cpu_type, cpu_row.1, cpuOut_eq, cpuOut_fits.1, cpuOut_fits.2, cpu_row.2⟩

def failing : Io := ⟨.error, true, some cpuTaken.out.str.length, true⟩

theorem clean_failing (s : State) : Clean s (.report cpuTaken failing) := .inr ⟨rfl, rfl, ⟨_, rfl, le_rfl⟩, rfl⟩

theorem clean_welcomed {s : State} (h : (kinds.all fun kind => (s.client.files kind).isSome) = true) :
    Clean s (.relogin Attempt.welcomed) :=
  .inr ⟨by decide, fun kind => ⟨List.all_eq_true.mp h kind (mem_kinds kind), rfl, rfl, fun _ => rfl⟩⟩

/-- A report fails, is kept, and is replayed after the next login. -/
theorem conserved_once : ∃ s kept, s.taken.length = 1 ∧ s.delivered.length = 1 ∧ Conserved s kept := by
  have hKept : (system.step fresh (.report cpuTaken failing)).map
      (fun s => kinds.all fun kind => (s.client.files kind).isSome) = some true := by decide +kernel
  have hRun : (system.run fresh [.report cpuTaken failing, .relogin Attempt.welcomed]).map
      (fun s => (s.taken.length, s.delivered.length)) = some (1, 1) := by decide +kernel
  obtain ⟨failed, hFail, hFiles⟩ := Option.map_eq_some_iff.mp hKept
  obtain ⟨s, hRun, hSeen⟩ := Option.map_eq_some_iff.mp hRun
  obtain ⟨hTaken, hDelivered⟩ := Prod.mk.inj hSeen
  rw [run_cons, hFail, Option.bind_some, run_cons] at hRun
  obtain ⟨s', hReplay, hEq⟩ := Option.bind_eq_some_iff.mp hRun
  cases hEq
  have hStart : ReachableUnder system Clean fresh := .start ⟨rfl, fun _ => rfl, rfl, rfl⟩
  have hFailed := hStart.step (clean_failing fresh) hFail
  obtain ⟨kept, hConserved⟩ := conserved_of_turns (hFailed.step (clean_welcomed hFiles) hReplay)
  exact ⟨s, kept, hTaken, hDelivered, hConserved⟩

end MonitorSystem.StoreForward
