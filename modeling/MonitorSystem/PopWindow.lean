import MonitorSystem.TaskFifo

/-! # How long the address that pop returns is valid

pop hands out the slot of a message without copying it. The ring writes that
slot again one lap after the message was pushed, and a lap needs further pops.
-/

namespace MonitorSystem.PopWindow

open Msg ThreadPool TaskFifo Lib.Ring Lib.Refine

/-- The pushes of a run that were not refused. -/
def accepted (replies : List Reply) : Nat := replies.count (.returned 1)

/-- What becomes of the slot in every run that follows the pop, c being the
number of messages that the pop left in the queue. -/
structure Window (n c slot : Nat) (msg : MonitorMsgDs) (tp : TaskQueue) : Prop where
  holds : ∀ ops tp' replies, ring.run tp ops = some (tp', replies) → accepted replies ≤ n - 1 - c →
    tp'.data slot = msg
  spared : ∀ ops tp' replies arg next, ring.run tp ops = some (tp', replies) → accepted replies + 1 ≤ n - 1 - c →
    push tp' arg = some (1, next) → tp'.tail ≠ slot
  overwritten : ∀ ops tp' replies arg next, ring.run tp ops = some (tp', replies) → accepted replies + 1 = n - c →
    push tp' arg = some (1, next) → tp'.tail = slot ∧ next.data slot = arg
  another : ∀ ops tp' replies arg next, ring.run tp ops = some (tp', replies) → accepted replies + 1 = n - c →
    push tp' arg = some (1, next) → Op.pop ∈ ops
  single : ∀ ops tp' replies, ring.run tp ops = some (tp', replies) → Op.pop ∉ ops → tp'.data slot = msg

section

variable {tp tp' : TaskQueue} {pushed : List MonitorMsgDs} {popped : Nat}

theorem accepted_cons (reply : Reply) (replies : List Reply) :
    accepted (reply :: replies) = if reply = .returned 1 then accepted replies + 1 else accepted replies := by
  rw [accepted, List.count_cons, accepted]
  by_cases hRes : reply = .returned 1
  · rw [if_pos hRes, if_pos (beq_iff_eq.mpr hRes)]
  · rw [if_neg hRes, if_neg (fun hEq => hRes (beq_iff_eq.mp hEq)), Nat.add_zero]

theorem push_accepted (h : Tracks tp pushed popped) {arg : MonitorMsgDs} (hPush : push tp arg = some (1, tp')) :
    pushed.length + 1 < popped + tp.taskQueueSize ∧ tp'.data (pushed.length % tp.taskQueueSize) = arg := by
  obtain ⟨_, hRefused⟩ | ⟨hFree, next, hAccepted, hData, _⟩ := h.push_cases arg
  · cases hRefused.symm.trans hPush
  · cases hAccepted.symm.trans hPush
    refine ⟨hFree, ?_⟩
    rw [hData, ← h.tail, Function.update_self]

theorem tracks_run {ops : List Op} {replies : List Reply} (h : Tracks tp pushed popped)
    (hRun : ring.run tp ops = some (tp', replies)) :
    ∃ more pops, Tracks tp' (pushed ++ more) (popped + pops) ∧ more.length = accepted replies ∧
      tp'.taskQueueSize = tp.taskQueueSize ∧ (0 < pops → Op.pop ∈ ops) := by
  induction ops generalizing tp pushed popped replies with
  | nil =>
    cases hRun
    refine ⟨[], 0, ?_, rfl, rfl, fun hPos => absurd hPos (Nat.lt_irrefl 0)⟩
    rwa [List.append_nil]
  | cons op ops ih =>
    obtain ⟨next, reply, rest, hStep, hRest, rfl⟩ := Machine.of_run_cons hRun
    cases op with
    | push arg =>
      obtain ⟨r, hPush, hEq⟩ := Option.map_eq_some_iff.mp hStep
      cases hEq
      obtain ⟨_, hRefused⟩ | ⟨_, tp₁, hAccepted, _, hSame, hNext⟩ := h.push_cases arg
      · cases hRefused.symm.trans hPush
        obtain ⟨more, pops, hTracks, hMore, hSize, hPops⟩ := ih h hRest
        refine ⟨more, pops, hTracks, ?_, hSize, fun hPos => List.mem_cons_of_mem _ (hPops hPos)⟩
        rw [hMore, accepted_cons, if_neg (by simp)]
      · cases hAccepted.symm.trans hPush
        obtain ⟨more, pops, hTracks, hMore, hSize, hPops⟩ := ih hNext hRest
        refine ⟨arg :: more, pops, ?_, ?_, hSize.trans hSame, fun hPos => List.mem_cons_of_mem _ (hPops hPos)⟩
        · rwa [List.append_assoc] at hTracks
        · rw [List.length_cons, hMore, accepted_cons, if_pos rfl]
    | pop =>
      obtain ⟨⟨slot, popTp⟩, hPop, hEq⟩ := Option.map_eq_some_iff.mp hStep
      cases hEq
      obtain ⟨_, _, _, hSame, hNext⟩ := h.pop_some hPop
      obtain ⟨more, pops, hTracks, hMore, hSize, _⟩ := ih hNext hRest
      refine ⟨more, pops + 1, ?_, ?_, hSize.trans hSame, fun _ => List.mem_cons_self⟩
      · rwa [Nat.add_assoc, Nat.add_comm 1] at hTracks
      · rw [hMore, accepted_cons, if_neg (by simp)]

theorem window_of_tracks {msg : MonitorMsgDs} (h : Tracks tp pushed (popped + 1))
    (hMsg : pushed[popped]? = some msg) :
    Window tp.taskQueueSize (pushed.length - (popped + 1)) (popped % tp.taskQueueSize) msg tp := by
  have hLap := h.lt_lap
  have hLe := h.popped_le
  have hOld (more : List MonitorMsgDs) : (pushed ++ more)[popped]? = some msg :=
    (List.getElem?_append_left (Nat.lt_of_succ_le hLe)).trans hMsg
  constructor
  · intro ops tp' replies hRun hFew
    obtain ⟨more, pops, hTracks, hMore, hSize, _⟩ := tracks_run h hRun
    have hData := hTracks.recent popped msg (hOld more)
    rw [hSize, List.length_append] at hData
    exact hData (by omega)
  · intro ops tp' replies arg next hRun hFew _
    obtain ⟨more, pops, hTracks, hMore, hSize, _⟩ := tracks_run h hRun
    rw [hTracks.tail, hSize, List.length_append, Ne, cell_inj (by omega) (by omega)]
    omega
  · intro ops tp' replies arg next hRun hCount hPush
    obtain ⟨more, pops, hTracks, hMore, hSize, _⟩ := tracks_run h hRun
    obtain ⟨_, hWritten⟩ := push_accepted hTracks hPush
    have hLast : pushed.length + more.length = popped + tp.taskQueueSize := by omega
    rw [hSize, List.length_append, hLast, Nat.add_mod_right] at hWritten
    refine ⟨?_, hWritten⟩
    rw [hTracks.tail, hSize, List.length_append, hLast, Nat.add_mod_right]
  · intro ops tp' replies arg next hRun hCount hPush
    obtain ⟨more, pops, hTracks, hMore, hSize, hPops⟩ := tracks_run h hRun
    obtain ⟨hFree, _⟩ := push_accepted hTracks hPush
    rw [hSize, List.length_append] at hFree
    exact hPops (by omega)
  · intro ops tp' replies hRun hNone
    obtain ⟨more, pops, hTracks, hMore, hSize, hPops⟩ := tracks_run h hRun
    have hZero : pops = 0 := Nat.eq_zero_of_not_pos fun hPos => hNone (hPops hPos)
    have hLap' := hTracks.lt_lap
    have hData := hTracks.recent popped msg (hOld more)
    rw [hSize, List.length_append] at hData hLap'
    exact hData (by omega)

end

/-- The slot keeps the popped message up to the push before the (n - c)-th, and
that one writes it; without another pop it cannot happen. -/
theorem pop_window {n : Nat} (hn : 2 ≤ n) {memory : Nat → MonitorMsgDs} {before : List Op} {tp : TaskQueue}
    {replies : List Reply} (hReach : ring.run (taskQueueInit n memory) before = some (tp, replies)) {slot : Nat}
    {tp' : TaskQueue} (hPop : pop tp = some (slot, tp')) {c : Nat} (hQueued : tp'.curNum = c) :
    Window n c slot (tp.data slot) tp' := by
  obtain ⟨pushed, popped, hTracks, _, hSize, _⟩ := tracks_run (tracks_init (by omega) memory) hReach
  rw [List.nil_append, Nat.zero_add] at hTracks
  obtain ⟨hLess, rfl, _, hSize', hNext⟩ := hTracks.pop_some hPop
  have hHead : pushed[popped]? = some pushed[popped] := List.getElem?_eq_getElem hLess
  have hCur := hNext.curNum
  have hWindow := window_of_tracks hNext hHead
  have hCount : pushed.length - (popped + 1) = c := by omega
  have hN : tp'.taskQueueSize = n := hSize'.trans hSize
  rw [hCount, hN] at hWindow
  have hN' : tp.taskQueueSize = n := hSize
  rw [hTracks.data_head hHead, hN']
  exact hWindow

/-- Three slots, two messages, of which one is popped. -/
theorem pop_window_three : ∃ tp tp' replies,
    ring.run (taskQueueInit 3 fun _ => cleared 0) [.push (cleared sysMem), .push (cleared sysCpu)] = some (tp, replies) ∧
      pop tp = some (0, tp') ∧ Window 3 1 0 (cleared sysMem) tp' :=
  ⟨_, _, _, rfl, rfl, @pop_window 3 (by decide) (fun _ => cleared 0) [.push (cleared sysMem), .push (cleared sysCpu)]
    _ _ rfl 0 _ rfl 1 rfl⟩

end MonitorSystem.PopWindow
