import MonitorSystem.Lib.Transition
import MonitorSystem.ThreadPool
import Mathlib.Data.Fintype.Basic
import Mathlib.Data.List.Nodup

/-! # Worker threads reading the slots that pop hands out

pop returns the address of a slot after unlocking, so the read of that slot in
deal_with_monitor_msg is a step of its own and other threads run in between.
The set of workers is an arbitrary type.
-/

namespace MonitorSystem.Workers

open Msg ThreadPool Lib.Transition

/-- A worker between the return of pop and its read of the slot. The number of
the pop and the message then in the slot are kept for the specification only. -/
structure Task where
  slot : Nat
  seq : Nat
  head : MonitorMsgDs

structure Processed (W : Type) where
  worker : W
  seq : Nat
  head : MonitorMsgDs
  msg : MonitorMsgDs

structure Pool (W : Type) where
  tq : TaskQueue
  task : W → Option Task
  pushed : List MonitorMsgDs
  popped : Nat
  processed : List (Processed W)

inductive Act (W : Type)
  | push (msg : MonitorMsgDs)
  | pop (w : W)
  | deal (w : W)

variable {W : Type}

def step [DecidableEq W] (s : Pool W) : Act W → Option (Pool W)
  | .push msg => (push s.tq msg).map fun r =>
      { s with tq := r.2, pushed := if r.1 = (1 : Int) then s.pushed ++ [msg] else s.pushed }
  | .pop w =>
    match s.task w with
    | some _ => none
    | none => (pop s.tq).map fun r =>
      { s with
        tq := r.2
        task := Function.update s.task w (some ⟨r.1, s.popped, s.tq.data r.1⟩)
        popped := s.popped + 1 }
  | .deal w => (s.task w).map fun t =>
      { s with
        task := Function.update s.task w none
        processed := s.processed ++ [⟨w, t.seq, t.head, s.tq.data t.slot⟩] }

def initial (W : Type) (n : Nat) (memory : Nat → MonitorMsgDs) : Pool W :=
  ⟨taskQueueInit n memory, fun _ => none, [], 0, []⟩

def system (W : Type) [DecidableEq W] (n : Nat) : System (Pool W) (Act W) where
  start s := ∃ memory, s = initial W n memory
  step := step

theorem start_initial (W : Type) [DecidableEq W] (n : Nat) (memory : Nat → MonitorMsgDs) :
    (system W n).start (initial W n memory) := ⟨memory, rfl⟩

/-- Every processed message is the one at the head when its pop ran, and every
pushed message is queued, held by one worker, or was processed once. -/
structure ExactlyOnce (s : Pool W) : Prop where
  same : ∀ p ∈ s.processed, p.msg = p.head
  pushed : ∀ p ∈ s.processed, s.pushed[p.seq]? = some p.head
  once : (s.processed.map Processed.seq).Nodup
  held_once : ∀ w w' t t', s.task w = some t → s.task w' = some t' → t.seq = t'.seq → w = w'
  held_apart : ∀ w t, s.task w = some t → t.seq < s.popped ∧ t.seq ∉ s.processed.map Processed.seq
  done_popped : ∀ p ∈ s.processed, p.seq < s.popped
  accounted : ∀ k < s.popped,
    (∃ w t, s.task w = some t ∧ t.seq = k) ∨ k ∈ s.processed.map Processed.seq

/-- A push that is not refused writes no slot that a worker still has to read. -/
def SlotFree (s : Pool W) : Act W → Prop
  | .push _ => s.tq.head = (s.tq.tail + 1) % s.tq.taskQueueSize ∨
      ∀ w t, s.task w = some t → t.slot ≠ s.tq.tail
  | _ => True

structure Inv (s : Pool W) : Prop extends ExactlyOnce s where
  tracks : Tracks s.tq s.pushed s.popped
  held : ∀ w t, s.task w = some t → s.pushed[t.seq]? = some t.head ∧ s.tq.data t.slot = t.head

theorem inv_initial {n : Nat} (hn : 0 < n) (memory : Nat → MonitorMsgDs) :
    Inv (initial W n memory) where
  same p hp := by cases hp
  pushed p hp := by cases hp
  once := List.nodup_nil
  held_once w w' t t' ht := by cases ht
  held_apart w t ht := by cases ht
  done_popped p hp := by cases hp
  accounted k hk := by cases hk
  tracks := tracks_init hn memory
  held w t ht := by cases ht

variable [DecidableEq W]

theorem inv_push {s t : Pool W} {msg : MonitorMsgDs} (h : Inv s) (hFree : SlotFree s (.push msg))
    (hStep : step s (.push msg) = some t) : Inv t := by
  rw [step, Option.map_eq_some_iff] at hStep
  obtain ⟨r, hPush, rfl⟩ := hStep
  obtain ⟨_, hRefused⟩ | ⟨hRoom, tq', hAccepted, hData', _, hTracks⟩ := h.tracks.push_cases msg
  · cases hRefused.symm.trans hPush
    exact h
  · cases hAccepted.symm.trans hPush
    rw [if_pos rfl]
    have hOther : ∀ w t, s.task w = some t → t.slot ≠ s.tq.tail := by
      obtain hEq | hFree := hFree
      · have hFull := h.tracks.full_iff.mp hEq
        omega
      · exact hFree
    have hGrow : ∀ (k : Nat) m, s.pushed[k]? = some m → (s.pushed ++ [msg])[k]? = some m := by
      intro k m hm
      rw [List.getElem?_append_left (List.getElem?_eq_some_iff.mp hm).1]
      exact hm
    refine { h with tracks := hTracks, pushed := fun p hp => hGrow _ _ (h.pushed p hp), held := ?_ }
    intro w t ht
    obtain ⟨hPushed, hData⟩ := h.held w t ht
    refine ⟨hGrow _ _ hPushed, ?_⟩
    rw [hData', Function.update_of_ne (hOther w t ht), hData]

theorem step_push_free {s t : Pool W} {msg : MonitorMsgDs} (h : Inv s) (hRoom : HasRoom s.tq)
    (hStep : step s (.push msg) = some t) :
    (push s.tq msg).map Prod.fst = some 1 ∧ t.pushed = s.pushed ++ [msg] ∧ t.processed = s.processed := by
  obtain ⟨tq', hPush, _⟩ := h.tracks.push_free (h.tracks.hasRoom_iff.mp hRoom) msg
  rw [step, hPush] at hStep
  rw [hPush]
  cases hStep
  exact ⟨rfl, rfl, rfl⟩

theorem inv_pop {s t : Pool W} {w : W} (h : Inv s) (hStep : step s (.pop w) = some t) : Inv t := by
  simp only [step] at hStep
  cases hTask : s.task w with
  | some _ => simp [hTask] at hStep
  | none =>
    simp only [hTask] at hStep
    obtain ⟨⟨slot, tq'⟩, hPop, hEq⟩ := Option.map_eq_some_iff.mp hStep
    subst hEq
    obtain ⟨hLt, hSlot, hData, _, hTracks⟩ := h.tracks.pop_some hPop
    have hHead : s.pushed[s.popped]? = some (s.tq.data slot) := by
      obtain ⟨m, hm⟩ : ∃ m, s.pushed[s.popped]? = some m := ⟨_, List.getElem?_eq_getElem hLt⟩
      rw [hm, hSlot, h.tracks.data_head hm]
    have hFresh : s.popped ∉ s.processed.map Processed.seq := by
      intro hMem
      obtain ⟨p, hp, hSeq⟩ := List.mem_map.mp hMem
      exact absurd (h.done_popped p hp) (by omega)
    refine { h with
      held_once := ?_, held_apart := ?_, done_popped := ?_, accounted := ?_, tracks := hTracks, held := ?_ }
    · intro w₁ w₂ t₁ t₂ h₁ h₂ hSeq
      obtain ⟨hw₁, ⟨⟩⟩ | ⟨_, hOld₁⟩ := update_cases h₁
      · obtain ⟨hw₂, _⟩ | ⟨_, hOld₂⟩ := update_cases h₂
        · exact hw₁.trans hw₂.symm
        · exact absurd hSeq.symm (h.held_apart _ _ hOld₂).1.ne
      · obtain ⟨_, ⟨⟩⟩ | ⟨_, hOld₂⟩ := update_cases h₂
        · exact absurd hSeq (h.held_apart _ _ hOld₁).1.ne
        · exact h.held_once _ _ _ _ hOld₁ hOld₂ hSeq
    · intro w' t' ht
      obtain ⟨_, ⟨⟩⟩ | ⟨_, ht⟩ := update_cases ht
      · exact ⟨Nat.lt_succ_self _, hFresh⟩
      · exact ⟨(h.held_apart _ _ ht).1.trans (Nat.lt_succ_self _), (h.held_apart _ _ ht).2⟩
    · intro p hp
      exact (h.done_popped p hp).trans (Nat.lt_succ_self _)
    · intro k hk
      obtain hk | rfl := Nat.lt_succ_iff_lt_or_eq.mp hk
      · obtain ⟨w', t', ht, hSeq⟩ | hDone := h.accounted k hk
        · have hw : w' ≠ w := by
            rintro rfl
            rw [hTask] at ht
            cases ht
          exact .inl ⟨w', t', (Function.update_of_ne hw _ _).trans ht, hSeq⟩
        · exact .inr hDone
      · exact .inl ⟨w, _, Function.update_self .., rfl⟩
    · intro w' t' ht
      obtain ⟨_, ⟨⟩⟩ | ⟨_, ht⟩ := update_cases ht
      · exact ⟨hHead, congrFun hData slot⟩
      · exact ⟨(h.held _ _ ht).1, (congrFun hData _).trans (h.held _ _ ht).2⟩

theorem inv_deal {s t : Pool W} {w : W} (h : Inv s) (hStep : step s (.deal w) = some t) : Inv t := by
  obtain ⟨task, hTask, hEq⟩ := Option.map_eq_some_iff.mp hStep
  subst hEq
  obtain ⟨hPushed, hData⟩ := h.held w task hTask
  obtain ⟨hLt, hNew⟩ := h.held_apart w task hTask
  have hOther : ∀ w' t', Function.update s.task w none w' = some t' → w' ≠ w ∧ s.task w' = some t' := by
    intro w' t' ht
    obtain ⟨_, ⟨⟩⟩ | hOld := update_cases ht
    exact hOld
  have hMem : ∀ p, p ∈ s.processed ++ [⟨w, task.seq, task.head, s.tq.data task.slot⟩] →
      p ∈ s.processed ∨ p = ⟨w, task.seq, task.head, s.tq.data task.slot⟩ := by
    intro p hp
    simpa using hp
  refine { h with
    same := ?_, pushed := ?_, once := ?_, held_once := ?_, held_apart := ?_, done_popped := ?_,
    accounted := ?_, held := ?_ }
  · intro p hp
    obtain hp | rfl := hMem p hp
    · exact h.same p hp
    · exact hData
  · intro p hp
    obtain hp | rfl := hMem p hp
    · exact h.pushed p hp
    · exact hPushed
  · rw [List.map_append, List.map_singleton, List.nodup_append]
    refine ⟨h.once, List.nodup_singleton _, ?_⟩
    rintro a ha b hb rfl
    rw [List.mem_singleton.mp hb] at ha
    exact hNew ha
  · intro w₁ w₂ t₁ t₂ h₁ h₂
    exact h.held_once _ _ _ _ (hOther _ _ h₁).2 (hOther _ _ h₂).2
  · intro w' t' ht
    obtain ⟨hw, ht⟩ := hOther _ _ ht
    obtain ⟨hLt', hNew'⟩ := h.held_apart _ _ ht
    refine ⟨hLt', ?_⟩
    rw [List.map_append, List.mem_append, not_or]
    refine ⟨hNew', fun hSeq => hw ?_⟩
    exact h.held_once _ _ _ _ ht hTask (List.mem_singleton.mp hSeq)
  · intro p hp
    obtain hp | rfl := hMem p hp
    · exact h.done_popped p hp
    · exact hLt
  · intro k hk
    rw [List.map_append, List.mem_append]
    obtain ⟨w', t', ht, hSeq⟩ | hDone := h.accounted k hk
    · by_cases hw : w' = w
      · subst hw
        rw [hTask] at ht
        cases ht
        exact .inr (.inr (by simp [hSeq]))
      · exact .inl ⟨w', t', (Function.update_of_ne hw _ _).trans ht, hSeq⟩
    · exact .inr (.inl hDone)
  · intro w' t' ht
    exact h.held _ _ (hOther _ _ ht).2

theorem inv_step {s t : Pool W} {a : Act W} (h : Inv s) (hFree : SlotFree s a)
    (hStep : step s a = some t) : Inv t := by
  cases a with
  | push msg => exact inv_push h hFree hStep
  | pop w => exact inv_pop h hStep
  | deal w => exact inv_deal h hStep

/-- As long as no push overwrites a slot still to be read, every message is
processed as it was popped, by exactly one worker. -/
theorem exactlyOnce_of_slotFree {n : Nat} (hn : 2 ≤ n) {s : Pool W}
    (h : ReachableUnder (system W n) SlotFree s) : ExactlyOnce s := by
  have hInv : Inv s := by
    refine ReachableUnder.invariant ?_ (fun s a t => inv_step) h
    rintro s ⟨memory, rfl⟩
    exact inv_initial (by omega) memory
  exact hInv.toExactlyOnce

def overtaken : List (Act Bool) :=
  [.push (cleared sysMem), .pop true, .push (cleared sysCpu), .pop false, .push (cleared sysDisk),
    .deal true]

theorem slot_overwritten :
    ¬ ∀ (W : Type) [DecidableEq W] (n : Nat), 2 ≤ n →
      ∀ s, Reachable (system W n) s → ExactlyOnce s := by
  intro hAll
  have hRun : ((system Bool 2).run (initial Bool 2 fun _ => cleared 0) overtaken).map Pool.processed =
      some [⟨true, 0, cleared sysMem, cleared sysDisk⟩] := rfl
  obtain ⟨s, hReach, hProcessed⟩ := Reachable.of_observed (start_initial _ _ _) hRun
  have hSame := (hAll Bool 2 le_rfl s hReach).same ⟨true, 0, cleared sysMem, cleared sysDisk⟩
    (hProcessed ▸ List.mem_singleton_self _)
  exact absurd (congrArg MonitorMsgDs.type hSame) (by decide)

instance [Fintype W] : ∀ (s : Pool W) (a : Act W), Decidable (SlotFree s a)
  | s, .push _ => decidable_of_iff (s.tq.head = (s.tq.tail + 1) % s.tq.taskQueueSize ∨
      ∀ w, ∀ t ∈ s.task w, t.slot ≠ s.tq.tail) Iff.rfl
  | _, .pop _ | _, .deal _ => inferInstanceAs (Decidable True)

def turns : List (Act Bool) :=
  [.push (cleared sysMem), .push (cleared sysCpu), .pop true, .pop false, .push (cleared sysDisk), .deal false,
    .deal true, .push (cleared sysSys), .pop false, .deal false]

theorem exactlyOnce_two_workers : ∃ s : Pool Bool,
    s.processed = [⟨false, 1, cleared sysCpu, cleared sysCpu⟩, ⟨true, 0, cleared sysMem, cleared sysMem⟩,
      ⟨false, 2, cleared sysDisk, cleared sysDisk⟩] ∧ s.tq.tail = 1 ∧ ExactlyOnce s := by
  have hRun : ((system Bool 3).run (initial Bool 3 fun _ => cleared 0) turns).map (fun s => (s.processed, s.tq.tail)) =
      some ([⟨false, 1, cleared sysCpu, cleared sysCpu⟩, ⟨true, 0, cleared sysMem, cleared sysMem⟩,
        ⟨false, 2, cleared sysDisk, cleared sysDisk⟩], 1) := rfl
  have hMeets : (system Bool 3).Meets SlotFree (initial Bool 3 fun _ => cleared 0) turns := by decide +kernel
  obtain ⟨s, hReach, hSeen⟩ := ReachableUnder.of_observed (start_initial _ _ _) hMeets hRun
  obtain ⟨hProcessed, hTail⟩ := Prod.mk.inj hSeen
  exact ⟨s, hProcessed, hTail, exactlyOnce_of_slotFree (by decide) hReach⟩

end MonitorSystem.Workers
