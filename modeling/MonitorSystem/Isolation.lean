import MonitorSystem.Persistence

/-! # Reports that lack a field, in a persistence file

do_with_file counts lines and looks for no delimiter. A report with a missing
field moves the records behind it, until the missing lines add up to a record.
-/

namespace MonitorSystem.Isolation

open Msg Report SendData SendFile Saved Persistence Lib.Blocks Lib.CString Lib.Records Lib.Stdio

variable {kind : Kind}

/-- The file that the reports were appended to is replayed, and every report that
has all its fields is a message of its own, with its own text. -/
def Isolated (rs : List (Persisted kind)) (send : Nat → Bool) (temp : Bytes) (c : Client) : Prop :=
  ∃ c' r, persistAll rs c = some c' ∧
    doWithFile (linesOf kind) send temp ((c'.files kind).getD []) = some r ∧
    ((rs.filter fun r => r.missing = 0).map fun r => r.text ++ [0x0a]).Sublist (r.sent.map Replayed.text)

theorem count_flatten {lines : List Bytes} (h : ∀ line ∈ lines, IsLine msgBuffSize line) :
    lines.flatten.count 0x0a = lines.length := by
  induction lines with
  | nil => rfl
  | cons line lines ih =>
    rw [List.forall_mem_cons] at h
    obtain ⟨⟨body, rfl, hPlain, _⟩, hRest⟩ := h
    rw [List.flatten_cons, List.count_append, ih hRest, List.count_append, List.count_eq_zero_of_not_mem hPlain,
      List.count_singleton_self, List.length_cons]
    omega

theorem full_lines (rs : List (Persisted kind)) :
    full (linesOf kind) (rs.map Persisted.lines) = (rs.filter fun r => r.missing = 0).map Persisted.lines := by
  rw [full, List.filter_map]
  congr 1
  apply List.filter_congr
  intro r _
  have hLength := r.lines_facts.2.1
  rw [Function.comp_apply, decide_eq_decide]
  omega

theorem inStep_lines {rs : List (Persisted kind)} :
    InStep (linesOf kind) 0 (rs.map Persisted.lines) ↔
      ∀ pre r post, rs = pre ++ r :: post → r.missing = 0 → linesOf kind ∣ (pre.map Persisted.missing).sum := by
  have hTotal : ∀ pre : List (Persisted kind),
      (pre.map Persisted.lines).flatten.length + (pre.map Persisted.missing).sum = pre.length * linesOf kind := by
    intro pre
    induction pre with
    | nil => simp
    | cons r pre ih =>
      have hLength := r.lines_facts.2.1
      rw [List.map_cons, List.flatten_cons, List.length_append, List.map_cons, List.sum_cons, List.length_cons,
        Nat.succ_mul]
      omega
  have hDvd : ∀ pre : List (Persisted kind), (0 + (pre.map Persisted.lines).flatten.length) % linesOf kind = 0 ↔
      linesOf kind ∣ (pre.map Persisted.missing).sum := by
    intro pre
    have hWhole : linesOf kind ∣ (pre.map Persisted.lines).flatten.length + (pre.map Persisted.missing).sum :=
      ⟨pre.length, by rw [hTotal, Nat.mul_comm]⟩
    rw [Nat.zero_add, ← Nat.dvd_iff_mod_eq_zero]
    exact ⟨fun h => (Nat.dvd_add_right h).mp hWhole, fun h => (Nat.dvd_add_left h).mp hWhole⟩
  constructor
  · rintro h pre r post rfl hFull
    have hLength := r.lines_facts.2.1
    rw [← hDvd]
    exact h (pre.map Persisted.lines) r.lines (post.map Persisted.lines) (by simp) (by omega)
  · intro h pre record post hEq hFull
    obtain ⟨before, after, rfl, rfl, hAfter⟩ := List.map_eq_append_iff.mp hEq
    obtain ⟨r, tail, rfl, rfl, rfl⟩ := List.map_eq_cons_iff.mp hAfter
    have hLength := r.lines_facts.2.1
    rw [hDvd]
    exact h before r tail rfl (by omega)

section lines

variable (rs : List (Persisted kind))

theorem lines_shape : ∀ line ∈ (rs.map Persisted.lines).flatten,
    IsLine msgBuffSize line ∧ 0 ∉ line ∧ ∃ b rest, line = b :: rest ∧ b ≠ 0x0a := by
  intro line hLine
  obtain ⟨_, hLines, hMem⟩ := List.mem_flatten.mp hLine
  obtain ⟨r, _, rfl⟩ := List.mem_map.mp hLines
  obtain ⟨hFlatten, _, _, hIsLine⟩ := r.lines_facts
  refine ⟨hIsLine line hMem, ?_, r.lines_nonempty line hMem⟩
  intro hZero
  have hText : 0 ∈ r.text ++ [0x0a] := hFlatten ▸ List.mem_flatten_of_mem hMem hZero
  rw [List.mem_append] at hText
  exact hText.elim r.noNul (by decide)

theorem records_lines : records (linesOf kind) (stored (rs.map Persisted.text)) =
    (blocks (linesOf kind) (rs.map Persisted.lines).flatten).map List.flatten := by
  rw [records, texts, fgetsLines_stored]
  apply List.map_congr_left
  intro block hBlock
  apply flatMap_cstr
  intro hZero
  obtain ⟨line, hLine, hByte⟩ := List.mem_flatten.mp hZero
  exact (lines_shape rs line (mem_of_mem_blocks hBlock hLine)).2.1 hByte

theorem toSend_lines (temp : Bytes) :
    toSend temp (records (linesOf kind) (stored (rs.map Persisted.text))) =
      withTemp temp (records (linesOf kind) (stored (rs.map Persisted.text))) := by
  have hNonempty : ∀ text ∈ records (linesOf kind) (stored (rs.map Persisted.text)), text ≠ [] := by
    intro text hText
    rw [records_lines] at hText
    obtain ⟨block, hBlock, rfl⟩ := List.mem_map.mp hText
    have hLength := length_of_mem_blocks (linesOf_pos kind) hBlock
    cases block with
    | nil => exact absurd hLength (linesOf_pos kind).ne
    | cons line block =>
      obtain ⟨_, _, b, rest, rfl, _⟩ := lines_shape rs line (mem_of_mem_blocks hBlock List.mem_cons_self)
      simp
  rw [toSend, List.takeWhile_eq_self_iff]
  intro text hText
  cases hRecords : records (linesOf kind) (stored (rs.map Persisted.text)) with
  | nil =>
    rw [hRecords] at hText
    cases hText
  | cons first next =>
    rw [hRecords] at hText hNonempty
    obtain rfl | hText := List.mem_cons.mp hText
    · have hFirst := hNonempty first List.mem_cons_self
      simp [hFirst]
    · simpa using hNonempty text (List.mem_cons_of_mem first hText)

variable {rs}

theorem temp_mixed {r : Persisted kind} (hFull : r.lines.length = linesOf kind) {temp : Bytes} (hTemp : temp ≠ [])
    {block : List Bytes} (hBlock : block ∈ blocks (linesOf kind) (rs.map Persisted.lines).flatten) :
    r.lines.flatten ≠ temp ++ block.flatten := by
  intro hEq
  obtain ⟨hFlatten, _, _, hIsLine⟩ := r.lines_facts
  have hShape := fun line (h : line ∈ block) => lines_shape rs line (mem_of_mem_blocks hBlock h)
  have hLength := length_of_mem_blocks (linesOf_pos kind) hBlock
  have hCount := congrArg (List.count 0x0a) hEq
  rw [count_flatten hIsLine, List.count_append, count_flatten fun line h => (hShape line h).1, hFull, hLength] at hCount
  have hPlain : 0x0a ∉ temp := List.count_eq_zero.mp (by omega)
  obtain ⟨rest, hText⟩ := r.text_begins
  rw [hFlatten, hText] at hEq
  cases block with
  | nil => exact absurd hLength (linesOf_pos kind).ne
  | cons line block =>
    obtain ⟨_, _, b, line, rfl, hNewline⟩ := hShape line List.mem_cons_self
    cases temp with
    | nil => exact hTemp rfl
    | cons x temp =>
      simp only [List.cons_append, List.cons.injEq] at hEq
      cases temp with
      | nil =>
        simp only [List.nil_append, List.flatten_cons, List.cons_append, List.cons.injEq] at hEq
        exact hNewline hEq.2.1.symm
      | cons y temp =>
        simp only [List.cons_append, List.cons.injEq] at hEq
        rw [← hEq.2.1] at hPlain
        simp at hPlain

theorem fgetsLines_block {block : List Bytes}
    (hBlock : block ∈ blocks (linesOf kind) (rs.map Persisted.lines).flatten) :
    fgetsLines msgBuffSize block.flatten = block :=
  fgetsLines_flatten fun line h => (lines_shape rs line (mem_of_mem_blocks hBlock h)).1

theorem sublist_of_texts {complete : List (Persisted kind)} {cut : List (List Bytes)}
    (hCut : ∀ block ∈ cut, block ∈ blocks (linesOf kind) (rs.map Persisted.lines).flatten)
    (h : (complete.map fun r => r.lines.flatten).Sublist (cut.map List.flatten)) :
    (complete.map Persisted.lines).Sublist cut := by
  have hLines := h.map (fgetsLines msgBuffSize)
  have hComplete : (complete.map fun r => r.lines.flatten).map (fgetsLines msgBuffSize) =
      complete.map Persisted.lines := by
    rw [List.map_map]
    apply List.map_congr_left
    intro r _
    exact fgetsLines_flatten r.lines_facts.2.2.2
  have hBlocks : (cut.map List.flatten).map (fgetsLines msgBuffSize) = cut := by
    have hSame : cut.map (fgetsLines msgBuffSize ∘ List.flatten) = cut.map id :=
      List.map_congr_left fun block hBlock => fgetsLines_block (hCut block hBlock)
    rw [List.map_map, hSame, List.map_id]
  rwa [hComplete, hBlocks] at hLines

theorem complete_sublist_iff (rs : List (Persisted kind)) (temp : Bytes) :
    ((rs.filter fun r => r.missing = 0).map fun r => r.text ++ [0x0a]).Sublist
        (withTemp temp (records (linesOf kind) (stored (rs.map Persisted.text)))) ↔
      (full (linesOf kind) (rs.map Persisted.lines)).Sublist
        (if temp = [] then blocks (linesOf kind) (rs.map Persisted.lines).flatten
          else (blocks (linesOf kind) (rs.map Persisted.lines).flatten).tail) := by
  have hTexts : ((rs.filter fun r => r.missing = 0).map fun r => r.text ++ [0x0a]) =
      (rs.filter fun r => r.missing = 0).map fun r => r.lines.flatten := by
    apply List.map_congr_left
    intro r _
    exact r.lines_facts.1.symm
  have hLines : (full (linesOf kind) (rs.map Persisted.lines)).map List.flatten =
      (rs.filter fun r => r.missing = 0).map fun r => r.lines.flatten := by
    rw [full_lines, List.map_map]
    rfl
  rw [hTexts, records_lines]
  split
  · rename_i hTemp
    rw [hTemp, withTemp_nil, full_lines]
    constructor
    · exact sublist_of_texts fun block hBlock => hBlock
    · intro hSub
      rw [← hLines, full_lines]
      exact hSub.map List.flatten
  · rename_i hTemp
    cases hBlocks : blocks (linesOf kind) (rs.map Persisted.lines).flatten with
    | nil =>
      rw [full_lines, List.map_nil, withTemp, List.tail_nil, List.sublist_nil, List.sublist_nil, List.map_eq_nil_iff,
        List.map_eq_nil_iff]
    | cons first next =>
      have hFirst : first ∈ blocks (linesOf kind) (rs.map Persisted.lines).flatten := hBlocks ▸ List.mem_cons_self
      have hNext : ∀ block ∈ next, block ∈ blocks (linesOf kind) (rs.map Persisted.lines).flatten :=
        fun block hBlock => hBlocks ▸ List.mem_cons_of_mem first hBlock
      rw [List.map_cons, withTemp, List.tail_cons, List.sublist_cons_iff]
      constructor
      · rintro (hSub | ⟨others, hEq, _⟩)
        · rw [full_lines]
          exact sublist_of_texts hNext hSub
        · obtain ⟨r, _, hComplete, hMixed, _⟩ := List.map_eq_cons_iff.mp hEq
          have hMissing : r.missing = 0 := by
            have hMem : r ∈ rs.filter fun r => r.missing = 0 := hComplete ▸ List.mem_cons_self
            simpa using (List.mem_filter.mp hMem).2
          have hLength := r.lines_facts.2.1
          exact absurd hMixed (temp_mixed (by omega) hTemp hFirst)
      · intro hSub
        rw [← hLines]
        exact .inl (hSub.map List.flatten)

end lines

theorem wholeRecords (rs : List (Persisted kind)) :
    ∀ record ∈ rs.map Persisted.lines, whole opens record = true ∧ record.length ≤ linesOf kind := by
  intro record hRecord
  obtain ⟨r, _, rfl⟩ := List.mem_map.mp hRecord
  obtain ⟨_, hLength, hWhole, _⟩ := r.lines_facts
  exact ⟨hWhole, by omega⟩

theorem complete_sent_iff (rs : List (Persisted kind)) (temp : Bytes) :
    ((rs.filter fun r => r.missing = 0).map fun r => r.text ++ [0x0a]).Sublist
        (toSend temp (records (linesOf kind) (stored (rs.map Persisted.text)))) ↔
      (∀ pre r post, rs = pre ++ r :: post → r.missing = 0 → linesOf kind ∣ (pre.map Persisted.missing).sum) ∧
        ∀ r ∈ rs.head?, r.missing = 0 → temp = [] := by
  have hHead : (∀ record ∈ (rs.map Persisted.lines).head?, record.length ≠ linesOf kind) ↔
      ∀ r ∈ rs.head?, r.missing ≠ 0 := by
    cases rs with
    | nil => simp
    | cons r rs =>
      have hLength := r.lines_facts.2.1
      simp only [List.map_cons, List.head?_cons, Option.mem_some_iff, forall_eq']
      omega
  rw [toSend_lines, complete_sublist_iff, ← inStep_lines]
  by_cases hTemp : temp = []
  · rw [if_pos hTemp, full_sublist_iff (linesOf_pos kind) (wholeRecords rs)]
    exact ⟨fun h => ⟨h, fun _ _ _ => hTemp⟩, And.left⟩
  · rw [if_neg hTemp, full_sublist_tail_iff (linesOf_pos kind) (wholeRecords rs), hHead]
    exact ⟨fun h => ⟨h.1, fun r hr hFull => absurd hFull (h.2 r hr)⟩,
      fun h => ⟨h.1, fun r hr hFull => hTemp (h.2 r hr hFull)⟩⟩

theorem Isolated.sent {rs : List (Persisted kind)} {send : Nat → Bool} {temp : Bytes} {c : Client}
    (hRun : c.running = true) (hEmpty : (c.files kind).getD [] = []) (h : Isolated rs send temp c) :
    Room (remainder (linesOf kind) (fgetsLines msgBuffSize (stored (rs.map Persisted.text)))) (cstr temp)
        (records (linesOf kind) (stored (rs.map Persisted.text))) ∧
      ((rs.filter fun r => r.missing = 0).map fun r => r.text ++ [0x0a]).Sublist
        (toSend (cstr temp) (records (linesOf kind) (stored (rs.map Persisted.text)))) := by
  obtain ⟨c', hPersist, _, hFile⟩ := persistAll_stored rs hRun
  obtain ⟨c'', r, hPersist', hReturn, hSub⟩ := h
  cases hPersist.symm.trans hPersist'
  rw [hEmpty, List.nil_append] at hFile
  rw [hFile] at hReturn
  obtain ⟨_, hLoop⟩ := doWithFile_eq_some.mp hReturn
  have hRoom := room_of_loop (linesOf_pos kind) hLoop
  obtain ⟨more, hLoop', hTexts⟩ := @loop_room _ (linesOf_pos kind) send _ _ [] hRoom
  obtain rfl : more = r.sent := Option.some.inj (hLoop'.symm.trans hLoop)
  rw [hTexts] at hSub
  exact ⟨hRoom, hSub⟩

/-- Every complete report is replayed as itself exactly when the array is never
left, the fields that the reports in front of it lack make up whole records,
and temp is empty at first if the first report is complete. -/
theorem isolated_iff (rs : List (Persisted kind)) (send : Nat → Bool) (temp : Bytes) {c : Client}
    (hRun : c.running = true) (hEmpty : (c.files kind).getD [] = []) :
    Isolated rs send temp c ↔
      Room (remainder (linesOf kind) (fgetsLines msgBuffSize (stored (rs.map Persisted.text)))) (cstr temp)
        (records (linesOf kind) (stored (rs.map Persisted.text))) ∧
      (∀ pre r post, rs = pre ++ r :: post → r.missing = 0 → linesOf kind ∣ (pre.map Persisted.missing).sum) ∧
      (∀ r ∈ rs.head?, r.missing = 0 → cstr temp = []) := by
  constructor
  · intro h
    obtain ⟨hRoom, hSub⟩ := h.sent hRun hEmpty
    exact ⟨hRoom, (complete_sent_iff rs (cstr temp)).mp hSub⟩
  · rintro ⟨hRoom, hStep⟩
    obtain ⟨c', hPersist, _, hFile⟩ := persistAll_stored rs hRun
    obtain ⟨more, hLoop, hTexts⟩ := @loop_room _ (linesOf_pos kind) send _ _ [] hRoom
    rw [hEmpty, List.nil_append] at hFile
    refine ⟨c', ⟨more, []⟩, hPersist, ?_, ?_⟩
    · rw [hFile]
      exact doWithFile_eq_some.mpr ⟨rfl, hLoop⟩
    · rw [hTexts]
      exact (complete_sent_iff rs (cstr temp)).mpr hStep

def kept (m : MonitorMsgDs) (hType : m.type = sysCpu) (hSome : (serialise .cpu m (cleared 0)).isSome = true)
    (hTcp : ((serialise .cpu m (cleared 0)).get hSome).urgent = false) : Persisted .cpu where
  m := m
  stack := cleared 0
  out := (serialise .cpu m (cleared 0)).get hSome
  io := ⟨.error, true, some msgBuffSize, true⟩
  type := hType
  serialised := (Option.some_get hSome).symm
  tcp := hTcp
  error := rfl
  stores := by
    refine ⟨rfl, ⟨msgBuffSize, rfl, ?_⟩, rfl⟩
    obtain ⟨_, _, _, hMsg, _⟩ := serialise_inv (Option.some_get hSome).symm
    rw [MonitorMsgDs.strcpyBuff] at hMsg
    split at hMsg
    · rename_i hFits
      exact hFits.le
    · cases hMsg

def shortLine : Bytes := lit "2021-12-13 10:00:00 0.50 0.40 0.30 7.5 45.0\n"

def shortReport : MonitorMsgDs where
  type := sysCpu
  buff := shortLine ++ 0 :: List.replicate 455 0
  buff_length := by decide +kernel

def keptReport : Persisted .cpu := kept cpuReport rfl (by decide +kernel) (by decide +kernel)

def keptShort : Persisted .cpu := kept shortReport rfl (by decide +kernel) (by decide +kernel)

/-- A report without its warning, and a complete one behind it. -/
theorem complete_not_replayed : ¬ ∀ (kind : Kind) (rs : List (Persisted kind)) (send : Nat → Bool) (temp : Bytes)
    (c : Client), c.running = true → (c.files kind).getD [] = [] → Isolated rs send temp c := by
  intro hAll
  have hIsolated := hAll .cpu [keptShort, keptReport] (fun _ => true) (List.replicate 500 0) connected rfl rfl
  obtain ⟨_, hSub⟩ := hIsolated.sent rfl rfl
  obtain ⟨hStep, _⟩ := (complete_sent_iff [keptShort, keptReport] (cstr (List.replicate 500 0))).mp hSub
  have hDvd := hStep [keptShort] keptReport [] rfl (by decide +kernel)
  have hNot : ¬ linesOf .cpu ∣ (([keptShort] : List (Persisted .cpu)).map Persisted.missing).sum := by decide +kernel
  exact hNot hDvd

/-- Nine reports that lack a field each, and a complete one. -/
theorem isolated_behind_nine : Isolated (List.replicate 9 keptShort ++ [keptReport]) (fun _ => true)
    (List.replicate 500 0) connected := by
  refine (isolated_iff (List.replicate 9 keptShort ++ [keptReport]) (fun _ => true) (List.replicate 500 0) rfl
    rfl).mpr ⟨?_, ?_, ?_⟩
  · decide +kernel
  · intro pre r post hEq hFull
    have hSteps : ∀ k < 10, ∀ r ∈ (List.replicate 9 keptShort ++ [keptReport])[k]?, r.missing = 0 →
        linesOf .cpu ∣ (((List.replicate 9 keptShort ++ [keptReport]).take k).map Persisted.missing).sum := by
      decide +kernel
    have hLength := congrArg List.length hEq
    have hNext := hSteps pre.length (by simp at hLength; omega) r (by rw [hEq]; simp) hFull
    rwa [hEq, List.take_left] at hNext
  · decide +kernel

end MonitorSystem.Isolation
