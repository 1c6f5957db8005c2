import MonitorSystem.Lib.Blocks

/-! # Records cut into blocks

A list is made of records that begin with a marked element and have at most n
elements, and it is cut into blocks of n without looking at the marks. A record
of n elements is a block only if a multiple of n elements stands before it.
-/

namespace Lib.Records

open Lib.Blocks

universe u
variable {α : Type u}

variable (mark : α → Bool)

/-- A record begins with a marked element and has no other. -/
def whole : List α → Bool
  | [] => false
  | first :: rest => mark first && rest.all (! mark ·)

/-- The records of length n that begin a multiple of n elements after the start of the list. -/
def aligned (n : Nat) : Nat → List (List α) → List (List α)
  | _, [] => []
  | offset, record :: rest =>
    if record.length = n ∧ offset % n = 0 then record :: aligned n (offset + record.length) rest
    else aligned n (offset + record.length) rest

def full (n : Nat) (records : List (List α)) : List (List α) := records.filter fun record => record.length = n

theorem full_cons_pos {n : Nat} {record : List α} (h : record.length = n) (rest : List (List α)) :
    full n (record :: rest) = record :: full n rest := List.filter_cons_of_pos (decide_eq_true h)

theorem full_cons_neg {n : Nat} {record : List α} (h : record.length ≠ n) (rest : List (List α)) :
    full n (record :: rest) = full n rest := List.filter_cons_of_neg (by simpa using h)

variable {mark}

theorem marked_of_whole {record : List α} (h : whole mark record = true) :
    ∃ start rest, record = start :: rest ∧ mark start = true := by
  cases record with
  | nil => cases h
  | cons start rest =>
    rw [whole, Bool.and_eq_true] at h
    exact ⟨start, rest, rfl, h.1⟩

theorem not_whole_append {pre record : List α} {k : Nat} (hPre : pre ≠ []) (hRecord : whole mark record = true)
    (hk : 0 < k) (tail : List α) : whole mark (pre ++ (record ++ tail).take k) = false := by
  obtain ⟨k, rfl⟩ := Nat.exists_eq_succ_of_ne_zero (Nat.pos_iff_ne_zero.mp hk)
  obtain ⟨start, rest, rfl, hStart⟩ := marked_of_whole hRecord
  cases pre with
  | nil => exact absurd rfl hPre
  | cons first pre => simp [whole, hStart]

/-- The blocks that are records are the aligned records. The list pre is what an
earlier record has left of its last block. -/
theorem filter_blocks {n : Nat} (hn : 0 < n) {records : List (List α)}
    (hRecords : ∀ record ∈ records, whole mark record = true ∧ record.length ≤ n) {pre : List α} {offset : Nat}
    (hPre : pre.length = offset % n) :
    (blocks n (pre ++ records.flatten)).filter (whole mark) = aligned n offset records := by
  induction records generalizing pre offset with
  | nil =>
    have hLt := Nat.mod_lt offset hn
    rw [List.flatten_nil, List.append_nil, blocks_of_lt (by omega)]
    rfl
  | cons record rest ih =>
    rw [List.forall_mem_cons] at hRecords
    obtain ⟨⟨hWhole, hLength⟩, hRest⟩ := hRecords
    have hLt := Nat.mod_lt offset hn
    have hOffset : (offset + record.length) % n = (pre.length + record.length) % n := by
      rw [hPre, Nat.mod_add_mod]
    rw [List.flatten_cons, aligned]
    by_cases hShort : pre.length + record.length < n
    · rw [if_neg (by omega), ← List.append_assoc]
      apply ih hRest
      rw [List.length_append, hOffset, Nat.mod_eq_of_lt hShort]
    · have hBlock : (pre ++ record.take (n - pre.length)).length = n := by
        rw [List.length_append, List.length_take]
        omega
      have hSplit : pre ++ (record ++ rest.flatten) =
          (pre ++ record.take (n - pre.length)) ++ (record.drop (n - pre.length) ++ rest.flatten) := by
        rw [List.append_assoc, ← List.append_assoc (record.take _), List.take_append_drop]
      have hTail := @ih hRest (record.drop (n - pre.length)) (offset + record.length) (by
        rw [List.length_drop, hOffset, Nat.mod_eq_sub_mod (by omega), Nat.mod_eq_of_lt (by omega)]
        omega)
      rw [hSplit, blocks_append hn hBlock]
      by_cases hEmpty : pre = []
      · subst hEmpty
        rw [List.length_nil] at hPre hShort
        have hTake : record.take (n - ([] : List α).length) = record := List.take_of_length_le hLength
        rw [hTake, List.nil_append, List.filter_cons_of_pos hWhole, hTail, if_pos ⟨by omega, hPre.symm⟩]
      · have hPos := List.length_pos_iff.mpr hEmpty
        rw [List.filter_cons_of_neg, hTail, if_neg]
        · omega
        · have hMixed := @not_whole_append _ mark pre record (n - pre.length) hEmpty hWhole (by omega) []
          rw [List.append_nil] at hMixed
          rw [hMixed]
          exact Bool.false_ne_true

def InStep (n offset : Nat) (records : List (List α)) : Prop :=
  ∀ pre record post, records = pre ++ record :: post → record.length = n →
    (offset + pre.flatten.length) % n = 0

theorem inStep_cons {n offset : Nat} {record : List α} {rest : List (List α)} :
    InStep n offset (record :: rest) ↔
      (record.length = n → offset % n = 0) ∧ InStep n (offset + record.length) rest := by
  constructor
  · intro h
    constructor
    · intro hFull
      simpa using h [] record rest rfl hFull
    · intro pre next post hEq hFull
      have hNext := h (record :: pre) next post (by rw [hEq]; rfl) hFull
      rwa [List.flatten_cons, List.length_append, ← Nat.add_assoc] at hNext
  · rintro ⟨hFirst, hRest⟩ pre next post hEq hFull
    cases pre with
    | nil =>
      cases hEq
      simpa using hFirst hFull
    | cons _ pre =>
      cases hEq
      rw [List.flatten_cons, List.length_append, ← Nat.add_assoc]
      exact hRest pre next post rfl hFull

theorem aligned_sublist (n offset : Nat) (records : List (List α)) :
    (aligned n offset records).Sublist (full n records) := by
  induction records generalizing offset with
  | nil => exact List.Sublist.refl []
  | cons record rest ih =>
    rw [aligned]
    split
    · rename_i hFull
      rw [full_cons_pos hFull.1]
      exact (ih _).cons_cons record
    · exact (ih _).trans ((List.sublist_cons_self record rest).filter _)

theorem aligned_eq_iff {n offset : Nat} {records : List (List α)} :
    aligned n offset records = full n records ↔ InStep n offset records := by
  induction records generalizing offset with
  | nil =>
    apply iff_of_true rfl
    intro pre record post hEq
    cases pre <;> cases hEq
  | cons record rest ih =>
    rw [aligned, inStep_cons]
    by_cases hFull : record.length = n
    · rw [full_cons_pos hFull]
      by_cases hOffset : offset % n = 0
      · rw [if_pos ⟨hFull, hOffset⟩, List.cons.injEq, ih]
        exact ⟨fun h => ⟨fun _ => hOffset, h.2⟩, fun h => ⟨rfl, h.2⟩⟩
      · rw [if_neg fun h => hOffset h.2]
        apply iff_of_false
        · intro hEq
          have hLength := (aligned_sublist n (offset + record.length) rest).length_le
          rw [hEq, List.length_cons] at hLength
          exact absurd hLength (Nat.not_succ_le_self _)
        · exact fun h => hOffset (h.1 hFull)
    · rw [if_neg fun h => hFull h.1, full_cons_neg hFull, ih]
      exact ⟨fun h => ⟨fun hEq => absurd hEq hFull, h⟩, And.right⟩

section

variable {n : Nat} {records : List (List α)} (hn : 0 < n)
  (hRecords : ∀ record ∈ records, whole mark record = true ∧ record.length ≤ n)

include hn hRecords

omit hn in
theorem whole_full : (full n records).filter (whole mark) = full n records := by
  rw [List.filter_eq_self]
  intro record hRecord
  exact (hRecords record (List.mem_filter.mp hRecord).1).1

theorem inStep_of_sublist (hSub : (full n records).Sublist (blocks n records.flatten)) : InStep n 0 records := by
  have hAligned := @filter_blocks _ mark n hn records hRecords [] 0 (Nat.zero_mod n).symm
  have hBlocks := hSub.filter (whole mark)
  rw [List.nil_append] at hAligned
  rw [whole_full hRecords, hAligned] at hBlocks
  exact aligned_eq_iff.mp ((aligned_sublist n 0 records).antisymm hBlocks)

theorem full_sublist_iff :
    (full n records).Sublist (blocks n records.flatten) ↔ InStep n 0 records := by
  constructor
  · exact inStep_of_sublist hn hRecords
  · intro hStep
    have hAligned := @filter_blocks _ mark n hn records hRecords [] 0 (Nat.zero_mod n).symm
    rw [List.nil_append, aligned_eq_iff.mpr hStep] at hAligned
    rw [← hAligned]
    exact List.filter_sublist

omit hRecords in
theorem filter_tail_of_short {first : List α} {rest : List (List α)}
    (hRecords : ∀ record ∈ first :: rest, whole mark record = true ∧ record.length ≤ n) (hShort : first.length < n) :
    (blocks n (first :: rest).flatten).filter (whole mark) =
      (blocks n (first :: rest).flatten).tail.filter (whole mark) := by
  rw [List.flatten_cons]
  obtain hEnd | hMore := Nat.lt_or_ge (first ++ rest.flatten).length n
  · rw [blocks_of_lt hEnd]
    rfl
  · have hFirst : first ≠ [] := by
      rintro rfl
      cases (hRecords [] List.mem_cons_self).1
    cases rest with
    | nil =>
      rw [List.flatten_nil, List.append_nil] at hMore
      omega
    | cons second more =>
      have hSecond := (hRecords second (List.mem_cons_of_mem _ List.mem_cons_self)).1
      have hBlock : ((first ++ (second :: more).flatten).take n).length = n := List.length_take_of_le hMore
      have hMixed := not_whole_append hFirst hSecond (Nat.sub_pos_of_lt hShort) more.flatten
      rw [← List.take_append_drop n (first ++ (second :: more).flatten), blocks_append hn hBlock, List.tail_cons,
        List.filter_cons_of_neg]
      rw [List.take_append, List.take_of_length_le hShort.le, List.flatten_cons, hMixed]
      exact Bool.false_ne_true

theorem full_sublist_tail_iff :
    (full n records).Sublist (blocks n records.flatten).tail ↔
      InStep n 0 records ∧ ∀ record ∈ records.head?, record.length ≠ n := by
  constructor
  · intro hSub
    refine ⟨inStep_of_sublist hn hRecords (hSub.trans (List.tail_sublist _)), ?_⟩
    intro record hHead hFull
    cases records with
    | nil => cases hHead
    | cons first rest =>
      cases hHead
      have hRest : ∀ r ∈ rest, whole mark r = true ∧ r.length ≤ n := fun r hr => hRecords r (List.mem_cons_of_mem _ hr)
      have hAligned := @filter_blocks _ mark n hn rest hRest [] 0 (Nat.zero_mod n).symm
      rw [List.flatten_cons, blocks_append hn hFull, List.tail_cons, full_cons_pos hFull] at hSub
      have hLength := (aligned_sublist n 0 rest).length_le
      have hBlocks := (hSub.filter (whole mark)).length_le
      rw [List.nil_append] at hAligned
      have hFullWhole := whole_full hRecords
      rw [full_cons_pos hFull] at hFullWhole
      rw [hAligned, hFullWhole, List.length_cons] at hBlocks
      omega
  · rintro ⟨hStep, hHead⟩
    have hSub := (full_sublist_iff hn hRecords).mpr hStep
    cases records with
    | nil => exact List.nil_sublist _
    | cons first rest =>
      have hShort : first.length < n := Nat.lt_of_le_of_ne (hRecords first List.mem_cons_self).2 (hHead first rfl)
      have hBlocks := hSub.filter (whole mark)
      rw [whole_full hRecords, filter_tail_of_short hn hRecords hShort] at hBlocks
      exact hBlocks.trans List.filter_sublist

end

end Lib.Records
