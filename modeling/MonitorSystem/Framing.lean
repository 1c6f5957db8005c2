import MonitorSystem.Dispatch

/-! # Message boundaries on a TCP connection

TCP delivers the bytes of the sent structures in order and cuts them anywhere.
The dispatcher takes every recv for one whole structure; what its message
variable holds before each recv is left arbitrary.
-/

namespace MonitorSystem.Framing

open Msg Dispatch Lib.CString

/-- A structure as the client sends it, with whatever its padding bytes hold. -/
structure ClientFrame where
  msg : MonitorMsgDs
  pad : Bytes
  pad_length : pad.length = padding
  type_mem : msg.type ∈ clientTypes

def ClientFrame.image (f : ClientFrame) : Bytes := f.msg.image f.pad

theorem ClientFrame.length_image (f : ClientFrame) : f.image.length = sizeofMsg :=
  f.msg.length_image f.pad_length

def wire (frames : List ClientFrame) : Bytes := frames.flatMap ClientFrame.image

def dispatched : List Nat → (Nat → Bytes) → Bytes → List MonitorMsgDs
  | [], _, _ => []
  | k :: cuts, storage, stream =>
    let msg := ofStorage (recvInto (storage 0) (.data (stream.take k)))
    (if acted msg then [msg] else []) ++ dispatched cuts (fun i => storage (i + 1)) (stream.drop k)

/-- Whatever is sent and whatever the variable held, the messages acted on are those sent. -/
def Preserves (cuts : List Nat) (n : Nat) : Prop :=
  ∀ frames : List ClientFrame, frames.length = n →
    ∀ storage : Nat → Bytes, (∀ i, (storage i).length = sizeofMsg) →
      dispatched cuts storage (wire frames) = frames.map ClientFrame.msg

theorem dispatched_whole (f : ClientFrame) (cuts : List Nat) (storage : Nat → Bytes)
    (hStorage : (storage 0).length = sizeofMsg) (rest : Bytes) :
    dispatched (sizeofMsg :: cuts) storage (f.image ++ rest) =
      f.msg :: dispatched cuts (fun i => storage (i + 1)) rest := by
  have hMsg : ofStorage (recvInto (storage 0) (.data f.image)) = f.msg := by
    rw [recvInto, f.length_image, List.drop_eq_nil_of_le hStorage.le, List.append_nil]
    exact ofStorage_image f.msg f.pad
  rw [dispatched, List.take_left' f.length_image, List.drop_left' f.length_image, hMsg,
    if_pos (acted_of_clientTypes f.type_mem)]
  rfl

theorem preserves_whole (n : Nat) : Preserves (List.replicate n sizeofMsg) n := by
  induction n with
  | zero =>
    intro frames hFrames storage _
    rw [List.length_eq_zero_iff.mp hFrames]
    rfl
  | succ n ih =>
    intro frames hFrames storage hStorage
    obtain ⟨f, frames, rfl⟩ := List.exists_cons_of_length_eq_add_one hFrames
    rw [List.replicate_succ, wire, List.flatMap_cons, dispatched_whole f _ _ (hStorage 0),
      List.map_cons]
    exact congrArg (f.msg :: ·) (ih frames (by simpa using hFrames) _ fun i => hStorage (i + 1))

def splice (j : Nat) (a b : MonitorMsgDs) : MonitorMsgDs where
  type := a.type
  buff := a.buff.take j ++ b.buff.drop j
  buff_length := by
    rw [List.length_append, List.length_take, List.length_drop, a.buff_length, b.buff_length]
    omega

@[simp] theorem splice_type (j : Nat) (a b : MonitorMsgDs) : (splice j a b).type = a.type := rfl

@[simp] theorem splice_buff (j : Nat) (a b : MonitorMsgDs) :
    (splice j a b).buff = a.buff.take j ++ b.buff.drop j := rfl

theorem recvInto_short (a b : MonitorMsgDs) (pa pb rest : Bytes) (hType : a.type = b.type)
    {k : Nat} (hk : k ≤ 8 + msgBuffSize) :
    recvInto (b.image pb) (.data ((a.image pa ++ rest).take k)) = (splice (k - 8) a b).image pb := by
  have hImage : (a.image pa ++ rest).take k =
      (leBytes 8 a.type.toNat).take k ++ a.buff.take (k - 8) := by
    rw [MonitorMsgDs.image, List.append_assoc, List.append_assoc, List.take_append,
      length_leBytes, List.take_append_of_le_length (by rw [a.buff_length]; omega)]
  have hLength : ((a.image pa ++ rest).take k).length = k := by
    rw [hImage, List.length_append, List.length_take, List.length_take, length_leBytes, a.buff_length]
    omega
  have hRest : (b.image pb).drop k =
      (leBytes 8 b.type.toNat).drop k ++ (b.buff.drop (k - 8) ++ pb) := by
    rw [MonitorMsgDs.image, List.drop_append, length_leBytes,
      List.drop_append_of_le_length (by rw [b.buff_length]; omega)]
  rw [recvInto, hLength, hImage, hRest, MonitorMsgDs.image, splice_type, splice_buff, hType]
  by_cases h8 : k ≤ 8
  · have hNone : k - 8 = 0 := by omega
    rw [hNone, List.take_zero, List.append_nil, ← List.append_assoc, List.take_append_drop,
      List.nil_append]
  · rw [List.take_of_length_le (by rw [length_leBytes]; omega),
      List.drop_eq_nil_of_le (by rw [length_leBytes]; omega)]
    simp only [List.nil_append, List.append_assoc]

def probe : ClientFrame where
  msg := cleared sysMem
  pad := [2, 2, 2, 2]
  pad_length := rfl
  type_mem := by simp [cleared, clientTypes]

def leftover : MonitorMsgDs where
  type := sysMem
  buff := List.replicate 499 0 ++ [1]
  buff_length := by rw [List.length_append, List.length_replicate]; rfl

def residue : Bytes := leftover.image [0, 0, 0, 0]

theorem length_residue : residue.length = sizeofMsg := leftover.length_image rfl

theorem splice_ne_probe {j : Nat} (hj : j ≤ 499) : splice j probe.msg leftover ≠ probe.msg := by
  intro hEq
  have hOne : (1 : UInt8) ∈ (splice j probe.msg leftover).buff := by
    rw [splice_buff, leftover, List.drop_append_of_le_length (by rw [List.length_replicate]; exact hj)]
    simp only [List.mem_append, List.mem_singleton, or_true]
  rw [hEq] at hOne
  exact absurd (List.eq_of_mem_replicate hOne) (by decide)

theorem acts_on_mixture {k : Nat} (hk : k ≤ 507) (rest : Bytes) :
    ∃ msg, ofStorage (recvInto residue (.data ((probe.image ++ rest).take k))) = msg ∧
      acted msg = true ∧ msg ≠ probe.msg := by
  refine ⟨splice (k - 8) probe.msg leftover, ?_, ?_, splice_ne_probe (by omega)⟩
  · rw [residue, ClientFrame.image, recvInto_short probe.msg leftover _ _ _ rfl (by rw [msgBuffSize]; omega),
      ofStorage_image]
  · exact acted_of_clientTypes probe.type_mem

theorem acts_on_padding (storage rest : Bytes) {k : Nat} (hk : 0 < k) :
    ∃ msg, ofStorage (recvInto storage (.data ((2 :: rest).take k))) = msg ∧
      acted msg = true ∧ msg ≠ probe.msg := by
  obtain ⟨k, rfl⟩ := Nat.exists_eq_add_of_lt hk
  refine ⟨_, rfl, ?_, ?_⟩
  all_goals
    rw [Nat.zero_add, List.take_succ_cons, recvInto, List.cons_append]
  · rw [acted, classify, if_pos]
    · rfl
    · intro hZero
      have hBit := congrArg (BitVec.getLsbD · 1) hZero
      simp only [BitVec.getLsbD_and, getLsbD_one_ofStorage] at hBit
      exact absurd hBit (by decide)
  · intro hEq
    have hBit := congrArg (fun m : MonitorMsgDs => m.type.getLsbD 1) hEq
    simp only [getLsbD_one_ofStorage] at hBit
    exact absurd hBit (by decide)

theorem drop_inside_padding {k : Nat} (hk : 508 ≤ k) (hk' : k < 512) (rest : Bytes) :
    ∃ tail, (probe.image ++ rest).drop k = 2 :: tail := by
  have hLength : (leBytes 8 probe.msg.type.toNat ++ probe.msg.buff).length = 508 := by
    rw [List.length_append, length_leBytes, probe.msg.buff_length]
    rfl
  have hSplit : probe.image ++ rest =
      (leBytes 8 probe.msg.type.toNat ++ probe.msg.buff) ++ ([2, 2, 2, 2] ++ rest) := by
    simp only [ClientFrame.image, MonitorMsgDs.image, probe, List.append_assoc]
  rw [hSplit, List.drop_append, hLength, List.drop_eq_nil_of_le (by omega), List.nil_append]
  obtain h | h | h | h : k - 508 = 0 ∨ k - 508 = 1 ∨ k - 508 = 2 ∨ k - 508 = 3 := by omega
  all_goals
    rw [h]
    exact ⟨_, rfl⟩

theorem not_preserves_short {k n : Nat} {cuts : List Nat} (hk : 0 < k) (hShort : k < sizeofMsg)
    (hCut : ∀ j ∈ cuts, 0 < j) (hSum : k + cuts.sum = sizeofMsg * n) :
    ¬ Preserves (k :: cuts) n := by
  intro hAll
  rw [sizeofMsg] at hShort hSum
  obtain ⟨n, rfl⟩ : ∃ m, n = m + 1 := ⟨n - 1, by omega⟩
  have hDispatched := hAll (List.replicate (n + 1) probe) (by simp) (fun _ => residue)
    fun _ => length_residue
  rw [List.map_replicate, List.replicate_succ, wire, List.flatMap_cons] at hDispatched
  have hBad : ∃ msg ∈ dispatched (k :: cuts) (fun _ => residue)
      (probe.image ++ List.flatMap ClientFrame.image (List.replicate n probe)), msg ≠ probe.msg := by
    by_cases hPad : k ≤ 507
    · obtain ⟨msg, hMsg, hActed, hNe⟩ :=
        acts_on_mixture hPad (List.flatMap ClientFrame.image (List.replicate n probe))
      refine ⟨msg, ?_, hNe⟩
      simp only [dispatched, hMsg, if_pos hActed]
      exact List.mem_append_left _ (List.mem_singleton_self msg)
    · cases cuts with
      | nil =>
        rw [List.sum_nil] at hSum
        omega
      | cons j cuts =>
        obtain ⟨tail, hDrop⟩ := drop_inside_padding (k := k) (by omega) hShort
          (List.flatMap ClientFrame.image (List.replicate n probe))
        obtain ⟨msg, hMsg, hActed, hNe⟩ := acts_on_padding residue tail (hCut j List.mem_cons_self)
        refine ⟨msg, ?_, hNe⟩
        simp only [dispatched, hDrop, hMsg, if_pos hActed]
        exact List.mem_append_right _ (List.mem_append_left _ (List.mem_singleton_self msg))
  obtain ⟨msg, hMem, hNe⟩ := hBad
  rw [hDispatched] at hMem
  exact hNe (List.eq_of_mem_replicate hMem)

theorem Preserves.tail {cuts : List Nat} {n : Nat} (h : Preserves (sizeofMsg :: cuts) (n + 1)) :
    Preserves cuts n := by
  intro frames hFrames storage hStorage
  have hAll := h (probe :: frames) (by simpa using hFrames)
    (fun i => if i = 0 then residue else storage (i - 1)) ?_
  · rw [wire, List.flatMap_cons, dispatched_whole _ _ _ length_residue, List.map_cons] at hAll
    exact (List.cons.inj hAll).2
  · intro i
    split
    · exact length_residue
    · exact hStorage (i - 1)

/-- For a connection cut into these recvs, every sequence of sent structures
arrives as sent exactly when each recv returned one whole structure. -/
theorem preserves_iff {cuts : List Nat} {n : Nat} (hCut : ∀ k ∈ cuts, 0 < k ∧ k ≤ sizeofMsg)
    (hSum : cuts.sum = sizeofMsg * n) : Preserves cuts n ↔ ∀ k ∈ cuts, k = sizeofMsg := by
  constructor
  · intro h
    induction cuts generalizing n with
    | nil =>
      intro k hk
      cases hk
    | cons k cuts ih =>
      obtain ⟨hk, hLe⟩ := hCut k List.mem_cons_self
      have hCut' : ∀ j ∈ cuts, 0 < j ∧ j ≤ sizeofMsg := fun j hj => hCut j (List.mem_cons_of_mem k hj)
      rw [List.sum_cons] at hSum
      obtain hShort | rfl := hLe.lt_or_eq
      · exact absurd h (not_preserves_short hk hShort (fun j hj => (hCut' j hj).1) hSum)
      · obtain ⟨n, rfl⟩ : ∃ m, n = m + 1 := ⟨n - 1, by rw [sizeofMsg] at hSum; omega⟩
        have hRest := ih hCut' (by rw [sizeofMsg] at hSum ⊢; omega) h.tail
        intro j hj
        obtain rfl | hj := List.mem_cons.mp hj
        · rfl
        · exact hRest j hj
  · intro h
    have hEq : cuts = List.replicate n sizeofMsg := by
      rw [List.eq_replicate_iff]
      refine ⟨?_, h⟩
      rw [List.eq_replicate_of_mem h, List.sum_replicate_nat, sizeofMsg] at hSum
      omega
    rw [hEq]
    exact preserves_whole n

theorem report_cut_short : ¬ ∀ (cuts : List Nat) (n : Nat),
    (∀ k ∈ cuts, 0 < k ∧ k ≤ sizeofMsg) → cuts.sum = sizeofMsg * n → Preserves cuts n := by
  intro hAll
  have h := hAll [100, 412] 1 (by decide) rfl
  exact not_preserves_short (by decide) (by decide) (by decide) rfl h

theorem preserves_two_reports : Preserves [512, 512] 2 :=
  (preserves_iff (by decide) rfl).mpr (by decide)

end MonitorSystem.Framing
