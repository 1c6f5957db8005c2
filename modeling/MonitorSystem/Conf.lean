import MonitorSystem.Lib.CBuffer
import MonitorSystem.Lib.Stdio

/-! # Reading the configuration

get_conf_value on a file that can be opened. The array conf_buf is the only
memory it could leave; the line comes from getline, which makes room for it.
-/

namespace MonitorSystem.Conf

open Lib.CString Lib.Stdio Lib.CBuffer

def confSize : Nat := 512

/-- One line; none where an access lies outside conf_buf. -/
def confLine (key : Bytes) (conf_buf : Buffer confSize) (line : Bytes) : Option (Buffer confSize) :=
  let line := cstr line
  match strstr line key with
  | none => some conf_buf
  | some sub =>
    if (line)[key.length]?.getD 0 = 0x3d ∧ sub = 0 then
      (conf_buf.strcpy (line.drop (key.length + 1))).bind Buffer.chomp
    else some conf_buf

def getConfValue (content key : Bytes) : Option (Buffer confSize) :=
  (getlines content).foldlM (confLine key) (zeroed confSize)

def assigned (key : Bytes) : Bytes := key ++ [0x3d]

/-- What stands behind the = of a line that assigns the key. -/
def valueOf (key line : Bytes) : Bytes := line.drop (key.length + 1)

def texts (content : Bytes) : List Bytes := (content.splitOn 0x0a).map cstr

def lastValue (content key : Bytes) : Bytes :=
  (((texts content).filter fun line => assigned key <+: line).getLast?.map (valueOf key)).getD []

/-- The value is returned, and every access lies inside the array. -/
def Returns (content key : Bytes) : Prop := ∃ conf_buf, getConfValue content key = some conf_buf ∧
  conf_buf.text = lastValue content key

/-- What a line that assigns the key has behind the =, with its newline, is not empty and fits the array. -/
def Fits (content key : Bytes) : Prop := ∀ line ∈ (getlines content).map cstr, assigned key <+: line →
  valueOf key line ≠ [] ∧ (valueOf key line).length < confSize

instance (content key : Bytes) : Decidable (Fits content key) := inferInstanceAs (Decidable (∀ line ∈ _, _ → _))

section line

variable {key line : Bytes} {conf_buf : Buffer confSize}

theorem assigned_prefix_iff :
    assigned key <+: line ↔ (line)[key.length]?.getD 0 = 0x3d ∧ strstr line key = some 0 := by
  rw [strstr_eq_zero]
  constructor
  · rintro ⟨rest, rfl⟩
    rw [assigned, List.append_assoc, List.getElem?_append_right (Nat.le_refl _), Nat.sub_self]
    exact ⟨rfl, _, rfl⟩
  · rintro ⟨hEqual, rest, rfl⟩
    rw [List.getElem?_append_right (Nat.le_refl _), Nat.sub_self] at hEqual
    cases rest with
    | nil => cases hEqual
    | cons b rest =>
      obtain rfl : b = 0x3d := hEqual
      exact ⟨rest, List.append_assoc ..⟩

theorem confLine_eq : confLine key conf_buf line =
    if assigned key <+: cstr line then (conf_buf.strcpy (valueOf key (cstr line))).bind Buffer.chomp
    else some conf_buf := by
  rw [confLine]
  cases hSub : strstr (cstr line) key with
  | none => rw [if_neg (fun h => by rw [(assigned_prefix_iff.mp h).2] at hSub; cases hSub)]
  | some sub =>
    have hIff : ((cstr line)[key.length]?.getD 0 = 0x3d ∧ sub = 0) ↔ assigned key <+: cstr line := by
      rw [assigned_prefix_iff, hSub, Option.some_inj]
    exact if_congr hIff rfl rfl

theorem noNul_valueOf (key line : Bytes) : 0 ∉ valueOf key (cstr line) :=
  fun hMem => noNul_cstr line (List.mem_of_mem_drop hMem)

theorem confLine_some (hFits : assigned key <+: cstr line →
      valueOf key (cstr line) ≠ [] ∧ (valueOf key (cstr line)).length < confSize) :
    ∃ conf_buf', confLine key conf_buf line = some conf_buf' ∧
      conf_buf'.text = if assigned key <+: cstr line then chomped (valueOf key (cstr line)) else conf_buf.text := by
  rw [confLine_eq]
  by_cases hAssigned : assigned key <+: cstr line
  · obtain ⟨hSome, hShort⟩ := hFits hAssigned
    cases hCopy : conf_buf.strcpy (valueOf key (cstr line)) with
    | none => exact absurd (Buffer.strcpy_eq_none.mp hCopy) (Nat.not_le.mpr hShort)
    | some copy =>
      have hText := Buffer.text_strcpy (noNul_valueOf key line) hCopy
      cases hChomp : copy.chomp with
      | none => exact absurd (hText.symm.trans (Buffer.chomp_eq_none.mp hChomp)) hSome
      | some conf_buf' =>
        rw [if_pos hAssigned, if_pos hAssigned]
        exact ⟨conf_buf', hChomp, (Buffer.text_chomp hChomp).trans (congrArg chomped hText)⟩
  · rw [if_neg hAssigned, if_neg hAssigned]
    exact ⟨conf_buf, rfl, rfl⟩

theorem confLine_none (hAssigned : assigned key <+: cstr line)
    (hNot : ¬ (valueOf key (cstr line) ≠ [] ∧ (valueOf key (cstr line)).length < confSize)) :
    confLine key conf_buf line = none := by
  rw [confLine_eq, if_pos hAssigned]
  cases hCopy : conf_buf.strcpy (valueOf key (cstr line)) with
  | none => rfl
  | some copy =>
    have hShort : (valueOf key (cstr line)).length < confSize := by
      rw [← Nat.not_le, ← Buffer.strcpy_eq_none, hCopy]
      exact Option.some_ne_none copy
    refine Buffer.chomp_eq_none.mpr ?_
    rw [Buffer.text_strcpy (noNul_valueOf key line) hCopy]
    by_contra hSome
    exact hNot ⟨hSome, hShort⟩

end line

def latest (key text : Bytes) (lines : List Bytes) : Bytes :=
  lines.foldl (fun text line => if assigned key <+: cstr line then chomped (valueOf key (cstr line)) else text) text

theorem foldlM_confLine (key : Bytes) (lines : List Bytes) (conf_buf : Buffer confSize) :
    ((∀ line ∈ lines.map cstr, assigned key <+: line → valueOf key line ≠ [] ∧ (valueOf key line).length < confSize) →
        ∃ conf_buf', lines.foldlM (confLine key) conf_buf = some conf_buf' ∧
          conf_buf'.text = latest key conf_buf.text lines) ∧
      (¬ (∀ line ∈ lines.map cstr, assigned key <+: line →
          valueOf key line ≠ [] ∧ (valueOf key line).length < confSize) →
        lines.foldlM (confLine key) conf_buf = none) := by
  induction lines generalizing conf_buf with
  | nil => exact ⟨fun _ => ⟨conf_buf, rfl, rfl⟩, fun h => absurd (fun _ hMem => absurd hMem List.not_mem_nil) h⟩
  | cons line lines ih =>
    rw [List.foldlM_cons, List.map_cons, List.forall_mem_cons]
    by_cases hFits : assigned key <+: cstr line →
        valueOf key (cstr line) ≠ [] ∧ (valueOf key (cstr line)).length < confSize
    · obtain ⟨next, hNext, hText⟩ := @confLine_some key line conf_buf hFits
      obtain ⟨hAll, hNot⟩ := ih next
      rw [hNext, and_iff_right hFits, latest, List.foldl_cons, ← hText]
      exact ⟨hAll, hNot⟩
    · refine ⟨fun h => absurd h.1 hFits, fun _ => ?_⟩
      rw [Classical.not_imp] at hFits
      rw [confLine_none hFits.1 hFits.2]
      rfl

theorem assigned_prefix_line {key first : Bytes} : assigned key <+: first ++ [0x0a] ↔ assigned key <+: first := by
  refine ⟨fun h => ?_, fun h => h.trans (List.prefix_append _ _)⟩
  obtain h | h := List.prefix_concat_iff.mp h
  · have hLast := congrArg List.getLast? h
    rw [assigned, List.getLast?_concat, List.getLast?_concat] at hLast
    cases hLast
  · exact h

theorem valueOf_line {key first : Bytes} (h : assigned key <+: first) :
    valueOf key (first ++ [0x0a]) = valueOf key first ++ [0x0a] := by
  have hLength := h.length_le
  rw [assigned, List.length_append, List.length_singleton] at hLength
  exact List.drop_append_of_le_length hLength

theorem cstr_line (first : Bytes) :
    cstr (first ++ [0x0a]) = cstr first ∨ cstr (first ++ [0x0a]) = cstr first ++ [0x0a] := by
  by_cases hNul : 0 ∈ first
  · obtain ⟨before, after, rfl, _⟩ := List.eq_append_cons_of_mem hNul
    rw [List.append_assoc, List.cons_append, cstr_append_nul, cstr_append_nul]
    exact .inl rfl
  · have hLine : 0 ∉ first ++ [0x0a] := by
      rw [List.mem_append, not_or]
      exact ⟨hNul, by decide⟩
    rw [cstr_of_noNul hNul, cstr_of_noNul hLine]
    exact .inr rfl

theorem plain_valueOf {key first : Bytes} (hPlain : 0x0a ∉ first) :
    chomped (valueOf key (cstr first)) = valueOf key (cstr first) := by
  apply chomped_plain
  intro hMem
  exact hPlain ((List.takeWhile_prefix _).subset (List.mem_of_mem_drop hMem))

theorem latest_line {key first : Bytes} (hPlain : 0x0a ∉ first) (text : Bytes) (lines : List Bytes) :
    latest key text ((first ++ [0x0a]) :: lines) =
      latest key (if assigned key <+: cstr first then valueOf key (cstr first) else text) lines := by
  rw [latest, List.foldl_cons, ← latest]
  obtain hLine | hLine := cstr_line first
  · rw [hLine, plain_valueOf hPlain]
  · rw [hLine]
    by_cases hAssigned : assigned key <+: cstr first
    · rw [if_pos hAssigned, if_pos (assigned_prefix_line.mpr hAssigned), valueOf_line hAssigned, chomped_concat]
    · rw [if_neg hAssigned, if_neg (mt assigned_prefix_line.mp hAssigned)]

theorem latest_getlines (key content text : Bytes) : latest key text (getlines content) =
    (((texts content).filter fun line => assigned key <+: line).getLast?.map (valueOf key)).getD text := by
  induction content using lineInduction generalizing text with
  | last s hPlain =>
    rw [texts, List.splitOn_eq_singleton hPlain, List.map_singleton]
    by_cases hAssigned : assigned key <+: cstr s
    · have hs : s ≠ [] := by
        rintro rfl
        exact List.concat_ne_nil _ _ (List.prefix_nil.mp hAssigned)
      rw [getlines_last hs hPlain, latest, List.foldl_cons, List.foldl_nil, if_pos hAssigned,
        List.filter_cons_of_pos (by simpa using hAssigned), plain_valueOf hPlain]
      rfl
    · rw [List.filter_cons_of_neg (by simpa using hAssigned)]
      by_cases hs : s = []
      · rw [hs]
        rfl
      · rw [getlines_last hs hPlain, latest, List.foldl_cons, List.foldl_nil, if_neg hAssigned]
        rfl
  | line first rest hPlain ih =>
    rw [getlines_line hPlain, latest_line hPlain, ih, texts, texts, List.splitOn_append_cons_self_of_not_mem hPlain,
      List.map_cons]
    by_cases hAssigned : assigned key <+: cstr first
    · rw [if_pos hAssigned, List.filter_cons_of_pos (by simpa using hAssigned), List.getLast?_cons]
      cases List.getLast? _ <;> rfl
    · rw [if_neg hAssigned, List.filter_cons_of_neg (by simpa using hAssigned)]

theorem text_getConfValue {content key : Bytes} {conf_buf : Buffer confSize} (h : getConfValue content key = some conf_buf) :
    conf_buf.text = lastValue content key := by
  obtain ⟨hSome, hNone⟩ := foldlM_confLine key (getlines content) (zeroed confSize)
  by_cases hFits : Fits content key
  · obtain ⟨conf_buf', hReturn, hText⟩ := hSome hFits
    obtain rfl := Option.some.inj (h.symm.trans hReturn)
    rw [hText, latest_getlines, text_zeroed (by decide)]
    rfl
  · cases h.symm.trans (hNone hFits)

/-- The value comes back exactly when those of all the lines that assign the key fit the array. -/
theorem returns_iff (content key : Bytes) : Returns content key ↔ Fits content key := by
  obtain ⟨hSome, hNone⟩ := foldlM_confLine key (getlines content) (zeroed confSize)
  constructor
  · rintro ⟨conf_buf, hReturn, _⟩
    by_contra hNot
    cases hReturn.symm.trans (hNone hNot)
  · intro hFits
    obtain ⟨conf_buf, hReturn, _⟩ := hSome hFits
    exact ⟨conf_buf, hReturn, text_getConfValue hReturn⟩

example : (getConfValue (lit "UDPPORT=1\nPORT=2\nPORT=80") (lit "PORT")).map Buffer.text = some (lit "80") := by
  decide +kernel

/-- The last line of the file is PORT= without a newline: conf_buf[-1] is looked at. -/
theorem value_missing : ¬ ∀ content key : Bytes, 0 ∉ content → key ≠ [] → 0x3d ∉ key → 0x0a ∉ key →
    Returns content key := by
  intro hAll
  have hFault : (getConfValue (lit "PORT=") (lit "PORT")).isNone = true := by decide +kernel
  obtain ⟨conf_buf, hReturn, _⟩ := hAll (lit "PORT=") (lit "PORT") (by decide) (by decide) (by decide) (by decide)
  rw [hReturn] at hFault
  cases hFault

end MonitorSystem.Conf
