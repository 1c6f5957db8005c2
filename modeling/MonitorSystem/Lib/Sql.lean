import MonitorSystem.Lib.CString

/-! # The lexical structure of SQL statements

The machine reads one byte at a time. Quotes begin and end string literals;
inside a literal a doubled singleQuote and a backslash escape, except before the two
wildcards of LIKE, where the backslash stays. Comments are left out: one can
only begin where a literal has ended.
-/

namespace Lib.Sql

open Lib.CString

def singleQuote : UInt8 := 0x27
def doubleQuote : UInt8 := 0x22
def backslash : UInt8 := 0x5c

inductive Lexeme
  | word (text : Bytes)
  | symbol (b : UInt8)
  | literal (value : Bytes)
deriving DecidableEq

inductive Mode
  | between
  | word (text : Bytes)
  | literal (delimiter : UInt8) (value : Bytes)
  | escaped (delimiter : UInt8) (value : Bytes)
  | quoted (delimiter : UInt8) (value : Bytes)
deriving DecidableEq

def isBlank (b : UInt8) : Bool := b = 0x20 ∨ (9 ≤ b ∧ b ≤ 13)

def isWord (b : UInt8) : Bool :=
  (0x30 ≤ b ∧ b ≤ 0x39) ∨ (0x41 ≤ b ∧ b ≤ 0x5a) ∨ (0x61 ≤ b ∧ b ≤ 0x7a) ∨ b = 0x5f ∨ b = 0x24 ∨ 0x80 ≤ b

def escape (b : UInt8) : Bytes :=
  if b = 0x30 then [0]
  else if b = 0x62 then [8]
  else if b = 0x6e then [10]
  else if b = 0x72 then [13]
  else if b = 0x74 then [9]
  else if b = 0x5a then [26]
  else if b = 0x25 ∨ b = 0x5f then [backslash, b]
  else [b]

def start (b : UInt8) : List Lexeme × Mode :=
  if isBlank b then ([], .between)
  else if b = singleQuote ∨ b = doubleQuote then ([], .literal b [])
  else if isWord b then ([], .word [b])
  else ([.symbol b], .between)

/-- The tokens that a byte completes, and where it leads. -/
def step (mode : Mode) (b : UInt8) : List Lexeme × Mode :=
  match mode with
  | .between => start b
  | .word text => if isWord b then ([], .word (text ++ [b])) else (.word text :: (start b).1, (start b).2)
  | .literal delimiter value =>
    if b = delimiter then ([], .quoted delimiter value)
    else if b = backslash then ([], .escaped delimiter value)
    else ([], .literal delimiter (value ++ [b]))
  | .escaped delimiter value => ([], .literal delimiter (value ++ escape b))
  | .quoted delimiter value =>
    if b = delimiter then ([], .literal delimiter (value ++ [delimiter]))
    else (.literal value :: (start b).1, (start b).2)

/-- The tokens of a text; none where it ends inside a literal. -/
def lexFrom : Mode → Bytes → Option (List Lexeme)
  | .between, [] => some []
  | .word text, [] => some [.word text]
  | .quoted _ value, [] => some [.literal value]
  | .literal _ _, [] | .escaped _ _, [] => none
  | mode, b :: text => (lexFrom (step mode b).2 text).map ((step mode b).1 ++ ·)

def lex (text : Bytes) : Option (List Lexeme) := lexFrom .between text

def run : Mode → Bytes → List Lexeme × Mode
  | mode, [] => ([], mode)
  | mode, b :: text => ((step mode b).1 ++ (run (step mode b).2 text).1, (run (step mode b).2 text).2)

/-- A value that a literal of its own bytes denotes: it has no quote, and each backslash stands before a wildcard. -/
def plain : Bytes → Bool
  | [] => true
  | b :: rest =>
    if b = singleQuote then false
    else if b = backslash then
      match rest with
      | [] => false
      | c :: rest => (c = 0x25 ∨ c = 0x5f) ∧ plain rest
    else plain rest

theorem lexFrom_cons (mode : Mode) (b : UInt8) (text : Bytes) :
    lexFrom mode (b :: text) = (lexFrom (step mode b).2 text).map ((step mode b).1 ++ ·) := by
  rw [lexFrom]

theorem lexFrom_append (mode : Mode) (text more : Bytes) :
    lexFrom mode (text ++ more) = (lexFrom (run mode text).2 more).map ((run mode text).1 ++ ·) := by
  induction text generalizing mode with
  | nil => simp [run]
  | cons b text ih =>
    rw [List.cons_append, lexFrom_cons, ih, run, Option.map_map]
    simp only [Function.comp_def, List.append_assoc]

def literalBody (delimiter : UInt8) : Bytes → Option (Bytes × Bytes)
  | [] => none
  | [b] => if b = delimiter then some ([], []) else none
  | b :: c :: text =>
    if b = delimiter then
      if c = delimiter then (literalBody delimiter text).map fun (value, rest) => (delimiter :: value, rest)
      else some ([], c :: text)
    else if b = backslash then (literalBody delimiter text).map fun (value, rest) => (escape c ++ value, rest)
    else (literalBody delimiter (c :: text)).map fun (value, rest) => (b :: value, rest)

theorem lexFrom_between (b : UInt8) (text : Bytes) :
    lexFrom .between (b :: text) = (lexFrom (start b).2 text).map ((start b).1 ++ ·) := lexFrom_cons ..

theorem lexFrom_literal (delimiter : UInt8) (value text : Bytes) :
    lexFrom (.literal delimiter value) text = (literalBody delimiter text).bind fun (more, rest) =>
      (lexFrom .between rest).map (.literal (value ++ more) :: ·) := by
  induction text using literalBody.induct delimiter generalizing value with
  | case1 => rfl
  | case2 => simp [lexFrom, literalBody, step]
  | case3 b hOpen =>
    by_cases hEscape : b = backslash
    · rw [hEscape] at hOpen ⊢
      simp [lexFrom, literalBody, step, hOpen]
    · simp [lexFrom, literalBody, step, hOpen, hEscape]
  | case4 text ih =>
    rw [lexFrom_cons, lexFrom_cons, literalBody, if_pos rfl, if_pos rfl]
    simp only [step, if_true, ih, Option.map_map]
    cases literalBody delimiter text <;> simp [Function.comp_def]
  | case5 c text hDouble =>
    rw [lexFrom_cons, lexFrom_cons, literalBody, if_pos rfl, if_neg hDouble]
    simp [step, hDouble, lexFrom_between, Function.comp_def]
  | case6 c text hOpen ih =>
    rw [lexFrom_cons, lexFrom_cons, literalBody, if_neg hOpen, if_pos rfl]
    simp only [step, if_neg hOpen, if_true, ih, Option.map_map]
    cases literalBody delimiter text <;> simp [Function.comp_def]
  | case7 b c text hOpen hEscape ih =>
    rw [lexFrom_cons, literalBody, if_neg hOpen, if_neg hEscape]
    simp only [step, if_neg hOpen, if_neg hEscape, ih]
    cases literalBody delimiter (c :: text) <;> simp [Function.comp_def]

/-- The bytes that a literal in single quotes does not take as they are. -/
def isSpecial (b : UInt8) : Prop := b = singleQuote ∨ b = backslash

instance (b : UInt8) : Decidable (isSpecial b) := inferInstanceAs (Decidable (_ ∨ _))

theorem literalBody_ordinary {b : UInt8} (text : Bytes) (h : ¬ isSpecial b) :
    literalBody singleQuote (b :: text) = (literalBody singleQuote text).map fun (value, rest) => (b :: value, rest) := by
  obtain ⟨hQuote, hBackslash⟩ := not_or.mp h
  cases text with
  | nil => simp [literalBody, hQuote]
  | cons c text => rw [literalBody, if_neg hQuote, if_neg hBackslash]

theorem literalBody_doubled (text : Bytes) : literalBody singleQuote (singleQuote :: singleQuote :: text) =
    (literalBody singleQuote text).map fun (value, rest) => (singleQuote :: value, rest) := by
  rw [literalBody, if_pos rfl, if_pos rfl]

theorem literalBody_closed {c : UInt8} (text : Bytes) (h : c ≠ singleQuote) :
    literalBody singleQuote (singleQuote :: c :: text) = some ([], c :: text) := by
  rw [literalBody, if_pos rfl, if_neg h]

theorem literalBody_escaped (c : UInt8) (text : Bytes) : literalBody singleQuote (backslash :: c :: text) =
    (literalBody singleQuote text).map fun (value, rest) => (escape c ++ value, rest) := by
  rw [literalBody, if_neg (by decide), if_pos rfl]

theorem escape_cases (b : UInt8) :
    (isSpecial b ∧ escape b = [b]) ∨ (∃ e, ¬ isSpecial e ∧ escape b = [e]) ∨
      ((b = 0x25 ∨ b = 0x5f) ∧ escape b = [backslash, b]) := by
  by_cases hSpecial : isSpecial b
  · left
    refine ⟨hSpecial, ?_⟩
    obtain rfl | rfl := hSpecial <;> rfl
  · right
    by_cases hWildcard : b = 0x25 ∨ b = 0x5f
    · right
      refine ⟨hWildcard, ?_⟩
      obtain rfl | rfl := hWildcard <;> rfl
    · left
      unfold escape
      split_ifs with h0 hb hn hr ht hZ
      · exact ⟨0, by decide, rfl⟩
      · exact ⟨8, by decide, rfl⟩
      · exact ⟨10, by decide, rfl⟩
      · exact ⟨13, by decide, rfl⟩
      · exact ⟨9, by decide, rfl⟩
      · exact ⟨26, by decide, rfl⟩
      · exact ⟨b, hSpecial, rfl⟩

theorem map_cons_eq_some {parsed : Option (Bytes × Bytes)} {b first : UInt8} {more rest : Bytes}
    (h : (parsed.map fun (value, rest) => (b :: value, rest)) = some (first :: more, rest)) :
    b = first ∧ parsed = some (more, rest) := by
  obtain ⟨⟨value, after⟩, hParsed, hEq⟩ := Option.map_eq_some_iff.mp h
  obtain ⟨hValue, rfl⟩ := Prod.mk.inj hEq
  obtain ⟨rfl, rfl⟩ := List.cons.inj hValue
  exact ⟨rfl, hParsed⟩

theorem literalBody_ordinary_ne {b first : UInt8} (text more rest : Bytes) (h : ¬ isSpecial b)
    (hFirst : isSpecial first) : literalBody singleQuote (b :: text) ≠ some (first :: more, rest) := by
  intro hBody
  have hHead := (map_cons_eq_some ((literalBody_ordinary text h).symm.trans hBody)).1
  exact h (hHead ▸ hFirst)

theorem ordinary_of_wildcard {b : UInt8} (h : b = 0x25 ∨ b = 0x5f) : ¬ isSpecial b := by
  obtain rfl | rfl := h <;> decide

def isOwed (owed : Bytes) : Prop := owed ≠ [] ∧ ∀ s ∈ owed, isSpecial s

theorem isOwed_singleton {b : UInt8} (h : isSpecial b) : isOwed [b] :=
  ⟨List.cons_ne_nil b [], List.forall_mem_singleton.mpr h⟩

theorem isOwed_append {owed more : Bytes} (h : ∀ s ∈ owed, isSpecial s) (hMore : isOwed more) :
    isOwed (owed ++ more) := by
  refine ⟨by simp [hMore.1], fun s hs => ?_⟩
  obtain hs | hs := List.mem_append.mp hs
  · exact h s hs
  · exact hMore.2 s hs

theorem ordinary_ne_owed {b : UInt8} {owed : Bytes} (text more rest : Bytes) (h : ¬ isSpecial b)
    (hOwed : isOwed owed) : literalBody singleQuote (b :: text) ≠ some (owed ++ more, rest) := by
  obtain ⟨first, owed, rfl⟩ := List.exists_cons_of_ne_nil hOwed.1
  exact literalBody_ordinary_ne _ _ _ h (hOwed.2 first (by simp))

/-- Once the value is behind the text it never catches up: the delimiter comes when quotes and
backslashes are still owed, and an ordinary byte stands where one of them should. -/
theorem literalBody_behind {c : UInt8} {owed : Bytes} (text after rest : Bytes) (hc : ¬ isSpecial c)
    (hOwed : isOwed owed) : literalBody singleQuote (text ++ singleQuote :: c :: after) ≠ some (owed ++ text, rest) := by
  have hcQuote : c ≠ singleQuote := fun h => hc (.inl h)
  have hQuote : isSpecial singleQuote := .inl rfl
  have hBackslash : isSpecial backslash := .inr rfl
  intro hBody
  induction text using literalBody.induct singleQuote generalizing owed with
  | case1 =>
    rw [List.nil_append, literalBody_closed after hcQuote, List.append_nil] at hBody
    exact hOwed.1 (congrArg Prod.fst (Option.some.inj hBody)).symm
  | case2 =>
    obtain ⟨first, owed, rfl⟩ := List.exists_cons_of_ne_nil hOwed.1
    have hRest := fun s hs => hOwed.2 s (List.mem_cons_of_mem first hs)
    have hNext := (map_cons_eq_some ((literalBody_doubled _).symm.trans hBody)).2
    exact ordinary_ne_owed after [] rest hc (isOwed_append hRest (isOwed_singleton hQuote)) (by simpa using hNext)
  | case3 b hOpen =>
    by_cases hEscape : b = backslash
    · obtain ⟨first, owed, rfl⟩ := List.exists_cons_of_ne_nil hOwed.1
      have hRest := fun s hs => hOwed.2 s (List.mem_cons_of_mem first hs)
      rw [hEscape] at hBody
      have hNext := (map_cons_eq_some ((literalBody_escaped singleQuote _).symm.trans hBody)).2
      exact ordinary_ne_owed after [] rest hc (isOwed_append hRest (isOwed_singleton hBackslash)) (by simpa using hNext)
    · exact ordinary_ne_owed _ _ _ (not_or.mpr ⟨hOpen, hEscape⟩) hOwed hBody
  | case4 text ih =>
    obtain ⟨first, owed, rfl⟩ := List.exists_cons_of_ne_nil hOwed.1
    have hRest := fun s hs => hOwed.2 s (List.mem_cons_of_mem first hs)
    have hNext := (map_cons_eq_some ((literalBody_doubled _).symm.trans hBody)).2
    have hMore : isOwed [singleQuote, singleQuote] := ⟨by simp, by simpa using hQuote⟩
    exact ih (isOwed_append hRest hMore) (by simpa using hNext)
  | case5 c' text hDouble =>
    obtain ⟨first, owed, rfl⟩ := List.exists_cons_of_ne_nil hOwed.1
    rw [List.cons_append, List.cons_append, literalBody_closed _ hDouble] at hBody
    cases hBody
  | case6 c' text hOpen ih =>
    obtain ⟨first, owed, rfl⟩ := List.exists_cons_of_ne_nil hOwed.1
    have hRest := fun s hs => hOwed.2 s (List.mem_cons_of_mem first hs)
    have hStep := (literalBody_escaped c' _).symm.trans hBody
    obtain ⟨hSpecial, hEscape⟩ | ⟨e, hOrdinary, hEscape⟩ | ⟨hWildcard, hEscape⟩ := escape_cases c'
    · rw [hEscape] at hStep
      have hNext := (map_cons_eq_some hStep).2
      have hMore : isOwed [backslash, c'] := ⟨by simp, by simp [hBackslash, hSpecial]⟩
      exact ih (isOwed_append hRest hMore) (by simpa using hNext)
    · rw [hEscape] at hStep
      have hHead := (map_cons_eq_some hStep).1
      exact hOrdinary (hHead ▸ hOwed.2 first (by simp))
    · rw [hEscape] at hStep
      obtain ⟨⟨value, _⟩, _, hEq⟩ := Option.map_eq_some_iff.mp hStep
      obtain ⟨second, more, hCons⟩ := List.exists_cons_of_ne_nil (l := owed ++ [backslash]) (by simp)
      have hSecond : c' = second := by
        have hTail := congrArg List.tail (Prod.mk.inj hEq).1
        have hAll : c' :: value = (owed ++ [backslash]) ++ c' :: text := by simpa using hTail
        rw [hCons] at hAll
        exact (List.cons.inj hAll).1
      have hOwes : isOwed (owed ++ [backslash]) := isOwed_append hRest (isOwed_singleton hBackslash)
      exact ordinary_of_wildcard hWildcard (hSecond ▸ hOwes.2 second (by rw [hCons]; simp))
  | case7 b c' text hOpen hEscape ih =>
    exact ordinary_ne_owed _ _ _ (not_or.mpr ⟨hOpen, hEscape⟩) hOwed hBody

theorem plain_ordinary {b : UInt8} (text : Bytes) (h : ¬ isSpecial b) : plain (b :: text) = plain text := by
  obtain ⟨hQuote, hBackslash⟩ := not_or.mp h
  rw [plain.eq_def]
  simp only [if_neg hQuote, if_neg hBackslash]

theorem plain_of_literalBody {c : UInt8} {text after rest : Bytes} (hc : ¬ isSpecial c)
    (h : literalBody singleQuote (text ++ singleQuote :: c :: after) = some (text, rest)) : plain text = true := by
  have hQuote : isOwed [singleQuote] := isOwed_singleton (.inl rfl)
  have hBackslash : isOwed [backslash] := isOwed_singleton (.inr rfl)
  induction text using plain.induct with
  | case1 => rfl
  | case2 text =>
    exfalso
    cases text with
    | nil =>
      have hNext := (map_cons_eq_some ((literalBody_doubled _).symm.trans h)).2
      rw [literalBody_ordinary after hc] at hNext
      obtain ⟨_, _, hEq⟩ := Option.map_eq_some_iff.mp hNext
      cases hEq
    | cons b text =>
      by_cases hDouble : b = singleQuote
      · rw [hDouble] at h
        have hNext := (map_cons_eq_some ((literalBody_doubled _).symm.trans h)).2
        exact literalBody_behind text after rest hc hQuote hNext
      · rw [List.cons_append, List.cons_append, literalBody_closed _ hDouble] at h
        cases h
  | case3 =>
    have hHead := (map_cons_eq_some ((literalBody_escaped singleQuote _).symm.trans h)).1
    exact absurd hHead (by decide)
  | case4 b text _ ih =>
    have hStep := (literalBody_escaped b _).symm.trans h
    obtain ⟨_, hEscape⟩ | ⟨e, hOrdinary, hEscape⟩ | ⟨hWildcard, hEscape⟩ := escape_cases b
    · rw [hEscape] at hStep
      obtain ⟨rfl, hNext⟩ := map_cons_eq_some hStep
      exact absurd hNext (literalBody_behind text after rest hc hBackslash)
    · rw [hEscape] at hStep
      have hHead := (map_cons_eq_some hStep).1
      exact absurd (.inr hHead) hOrdinary
    · rw [hEscape] at hStep
      obtain ⟨⟨value, _⟩, hValue, hEq⟩ := Option.map_eq_some_iff.mp hStep
      cases hEq
      simpa [plain, hWildcard, show backslash ≠ singleQuote by decide] using ih hValue
  | case5 b text hOpen hEscape ih =>
    have hNext := (map_cons_eq_some ((literalBody_ordinary _ (not_or.mpr ⟨hOpen, hEscape⟩)).symm.trans h)).2
    rw [plain_ordinary text (not_or.mpr ⟨hOpen, hEscape⟩)]
    exact ih hNext

theorem literalBody_plain {c : UInt8} {text : Bytes} (after : Bytes) (hc : ¬ isSpecial c)
    (h : plain text = true) : literalBody singleQuote (text ++ singleQuote :: c :: after) = some (text, c :: after) := by
  induction text using plain.induct with
  | case1 => exact literalBody_closed after fun hEq => hc (.inl hEq)
  | case2 text =>
    rw [plain.eq_def] at h
    cases h
  | case3 => cases h
  | case4 b text hOpen ih =>
    obtain ⟨hWildcard, hPlain⟩ : (b = 0x25 ∨ b = 0x5f) ∧ plain text = true := by
      simpa [plain, hOpen] using h
    have hEscape : escape b = [backslash, b] := by
      obtain rfl | rfl := hWildcard <;> rfl
    rw [List.cons_append, List.cons_append, literalBody_escaped, ih hPlain, hEscape]
    rfl
  | case5 b text hOpen hEscape ih =>
    rw [plain_ordinary text (not_or.mpr ⟨hOpen, hEscape⟩)] at h
    rw [List.cons_append, literalBody_ordinary _ (not_or.mpr ⟨hOpen, hEscape⟩), ih h]
    rfl

/-- The tokens of a list of literals between parentheses, from behind the opening one. -/
def literals : List Bytes → List Lexeme
  | [] => []
  | [value] => [.literal value, .symbol 0x29]
  | value :: values => .literal value :: .symbol 0x2c :: literals values

theorem literals_cons_cons (value second : Bytes) (values : List Bytes) :
    literals (value :: second :: values) = .literal value :: .symbol 0x2c :: literals (second :: values) := rfl

theorem lexFrom_value {c : UInt8} {value after : Bytes} {tokens : List Lexeme} (hc : ¬ isSpecial c) :
    lexFrom (.literal singleQuote []) (value ++ singleQuote :: c :: after) = some (.literal value :: tokens) ↔
      plain value = true ∧ lexFrom .between (c :: after) = some tokens := by
  rw [lexFrom_literal]
  constructor
  · intro h
    obtain ⟨⟨more, rest⟩, hBody, hRest⟩ := Option.bind_eq_some_iff.mp h
    obtain ⟨tokens', hTokens, hEq⟩ := Option.map_eq_some_iff.mp hRest
    simp only [List.nil_append, List.cons.injEq, Lexeme.literal.injEq] at hEq
    obtain ⟨rfl, rfl⟩ := hEq
    have hPlain := plain_of_literalBody hc hBody
    rw [literalBody_plain after hc hPlain] at hBody
    cases hBody
    exact ⟨hPlain, hTokens⟩
  · rintro ⟨hPlain, hTokens⟩
    rw [literalBody_plain after hc hPlain]
    simp [hTokens]

theorem lexFrom_comma (text : Bytes) : lexFrom .between (0x2c :: 0x20 :: singleQuote :: text) =
    (lexFrom (.literal singleQuote []) text).map (.symbol 0x2c :: ·) := by
  rw [lexFrom_cons, lexFrom_cons, lexFrom_cons, Option.map_map, Option.map_map]
  rfl

/-- The literals denote the values exactly when every value is plain. -/
theorem lexFrom_literals {values : List Bytes} (h : values ≠ []) :
    lexFrom (.literal singleQuote []) ((lit "', '").intercalate values ++ lit "')") = some (literals values) ↔
      ∀ value ∈ values, plain value = true := by
  induction values with
  | nil => exact absurd rfl h
  | cons value values ih =>
    cases values with
    | nil =>
      have hText : (lit "', '").intercalate [value] ++ lit "')" = value ++ singleQuote :: 0x29 :: [] := by
        rw [List.intercalate_singleton]
        rfl
      rw [hText, literals, lexFrom_value (by decide), List.forall_mem_singleton]
      exact and_iff_left rfl
    | cons second values =>
      have hText : (lit "', '").intercalate (value :: second :: values) ++ lit "')" = value ++ singleQuote :: 0x2c ::
          (0x20 :: singleQuote :: ((lit "', '").intercalate (second :: values) ++ lit "')")) := by
        rw [List.intercalate_cons_cons, List.append_assoc, List.append_assoc]
        rfl
      rw [hText, literals_cons_cons, lexFrom_value (by decide), lexFrom_comma, List.forall_mem_cons, ← ih (by simp)]
      simp

end Lib.Sql
