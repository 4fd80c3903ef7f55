import Mathlib.Data.List.TakeWhile
import Steward.Config.Expansion

/-!
# The grammar of variable references

What a `$` stands for is told by rules for what follows it, one for each form of reference. A text
is scanned once, from left to right; each text is scanned in one way only. The expansion looks up
the names that the scan meets, in order, and fills in their values. What is looked up does not
depend on the values, and the values are not scanned.

Results:
* `reads_iff`, `scan_iff`: the scanner follows the rules, and they leave it no choice.
* `expandM_eq`: an expansion whose look-ups have effects looks up the names of the scan, in order.
* `expand_follows_grammar`: what a text expands to, and what is looked up for it.
-/

namespace Steward.Config

/-! ## Rules -/

/-- One of `*#$@!?-` or a digit: a name on its own. -/
def IsSpecial (c : Char) : Prop := c ∈ ['*', '#', '$', '@', '!', '?', '-'] ∨ '0' ≤ c ∧ c ≤ '9'

/-- One of `[A-Za-z0-9_]`: a character of an ordinary name. -/
def IsWord (c : Char) : Prop :=
  'A' ≤ c ∧ c ≤ 'Z' ∨ 'a' ≤ c ∧ c ≤ 'z' ∨ '0' ≤ c ∧ c ≤ '9' ∨ c = '_'

instance (c : Char) : Decidable (IsSpecial c) := inferInstanceAs (Decidable (_ ∨ _))

instance (c : Char) : Decidable (IsWord c) := inferInstanceAs (Decidable (_ ∨ _))

/-- What a `$` stands for, by the text behind it, and what is left of that text. -/
inductive Reads : List Char → Piece → List Char → Prop where
  /-- `${` and a non-empty text up to the first `}`. -/
  | braced {name rest : List Char} (hne : name ≠ []) (hclose : '}' ∉ name) :
      Reads ('{' :: name ++ '}' :: rest) (.reference name) rest
  /-- `${}`. -/
  | bracedNothing {rest : List Char} : Reads ('{' :: '}' :: rest) .dropped rest
  /-- `${` without a `}` behind it. -/
  | unclosed {rest : List Char} (hclose : '}' ∉ rest) : Reads ('{' :: rest) .dropped rest
  /-- A name of one character. -/
  | special {c : Char} {rest : List Char} (hc : IsSpecial c) :
      Reads (c :: rest) (.reference [c]) rest
  /-- The longest run of the characters of ordinary names. -/
  | word {c : Char} {name rest : List Char} (hspecial : ¬IsSpecial c)
      (hname : ∀ d ∈ c :: name, IsWord d) (hrest : ∀ d ∈ rest.head?, ¬IsWord d) :
      Reads (c :: name ++ rest) (.reference (c :: name)) rest
  /-- Anything else, or the end of the text. -/
  | alone {rest : List Char} (h : ∀ c ∈ rest.head?, c ≠ '{' ∧ ¬IsSpecial c ∧ ¬IsWord c) :
      Reads rest (.copied '$') rest

/-- The pieces of a text, from left to right. -/
inductive Scan : List Char → List Piece → Prop where
  | done : Scan [] []
  | copy {c : Char} {rest : List Char} {ps : List Piece} (hc : c ≠ '$') (h : Scan rest ps) :
      Scan (c :: rest) (.copied c :: ps)
  | dollar {rest behind : List Char} {piece : Piece} {ps : List Piece}
      (hpiece : Reads rest piece behind) (h : Scan behind ps) : Scan ('$' :: rest) (piece :: ps)

/-- The names that pieces refer to, in order. -/
def namesOf : List Piece → List String
  | [] => []
  | .reference name :: ps => String.ofList name :: namesOf ps
  | .copied _ :: ps | .dropped :: ps => namesOf ps

/-- The text that pieces make with the values of their references, in order. A reference without a
    value leaves nothing behind. -/
def fill : List Piece → List (Option String) → List Char
  | [], _ => []
  | .copied c :: ps, values => c :: fill ps values
  | .dropped :: ps, values => fill ps values
  | .reference _ :: ps, value :: values => (value.getD "").toList ++ fill ps values
  | .reference _ :: ps, [] => fill ps []

/-! ## The scanner -/

theorem isSpecialName_iff (c : Char) : isSpecialName c = true ↔ IsSpecial c := by
  unfold isSpecialName IsSpecial Char.isDigit
  rw [Bool.or_eq_true, List.contains_iff_mem, Bool.and_eq_true, decide_eq_true_iff,
    decide_eq_true_iff]
  rfl

theorem isNameChar_iff (c : Char) : isNameChar c = true ↔ IsWord c := by
  unfold isNameChar IsWord Char.isAlphanum Char.isAlpha Char.isUpper Char.isLower Char.isDigit
  simp only [Bool.or_eq_true, Bool.and_eq_true, decide_eq_true_iff, beq_iff_eq, or_assoc]
  rfl

theorem isSpecialName_eq_false {c : Char} (h : ¬IsSpecial c) : isSpecialName c = false :=
  Bool.eq_false_iff.mpr fun hc => h ((isSpecialName_iff c).mp hc)

theorem isNameChar_eq_false {c : Char} (h : ¬IsWord c) : isNameChar c = false :=
  Bool.eq_false_iff.mpr fun hc => h ((isNameChar_iff c).mp hc)

theorem ne_brace_of_isSpecial {c : Char} (h : IsSpecial c) : c ≠ '{' := by
  rintro rfl
  exact absurd h (by decide)

theorem ne_brace_of_isWord {c : Char} (h : IsWord c) : c ≠ '{' := by
  rintro rfl
  exact absurd h (by decide)

/-- A run of name characters ends where the text does or another character stands. -/
theorem span_name {name rest : List Char} (hname : ∀ d ∈ name, IsWord d)
    (hrest : ∀ d ∈ rest.head?, ¬IsWord d) :
    (name ++ rest).takeWhile isNameChar = name ∧ (name ++ rest).dropWhile isNameChar = rest := by
  have hall : ∀ d ∈ name, isNameChar d = true := fun d hd => (isNameChar_iff d).mpr (hname d hd)
  rw [List.takeWhile_append_of_pos hall, List.dropWhile_append_of_pos hall]
  cases rest with
  | nil => simp
  | cons d rest =>
    have hd : isNameChar d = false := isNameChar_eq_false (hrest d rfl)
    simp [hd]

/-- The text up to the first `}`. -/
theorem span_braced {name : List Char} (hclose : '}' ∉ name) (rest : List Char) :
    (name ++ '}' :: rest).takeWhile (· ≠ '}') = name ∧
      (name ++ '}' :: rest).dropWhile (· ≠ '}') = '}' :: rest := by
  have hall : ∀ d ∈ name, decide (d ≠ '}') = true := by
    intro d hd
    rw [decide_eq_true_iff]
    rintro rfl
    exact hclose hd
  rw [List.takeWhile_append_of_pos hall, List.dropWhile_append_of_pos hall]
  simp

theorem readReference_of_reads {rest behind : List Char} {piece : Piece}
    (h : Reads rest piece behind) : readReference rest = (piece, behind) := by
  cases h with
  | @braced name _ hne hclose =>
    obtain ⟨htake, hdrop⟩ := span_braced hclose behind
    simp only [List.cons_append, readReference, ↓reduceIte, htake, hdrop]
  | bracedNothing => simp [readReference]
  | @unclosed behind hclose =>
    have hdrop : behind.dropWhile (· ≠ '}') = [] := by
      rw [List.dropWhile_eq_nil_iff]
      intro d hd
      rw [decide_eq_true_iff]
      rintro rfl
      exact hclose hd
    simp only [readReference, ↓reduceIte, hdrop]
  | @special c _ hc =>
    simp [readReference, ne_brace_of_isSpecial hc, (isSpecialName_iff c).mpr hc]
  | @word c name _ hspecial hname hrest =>
    have hc : IsWord c := hname c List.mem_cons_self
    obtain ⟨htake, hdrop⟩ := span_name (fun d hd => hname d (List.mem_cons_of_mem c hd)) hrest
    simp [readReference, ne_brace_of_isWord hc, isSpecialName_eq_false hspecial,
      (isNameChar_iff c).mpr hc, htake, hdrop]
  | alone h =>
    cases rest with
    | nil => rfl
    | cons c rest =>
      obtain ⟨hbrace, hspecial, hword⟩ := h c rfl
      simp [readReference, hbrace, isSpecialName_eq_false hspecial, isNameChar_eq_false hword]

/-- Each text falls into a run of characters of some kind and what stands behind it. -/
theorem exists_span (p : Char → Bool) (text : List Char) :
    ∃ run behind, text = run ++ behind ∧ (∀ d ∈ run, p d = true) ∧
      ∀ d ∈ behind.head?, p d = false := by
  refine ⟨text.takeWhile p, text.dropWhile p, List.takeWhile_append_dropWhile.symm,
    fun d => List.mem_takeWhile_imp, fun d hd => ?_⟩
  have hstop := List.head?_dropWhile_not p text
  rw [Option.mem_def.mp hd] at hstop
  exact hstop

theorem exists_reads (rest : List Char) : ∃ piece behind, Reads rest piece behind := by
  cases rest with
  | nil => exact ⟨_, _, .alone (by simp)⟩
  | cons c tail =>
    by_cases hbrace : c = '{'
    · obtain ⟨name, behind, rfl, hname, hbehind⟩ := exists_span (· ≠ '}') tail
      have hclose : '}' ∉ name := fun h => by simpa using hname '}' h
      subst hbrace
      cases behind with
      | nil => exact ⟨_, _, .unclosed (by simpa using hclose)⟩
      | cons d behind =>
        obtain rfl : d = '}' := by simpa using hbehind d rfl
        by_cases hne : name = []
        · subst hne
          exact ⟨_, _, .bracedNothing⟩
        · exact ⟨_, _, .braced hne hclose⟩
    · by_cases hspecial : IsSpecial c
      · exact ⟨_, _, .special hspecial⟩
      · by_cases hword : IsWord c
        · obtain ⟨name, behind, rfl, hname, hbehind⟩ := exists_span isNameChar tail
          have hrun : ∀ d ∈ c :: name, IsWord d :=
            List.forall_mem_cons.mpr ⟨hword, fun d hd => (isNameChar_iff d).mp (hname d hd)⟩
          refine ⟨_, _, .word hspecial hrun fun d hd => ?_⟩
          rw [← isNameChar_iff, hbehind d hd]
          exact Bool.false_ne_true
        · refine ⟨_, _, .alone fun d hd => ?_⟩
          obtain rfl : c = d := Option.some.inj hd
          exact ⟨hbrace, hspecial, hword⟩

/-- A `$` is read as the rules say, and they leave no choice. -/
theorem reads_iff {rest behind : List Char} {piece : Piece} :
    Reads rest piece behind ↔ readReference rest = (piece, behind) := by
  refine ⟨readReference_of_reads, fun h => ?_⟩
  obtain ⟨piece', behind', hreads⟩ := exists_reads rest
  obtain ⟨rfl, rfl⟩ := Prod.mk.inj ((readReference_of_reads hreads).symm.trans h)
  exact hreads

theorem pieces_of_scan {text : List Char} {ps : List Piece} (h : Scan text ps) :
    pieces text = ps := by
  induction h with
  | done => rw [pieces]
  | copy hc _ ih => rw [pieces, if_neg hc, ih]
  | dollar hpiece _ ih => rw [pieces, if_pos rfl, reads_iff.mp hpiece, ih]

theorem scan_pieces (text : List Char) : Scan text (pieces text) := by
  induction text using pieces.induct with
  | case1 =>
    rw [pieces]
    exact .done
  | case2 rest ih =>
    rw [pieces, if_pos rfl]
    exact .dollar (reads_iff.mpr rfl) ih
  | case3 c rest hc ih =>
    rw [pieces, if_neg hc]
    exact .copy hc ih

/-- A text is scanned as the rules say, and they leave no choice. -/
theorem scan_iff {text : List Char} {ps : List Piece} : Scan text ps ↔ ps = pieces text :=
  ⟨fun h => (pieces_of_scan h).symm, fun h => h ▸ scan_pieces text⟩

/-! ## The expansion -/

theorem references_eq (text : List Char) : references text = namesOf (pieces text) := by
  unfold references
  induction pieces text with
  | nil => rfl
  | cons p ps ih => cases p <;> simp [namesOf, ih]

theorem expand_eq (lookup : String → Option String) (text : String) :
    expand lookup text =
      String.ofList (fill (pieces text.toList) ((namesOf (pieces text.toList)).map lookup)) := by
  unfold expand
  congr 1
  induction pieces text.toList with
  | nil => rfl
  | cons p ps ih => cases p <;> simp [Piece.render, namesOf, fill, ih]

section
variable {m : Type → Type} [Monad m]

/-- Looks up what a piece refers to and tells what becomes of it. -/
def Piece.renderM (lookup : String → m (Option String)) : Piece → m (List Char)
  | .copied c => pure [c]
  | .reference name => do
    let value ← lookup (String.ofList name)
    pure (value.getD "").toList
  | .dropped => pure []

/-- Expands a text in one go: each reference is looked up when it is met, and before what stands
    behind it is scanned. -/
def expandM (lookup : String → m (Option String)) : List Char → m (List Char)
  | [] => pure []
  | c :: rest =>
    if c = '$' then do
      let out ← (readReference rest).1.renderM lookup
      let more ← expandM lookup (readReference rest).2
      pure (out ++ more)
    else do
      let more ← expandM lookup rest
      pure (c :: more)
termination_by text => text.length
decreasing_by
  · have := length_readReference_le rest
    simp only [List.length_cons]
    omega
  · simp

/-- The look-ups of an expansion are those of the names in the text, in order; the values have no
    part in what is looked up. -/
theorem expandM_eq [LawfulMonad m] (lookup : String → m (Option String)) (text : List Char) :
    expandM lookup text = fill (pieces text) <$> (namesOf (pieces text)).mapM lookup := by
  induction text using pieces.induct with
  | case1 => simp [expandM, pieces, namesOf, fill]
  | case2 rest ih =>
    rw [expandM, if_pos rfl, pieces, if_pos rfl, ih]
    cases (readReference rest).1 <;> simp [Piece.renderM, namesOf, fill]
  | case3 c rest hc ih =>
    rw [expandM, if_neg hc, pieces, if_neg hc, ih]
    simp [namesOf, fill]

end

/-- A look-up that writes down what it is asked for. -/
def recorded (lookup : String → Option String) (name : String) :
    StateM (List String) (Option String) := do
  modify (· ++ [name])
  pure (lookup name)

theorem mapM_recorded (lookup : String → Option String) (names seen : List String) :
    (names.mapM (recorded lookup)).run seen = (names.map lookup, seen ++ names) := by
  induction names generalizing seen with
  | nil => simp; rfl
  | cons name names ih =>
    simp [recorded, ih]
    rfl

/-- Each text is scanned in one way, whatever is looked up. It expands to its pieces with the values
    of their references, and its names are looked up once each time they are met, in order. -/
theorem expand_follows_grammar (text : String) :
    ∃ ps, (∀ qs, Scan text.toList qs ↔ qs = ps) ∧ references text.toList = namesOf ps ∧
      ∀ lookup : String → Option String,
        expand lookup text = String.ofList (fill ps ((namesOf ps).map lookup)) ∧
        (expandM (recorded lookup) text.toList).run [] =
          ((expand lookup text).toList, namesOf ps) := by
  refine ⟨pieces text.toList, fun _ => scan_iff, references_eq _, fun lookup => ?_⟩
  have hexpand := expand_eq lookup text
  refine ⟨hexpand, ?_⟩
  rw [expandM_eq, hexpand, String.toList_ofList, StateT.run_map, mapM_recorded]
  rfl

end Steward.Config
