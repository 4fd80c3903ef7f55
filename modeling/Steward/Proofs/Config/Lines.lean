import Steward.Proofs.Config.Grammar

/-!
# Expansion line by line

A line break ends every reference but one in braces, which goes on to the next `}` wherever that
stands. So as long as each `${` has its `}`, a text expands on its own, whatever lines follow it. A
`${` without a `}` is dropped when it stands at the end, and takes up a `}` of a later line when it
does not.

Results:
* `Reads.append_line`: a later line does not change what a `$` stands for.
* `pieces_append_line`: the pieces of two texts with a line break between them.
* `expand_intercalate`: a text whose lines have no open brace expands line by line.
* `expand_by_lines`: which texts expand on their own.
-/

namespace Steward.Config

/-- What follows a `$` begins with a brace that is never closed. -/
def OpensBrace (rest : List Char) : Prop := ∃ tail, rest = '{' :: tail ∧ '}' ∉ tail

/-- The scan of a text meets no `${` without a `}` behind it. -/
inductive IsClosed : List Char → Prop where
  | done : IsClosed []
  | copy {c : Char} {rest : List Char} (hc : c ≠ '$') (h : IsClosed rest) : IsClosed (c :: rest)
  | dollar {rest behind : List Char} {piece : Piece} (hpiece : Reads rest piece behind)
      (hopen : ¬OpensBrace rest) (h : IsClosed behind) : IsClosed ('$' :: rest)

/-- Whatever lines follow a text, the text expands on its own and so do they. -/
structure IsLocal (a : String) : Prop where
  /-- What the whole expands to. -/
  expand : ∀ lookup b, expand lookup (a ++ "\n" ++ b) = expand lookup a ++ "\n" ++ expand lookup b
  /-- The names that are looked up for the whole. -/
  references : ∀ b : String,
    references (a ++ "\n" ++ b).toList = references a.toList ++ references b.toList
  /-- The look-ups themselves, which may have effects: first those of the text, then those of the
      lines that follow. -/
  expandM : ∀ {m : Type → Type} [Monad m] [LawfulMonad m] (lookup : String → m (Option String))
      (b : String), expandM lookup (a ++ "\n" ++ b).toList = do
        let out ← expandM lookup a.toList
        let more ← expandM lookup b.toList
        pure (out ++ '\n' :: more)

/-! ## Later lines -/

variable {a b rest behind : List Char} {piece : Piece}

theorem pieces_copy {c : Char} (hc : c ≠ '$') (rest : List Char) :
    pieces (c :: rest) = .copied c :: pieces rest := by
  rw [pieces, if_neg hc]

theorem pieces_dollar (h : Reads rest piece behind) :
    pieces ('$' :: rest) = piece :: pieces behind := by
  rw [pieces, if_pos rfl, reads_iff.mp h]

/-- What stands at the end of a text is not continued by a line break. -/
theorem forall_head?_append_line {p : Char → Prop} (hp : p '\n') (h : ∀ c ∈ rest.head?, p c)
    (b : List Char) : ∀ c ∈ (rest ++ '\n' :: b).head?, p c := by
  cases rest with
  | nil =>
    intro c hc
    obtain rfl : '\n' = c := Option.some.inj hc
    exact hp
  | cons d rest => exact h

/-- A later line does not change what a `$` stands for, unless it opens a brace that is never
    closed. -/
theorem Reads.append_line (h : Reads rest piece behind) (hopen : ¬OpensBrace rest)
    (b : List Char) : Reads (rest ++ '\n' :: b) piece (behind ++ '\n' :: b) := by
  cases h with
  | @braced name behind hne hclose =>
    have hbraced : Reads ('{' :: name ++ '}' :: (behind ++ '\n' :: b)) (.reference name) _ :=
      .braced hne hclose
    simpa using hbraced
  | bracedNothing => exact .bracedNothing
  | unclosed hclose => exact absurd ⟨_, rfl, hclose⟩ hopen
  | special hc => exact .special hc
  | @word c name behind hspecial hname hrest =>
    rw [List.append_assoc]
    exact .word hspecial hname (forall_head?_append_line (by decide) hrest b)
  | alone h => exact .alone (forall_head?_append_line (by decide) h b)

/-- The pieces of two texts with a line break between them. -/
theorem pieces_append_line (h : IsClosed a) (b : List Char) :
    pieces (a ++ '\n' :: b) = pieces a ++ .copied '\n' :: pieces b := by
  induction h with
  | done => rw [List.nil_append, pieces_copy (by decide), pieces, List.nil_append]
  | copy hc _ ih => rw [List.cons_append, pieces_copy hc, pieces_copy hc, ih, List.cons_append]
  | dollar hpiece hopen _ ih =>
    rw [List.cons_append, pieces_dollar (hpiece.append_line hopen b), pieces_dollar hpiece, ih,
      List.cons_append]

theorem expandM_append_line {m : Type → Type} [Monad m] [LawfulMonad m]
    (lookup : String → m (Option String)) (h : IsClosed a) (b : List Char) :
    expandM lookup (a ++ '\n' :: b) = (do
      let out ← expandM lookup a
      let more ← expandM lookup b
      pure (out ++ '\n' :: more)) := by
  induction h with
  | done => simp [expandM]
  | copy hc _ ih => simp [expandM, hc, ih]
  | dollar hpiece hopen _ ih =>
    have hlonger := reads_iff.mp (hpiece.append_line hopen b)
    simp [expandM, reads_iff.mp hpiece, hlonger, ih]

theorem IsClosed.isLocal {a : String} (h : IsClosed a.toList) : IsLocal a := by
  have hline (b : String) : (a ++ "\n" ++ b).toList = a.toList ++ '\n' :: b.toList := by simp
  constructor
  · intro lookup b
    apply String.toList_injective
    simp [expand, hline, pieces_append_line h, Piece.render]
  · intro b
    simp [references, hline, pieces_append_line h]
  · intro m _ _ lookup b
    rw [hline, expandM_append_line lookup h]

/-- A text whose lines have no open brace expands line by line. -/
theorem expand_intercalate (lookup : String → Option String) {lines : List String}
    (h : ∀ line ∈ lines, IsClosed line.toList) :
    expand lookup ("\n".intercalate lines) = "\n".intercalate (lines.map (expand lookup)) := by
  induction lines with
  | nil => simp [expand, pieces]
  | cons line later ih =>
    obtain ⟨hline, hlater⟩ := List.forall_mem_cons.mp h
    cases later with
    | nil => rw [List.map_singleton, String.intercalate_singleton, String.intercalate_singleton]
    | cons next later =>
      rw [String.intercalate_cons_cons, hline.isLocal.expand, ih hlater]
      simp only [List.map_cons, String.intercalate_cons_cons]

/-! ## Open braces -/

/-- What is left of a text when all variables are unset. -/
def bare (text : List Char) : List Char := (pieces text).flatMap (Piece.render fun _ => none)

theorem toList_expand_none (a : String) : (expand (fun _ => none) a).toList = bare a.toList := by
  simp [expand, bare]

theorem bare_nil : bare [] = [] := by
  simp [bare, pieces]

theorem bare_copy {c : Char} (hc : c ≠ '$') (rest : List Char) :
    bare (c :: rest) = c :: bare rest := by
  simp [bare, pieces_copy hc, Piece.render]

theorem bare_dollar (h : Reads rest piece behind) :
    bare ('$' :: rest) = piece.render (fun _ => none) ++ bare behind := by
  simp [bare, pieces_dollar h]

/-- A brace on the next line closes a brace that was open, and what stands between them is lost. -/
theorem length_bare_lt (h : ¬IsClosed a) :
    (bare (a ++ ['\n', '}'])).length < (bare a).length + 2 := by
  induction a using pieces.induct with
  | case1 => exact absurd .done h
  | case2 rest ih =>
    obtain ⟨piece, behind, hpiece⟩ := exists_reads rest
    rw [reads_iff.mp hpiece] at ih
    by_cases hopen : OpensBrace rest
    · -- The name now goes on over the line break up to the new brace, and no variable is set.
      obtain ⟨tail, rfl, hclose⟩ := hopen
      have hname : '}' ∉ tail ++ ['\n'] := by simpa using hclose
      have hbraced : Reads ('{' :: (tail ++ ['\n']) ++ ['}']) (.reference (tail ++ ['\n'])) [] :=
        .braced (by simp) hname
      have hlost : bare ('$' :: '{' :: tail ++ ['\n', '}']) = [] := by
        simpa [Piece.render, bare_nil] using bare_dollar hbraced
      rw [hlost, List.length_nil]
      omega
    · have hbehind : (bare (behind ++ ['\n', '}'])).length < (bare behind).length + 2 :=
        ih fun hclosed => h (.dollar hpiece hopen hclosed)
      rw [List.cons_append, bare_dollar (hpiece.append_line hopen ['}']), bare_dollar hpiece,
        List.length_append, List.length_append]
      omega
  | case3 c rest hc ih =>
    have hrest := ih fun hclosed => h (.copy hc hclosed)
    rw [List.cons_append, bare_copy hc, bare_copy hc, List.length_cons, List.length_cons]
    omega

theorem IsLocal.isClosed {a : String} (h : IsLocal a) : IsClosed a.toList := by
  by_contra hopen
  have hlt := length_bare_lt hopen
  -- A line with nothing but a closing brace tells an open brace from a text that expands alone.
  have heq : bare (a.toList ++ ['\n', '}']) = bare a.toList ++ ['\n', '}'] := by
    have hexpand := congrArg String.toList (h.expand (fun _ => none) "\x7d")
    have hbrace : bare ['}'] = ['}'] := by
      rw [bare_copy (by decide), bare_nil]
    simpa [toList_expand_none, hbrace] using hexpand
  rw [heq, List.length_append] at hlt
  exact absurd hlt (by simp)

/-- A text expands on its own, whatever lines follow it, and the names in it are looked up before
    theirs, exactly if the scan of it meets no `${` without a `}` behind it. -/
theorem expand_by_lines (a : String) : IsLocal a ↔ IsClosed a.toList :=
  ⟨IsLocal.isClosed, IsClosed.isLocal⟩

end Steward.Config
