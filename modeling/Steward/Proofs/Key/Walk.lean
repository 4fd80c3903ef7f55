import Steward.Key.Path

/-!
# Keys as walks

A key is read as a walk. Empty segments and `.` stay where they are, `..` goes up, any other segment
goes down. There is nothing above the root; in a relative key the steps up beyond the start are
counted. A cleaned key is the normal form of its walk: it has no other segments than the surplus
steps up, then the names that lead down.

Results:
* `resolve_eq`, `cleanChars_eq`: cleaning takes the walk and writes its normal form.
* `isRooted_text`, `walk_text`: a normal form is read back as the walk it was written for, so it
  belongs to one walk only.
* `join_canonical`: what a key under a namespace is.
-/

namespace Steward.Key

/-! ## Positions -/

/-- Where a walk has led. -/
structure Position where
  /-- The steps up beyond the start. -/
  ups : Nat := 0
  /-- The names that lead down from there, first one first. -/
  names : List (List Char) := []
  deriving DecidableEq, Repr

/-- True of the segments that go down. -/
structure IsName (segment : List Char) : Prop where
  ne_nil : segment ≠ []
  ne_dot : segment ≠ ['.']
  ne_parent : segment ≠ parentSegment
  slash_notMem : '/' ∉ segment

namespace Position

variable {rooted : Bool} {p : Position} {segment : List Char} {segments : List (List Char)}

/-- The position one step up. There is nothing above the root. -/
def up (rooted : Bool) (p : Position) : Position :=
  if p.names = [] then if rooted then p else { p with ups := p.ups + 1 }
  else { p with names := p.names.dropLast }

/-- The position after one more segment. -/
def step (rooted : Bool) (p : Position) (segment : List Char) : Position :=
  if segment = [] ∨ segment = ['.'] then p
  else if segment = parentSegment then p.up rooted
  else { p with names := p.names ++ [segment] }

/-- The segments of the shortest walk to a position. -/
def route (p : Position) : List (List Char) := List.replicate p.ups parentSegment ++ p.names

/-- The normal form of the walks to a position. -/
def text (rooted : Bool) (p : Position) : List Char :=
  if rooted then '/' :: ['/'].intercalate p.names
  else if p.route = [] then ['.']
  else ['/'].intercalate p.route

/-- True of the positions that walks lead to. -/
structure IsProper (rooted : Bool) (p : Position) : Prop where
  ups_eq : rooted = true → p.ups = 0
  isName : ∀ name ∈ p.names, IsName name

theorem isProper_start : IsProper rooted {} := ⟨fun _ => rfl, by simp⟩

theorem IsProper.up (h : p.IsProper rooted) : (p.up rooted).IsProper rooted := by
  unfold Position.up
  split
  · split
    · exact h
    · exact ⟨fun hrooted => absurd hrooted ‹_›, h.isName⟩
  · exact ⟨h.ups_eq, fun name hname => h.isName name (List.dropLast_subset _ hname)⟩

theorem IsProper.step (h : p.IsProper rooted) (hslash : '/' ∉ segment) :
    (p.step rooted segment).IsProper rooted := by
  unfold Position.step
  split
  · exact h
  · rename_i hstay
    obtain ⟨hnil, hdot⟩ := not_or.mp hstay
    split
    · exact h.up
    · rename_i hparent
      refine ⟨h.ups_eq, fun name hname => ?_⟩
      obtain hname | hname := List.mem_append.mp hname
      · exact h.isName name hname
      · rw [List.mem_singleton.mp hname]
        exact ⟨hnil, hdot, hparent, hslash⟩

theorem IsProper.foldl (h : p.IsProper rooted) (hslash : ∀ s ∈ segments, '/' ∉ s) :
    (segments.foldl (Position.step rooted) p).IsProper rooted := by
  induction segments generalizing p with
  | nil => exact h
  | cons s rest ih =>
    exact ih (h.step (hslash s List.mem_cons_self)) fun t ht => hslash t (List.mem_cons_of_mem _ ht)

theorem IsProper.of_mem_route (h : p.IsProper rooted) : ∀ s ∈ p.route, s ≠ [] ∧ '/' ∉ s := by
  intro s hs
  obtain hs | hs := List.mem_append.mp hs
  · rw [List.eq_of_mem_replicate hs]
    decide
  · exact ⟨(h.isName s hs).ne_nil, (h.isName s hs).slash_notMem⟩

theorem IsProper.route_eq (h : p.IsProper true) : p.route = p.names := by
  unfold Position.route
  rw [h.ups_eq rfl]
  rfl

/-! ## The stack of a walk -/

/-- The segments that lead to a position, last one on top. -/
def stack (p : Position) : List (List Char) := p.route.reverse

theorem stack_up (h : p.IsProper rooted) :
    pushSegment rooted p.stack parentSegment = (p.up rooted).stack := by
  obtain ⟨ups, names⟩ := p
  have hparent : ¬(parentSegment = [] ∨ parentSegment = ['.']) := by decide
  unfold pushSegment
  rw [if_neg hparent, if_pos rfl]
  obtain rfl | ⟨names, last, rfl⟩ := List.eq_nil_or_concat names
  · -- Only steps up lie on the stack, and at the root not even those.
    cases rooted with
    | true =>
      obtain rfl : ups = 0 := h.ups_eq rfl
      rfl
    | false =>
      cases ups with
      | zero => rfl
      | succ ups => simp [stack, route, up, List.replicate_succ']
  · have hlast : last ≠ parentSegment := (h.isName last (by simp)).ne_parent
    simp [stack, route, up, hlast]

theorem stack_step (h : p.IsProper rooted) (segment : List Char) :
    pushSegment rooted p.stack segment = (p.step rooted segment).stack := by
  unfold step
  split
  · rename_i hstay
    unfold pushSegment
    rw [if_pos hstay]
  · rename_i hstay
    split
    · rename_i hparent
      rw [hparent]
      exact stack_up h
    · rename_i hparent
      unfold pushSegment
      rw [if_neg hstay, if_neg hparent]
      simp [stack, route]

theorem stack_foldl (h : p.IsProper rooted) (hslash : ∀ s ∈ segments, '/' ∉ s) :
    segments.foldl (pushSegment rooted) p.stack =
      (segments.foldl (Position.step rooted) p).stack := by
  induction segments generalizing p with
  | nil => rfl
  | cons s rest ih =>
    rw [List.foldl_cons, List.foldl_cons, stack_step h]
    exact ih (h.step (hslash s List.mem_cons_self)) fun t ht => hslash t (List.mem_cons_of_mem _ ht)

end Position

/-! ## Walks -/

variable {rooted : Bool} {p : Position} {segments : List (List Char)}

theorem slash_notMem_of_mem_splitOn {key s : List Char} (hs : s ∈ key.splitOn '/') : '/' ∉ s := by
  induction key generalizing s with
  | nil =>
    rw [List.splitOn_nil, List.mem_singleton] at hs
    simp [hs]
  | cons c key ih =>
    rw [List.splitOn_cons_eq_if_modifyHead] at hs
    split at hs
    · obtain rfl | hs := List.mem_cons.mp hs
      · simp
      · exact ih hs
    · rename_i hc
      obtain ⟨first, rest, hkey⟩ := List.exists_cons_of_ne_nil (List.splitOn_ne_nil '/' key)
      rw [hkey] at hs ih
      obtain rfl | hs := List.mem_cons.mp hs
      · have hfirst : '/' ∉ first := ih List.mem_cons_self
        exact List.not_mem_cons_of_ne_of_not_mem (fun h => hc (beq_iff_eq.mpr h.symm)) hfirst
      · exact ih (List.mem_cons_of_mem _ hs)

/-- Where the walk of a key leads. -/
def walk (key : List Char) : Position :=
  (key.splitOn '/').foldl (Position.step (isRooted key)) {}

theorem isProper_walk (key : List Char) : (walk key).IsProper (isRooted key) :=
  Position.isProper_start.foldl fun _ => slash_notMem_of_mem_splitOn

/-- The segments that remain of a key are the shortest walk to the same place. -/
theorem resolve_eq (hslash : ∀ s ∈ segments, '/' ∉ s) :
    resolve rooted segments = (segments.foldl (Position.step rooted) {}).route := by
  unfold resolve
  rw [show ([] : List (List Char)) = Position.stack {} from rfl,
    Position.stack_foldl Position.isProper_start hslash]
  exact List.reverse_reverse _

theorem intercalate_eq_nil_iff (hsegments : ∀ s ∈ segments, s ≠ [] ∧ '/' ∉ s) :
    ['/'].intercalate segments = [] ↔ segments = [] := by
  match segments with
  | [] => simp
  | [s] => simp [(hsegments s List.mem_cons_self).1]
  | s :: t :: rest => simp [List.intercalate_cons_cons]

theorem ofSegments_route (h : p.IsProper rooted) : ofSegments rooted p.route = p.text rooted := by
  unfold ofSegments Position.text
  cases rooted with
  | true => rw [if_pos rfl, if_pos rfl, h.route_eq]
  | false => simp [intercalate_eq_nil_iff h.of_mem_route]

/-- A cleaned key is the normal form of its walk. -/
theorem cleanChars_eq (key : List Char) : cleanChars key = (walk key).text (isRooted key) := by
  unfold cleanChars
  rw [resolve_eq fun _ => slash_notMem_of_mem_splitOn]
  exact ofSegments_route (isProper_walk key)

/-! ## Normal forms -/

theorem head?_intercalate {s : List Char} (hs : s ≠ []) (rest : List (List Char)) :
    (['/'].intercalate (s :: rest)).head? = s.head? := by
  obtain ⟨c, cs, rfl⟩ := List.exists_cons_of_ne_nil hs
  cases rest with
  | nil => simp
  | cons t rest => simp [List.intercalate_cons_cons]

theorem isRooted_text (h : p.IsProper rooted) : isRooted (p.text rooted) = rooted := by
  unfold isRooted Position.text
  cases rooted with
  | true => rfl
  | false =>
    rw [if_neg Bool.false_ne_true]
    split
    · rfl
    · rename_i hroute
      obtain ⟨s, rest, hs⟩ := List.exists_cons_of_ne_nil hroute
      have hmem : s ∈ p.route := hs ▸ List.mem_cons_self
      obtain ⟨hne, hslash⟩ := h.of_mem_route s hmem
      obtain ⟨c, cs, rfl⟩ := List.exists_cons_of_ne_nil hne
      have hc : c ≠ '/' := fun hc => hslash (hc ▸ List.mem_cons_self)
      rw [hs, head?_intercalate (List.cons_ne_nil c cs)]
      simp [hc]

theorem foldl_names (hnames : ∀ name ∈ segments, IsName name) (p : Position) :
    segments.foldl (Position.step rooted) p = { p with names := p.names ++ segments } := by
  induction segments generalizing p with
  | nil => simp
  | cons name rest ih =>
    have hname := hnames name List.mem_cons_self
    have hstep : p.step rooted name = { p with names := p.names ++ [name] } := by
      unfold Position.step
      rw [if_neg (not_or.mpr ⟨hname.ne_nil, hname.ne_dot⟩), if_neg hname.ne_parent]
    rw [List.foldl_cons, hstep, ih fun n hn => hnames n (List.mem_cons_of_mem _ hn)]
    simp

theorem foldl_ups (count ups : Nat) :
    (List.replicate count parentSegment).foldl (Position.step false) { ups := ups } =
      { ups := ups + count } := by
  induction count generalizing ups with
  | zero => rfl
  | succ count ih =>
    rw [List.replicate_succ, List.foldl_cons]
    calc (List.replicate count parentSegment).foldl (Position.step false) { ups := ups + 1 }
      _ = { ups := ups + 1 + count } := ih (ups + 1)
      _ = { ups := ups + (count + 1) } := by rw [Nat.add_right_comm, Nat.add_assoc]

/-- A normal form is read back as the walk that it was written for. -/
theorem walk_text (h : p.IsProper rooted) : walk (p.text rooted) = p := by
  unfold walk
  rw [isRooted_text h]
  unfold Position.text
  cases rooted with
  | true =>
    obtain ⟨ups, names⟩ := p
    obtain rfl : ups = 0 := h.ups_eq rfl
    rw [if_pos rfl, List.splitOn_cons_eq_if_modifyHead, if_pos (by decide), List.foldl_cons]
    show (List.splitOn '/' (['/'].intercalate names)).foldl (Position.step true) {} = _
    by_cases hnames : names = []
    · rw [hnames]
      rfl
    · rw [List.splitOn_intercalate '/' (fun s hs => (h.isName s hs).slash_notMem) hnames,
        foldl_names h.isName]
      rfl
  | false =>
    rw [if_neg Bool.false_ne_true]
    split
    · rename_i hroute
      obtain ⟨hups, hnames⟩ := List.append_eq_nil_iff.mp hroute
      obtain ⟨ups, names⟩ := p
      obtain rfl : names = [] := hnames
      obtain rfl : ups = 0 := List.replicate_eq_nil_iff _ |>.mp hups
      rfl
    · rename_i hroute
      rw [List.splitOn_intercalate '/' (fun s hs => (h.of_mem_route s hs).2) hroute]
      unfold Position.route
      rw [List.foldl_append, foldl_ups, foldl_names h.isName]
      simp

/-- A cleaned key is clean. -/
theorem cleanChars_cleanChars (key : List Char) : cleanChars (cleanChars key) = cleanChars key := by
  have h := isProper_walk key
  rw [cleanChars_eq key, cleanChars_eq, walk_text h, isRooted_text h]

/-- Cleaned keys are equal if their walks are. -/
theorem cleanChars_eq_iff (key key' : List Char) :
    cleanChars key = cleanChars key' ↔ isRooted key = isRooted key' ∧ walk key = walk key' := by
  constructor
  · intro h
    rw [cleanChars_eq, cleanChars_eq] at h
    constructor
    · rw [← isRooted_text (isProper_walk key), h, isRooted_text (isProper_walk key')]
    · rw [← walk_text (isProper_walk key), h, walk_text (isProper_walk key')]
  · rintro ⟨hrooted, hwalk⟩
    rw [cleanChars_eq, cleanChars_eq, hrooted, hwalk]

/-! ## Keys under a namespace -/

/-- A namespace and a key with a slash between them; an empty part is left out. -/
def joinedText (namespaced key : String) : List Char :=
  ['/'].intercalate ([namespaced.toList, key.toList].filter (· ≠ []))

theorem joinedChars_eq (namespaced key : String) :
    joinedChars namespaced.toList key.toList = joinedText namespaced key := by
  unfold joinedChars joinedText
  by_cases hnamespaced : namespaced.toList = []
  · by_cases hkey : key.toList = []
    · simp [hnamespaced, hkey]
    · simp [hnamespaced, hkey]
  · by_cases hkey : key.toList = []
    · simp [hnamespaced, hkey]
    · simp [hnamespaced, hkey, List.intercalate_cons_cons]

theorem join_eq {namespaced key : String} (h : namespaced ≠ "" ∨ key ≠ "") :
    join namespaced key = String.ofList (cleanChars (joinedText namespaced key)) := by
  have hparts : ¬(namespaced.toList = [] ∧ key.toList = []) := by
    rwa [String.toList_eq_nil_iff, String.toList_eq_nil_iff, Classical.not_and_iff_not_or_not]
  unfold join joinChars
  rw [if_neg hparts, joinedChars_eq]

theorem getLast?_intercalate_ne (hsegments : ∀ s ∈ segments, s ≠ [] ∧ '/' ∉ s)
    (hne : segments ≠ []) : (['/'].intercalate segments).getLast? ≠ some '/' := by
  intro hlast
  obtain ⟨front, hfront⟩ := List.getLast?_eq_some_iff.mp hlast
  -- A slash at the end would be followed by an empty segment.
  have hsplit := List.splitOn_intercalate '/' (fun s hs => (hsegments s hs).2) hne
  rw [hfront, List.splitOn_append_cons_self, List.splitOn_nil] at hsplit
  exact (hsegments [] (hsplit ▸ List.mem_append_right _ List.mem_cons_self)).1 rfl

/-- Only the root ends in a slash. -/
theorem text_of_getLast? (h : p.IsProper rooted) (hlast : (p.text rooted).getLast? = some '/') :
    p.text rooted = ['/'] := by
  unfold Position.text at hlast ⊢
  cases rooted with
  | true =>
    have hnames := h.route_eq ▸ h.of_mem_route
    rw [if_pos rfl] at hlast ⊢
    by_cases hnil : p.names = []
    · rw [hnil]
      rfl
    · rw [List.getLast?_cons_of_ne_nil (mt (intercalate_eq_nil_iff hnames).mp hnil)] at hlast
      exact absurd hlast (getLast?_intercalate_ne hnames hnil)
  | false =>
    rw [if_neg Bool.false_ne_true] at hlast ⊢
    split at hlast
    · simp at hlast
    · rename_i hroute
      exact absurd hlast (getLast?_intercalate_ne h.of_mem_route hroute)

/-- What is true of the normal form of the walk of a text. -/
structure IsNormalForm (text : List Char) (result : String) : Prop where
  /-- It is `/` and the names, or the surplus steps up and the names, or `.` if there are none. -/
  toList_eq : result.toList = (walk text).text (isRooted text)
  /-- A rooted text has no surplus steps up, and names are neither empty nor `.` nor `..`. -/
  isProper : (walk text).IsProper (isRooted text)
  /-- Only the root ends in a slash. -/
  isRoot : result.toList.getLast? = some '/' → result = "/"
  /-- It is clean. -/
  clean_eq : clean result = result

theorem isNormalForm_cleanChars (text : List Char) :
    IsNormalForm text (String.ofList (cleanChars text)) where
  toList_eq := by rw [String.toList_ofList, cleanChars_eq]
  isProper := isProper_walk text
  isRoot hlast := by
    rw [String.toList_ofList, cleanChars_eq] at hlast
    rw [cleanChars_eq, text_of_getLast? (isProper_walk text) hlast]
  clean_eq := by
    unfold clean
    rw [String.toList_ofList, cleanChars_cleanChars]

/-- A key under a namespace is the normal form of the walk that both make together, so two such keys
    are equal if both or neither are rooted and their walks lead to the same place. Nothing under
    nothing is nothing. The keys under a namespace are made one by one. -/
theorem join_canonical (namespaced key : String) :
    join "" "" = "" ∧
    (namespaced ≠ "" ∨ key ≠ "" →
      IsNormalForm (joinedText namespaced key) (join namespaced key) ∧
      ∀ namespaced' key', namespaced' ≠ "" ∨ key' ≠ "" →
        (join namespaced key = join namespaced' key' ↔
          isRooted (joinedText namespaced key) = isRooted (joinedText namespaced' key') ∧
          walk (joinedText namespaced key) = walk (joinedText namespaced' key'))) ∧
    ∀ keys, (prefixKeys namespaced keys).length = keys.length ∧
      ∀ i : Nat, (prefixKeys namespaced keys)[i]? = keys[i]?.map (join namespaced) := by
  refine ⟨rfl, fun h => ⟨?_, fun namespaced' key' h' => ?_⟩, fun keys => ⟨?_, fun i => ?_⟩⟩
  · rw [join_eq h]
    exact isNormalForm_cleanChars _
  · rw [join_eq h, join_eq h', String.ofList_inj, cleanChars_eq_iff]
  · exact List.length_map _
  · exact List.getElem?_map

/-- A key can lead out of its namespace. -/
theorem join_climbing :
    ("/app/" ≠ "" ∨ "../z" ≠ "") ∧ ("" ≠ "" ∨ "//x/.././z" ≠ "") ∧
      join "/app/" "../z" = join "" "//x/.././z" := by
  have h : "/app/" ≠ "" ∨ "../z" ≠ "" := by decide
  have h' : "" ≠ "" ∨ "//x/.././z" ≠ "" := by decide
  obtain ⟨-, hunique⟩ := (join_canonical "/app/" "../z").2.1 h
  exact ⟨h, h', (hunique "" "//x/.././z" h').mpr ⟨by decide, by decide⟩⟩

end Steward.Key
