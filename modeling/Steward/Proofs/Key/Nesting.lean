import Mathlib.Data.List.Induction
import Steward.Proofs.Key.Walk

/-!
# Walks in parts

A walk from some position leads where the shortest walk of the same effect leads from there: the steps
that it takes back itself leave no trace, so only its surplus steps up and its remaining names count.
The walk of a key under a namespace is the walk of the key from where the namespace leads. Cleaning a
key early therefore changes nothing, and namespaces can be nested.

Results:
* `foldl_step_eq`: from every position a walk leads where its shortest form leads.
* `walk_joinedText`: the walk of a key under a namespace.
* `join_nested`: a key under two namespaces one after the other is the key under both together.
-/

namespace Steward.Key

variable {rooted : Bool} {segment name : List Char} {segments : List (List Char)}

/-! ## Shortest walks -/

namespace Position

variable {q : Position}

theorem step_of_stay (hstay : segment = [] ∨ segment = ['.']) (p : Position) :
    p.step rooted segment = p :=
  if_pos hstay

theorem step_parent (p : Position) : p.step rooted parentSegment = p.up rooted := by
  have hmoves : ¬(parentSegment = [] ∨ parentSegment = ['.']) := by decide
  unfold step
  rw [if_neg hmoves, if_pos rfl]

theorem step_name (hname : IsName name) (p : Position) :
    p.step rooted name = { p with names := p.names ++ [name] } :=
  foldl_names (fun _ hmem => List.mem_singleton.mp hmem ▸ hname) p

/-- A step up takes back a step down. -/
theorem up_step_name (hname : IsName name) (p : Position) : (p.step rooted name).up rooted = p := by
  rw [step_name hname]
  simp [up]

theorem route_step_name (hname : IsName name) (q : Position) :
    (q.step rooted name).route = q.route ++ [name] := by
  rw [step_name hname]
  simp [route]

/-- A step up at the end of a walk shortens its shortest form by a name, or makes it longer if there
    are no names. -/
theorem foldl_route_up (hq : q.IsProper false) (p : Position) :
    (q.up false).route.foldl (step rooted) p = (q.route.foldl (step rooted) p).up rooted := by
  obtain ⟨ups, names⟩ := q
  obtain rfl | ⟨names, last, rfl⟩ := List.eq_nil_or_concat names
  · have hroute : (up false ⟨ups, []⟩).route = route ⟨ups, []⟩ ++ [parentSegment] := by
      simp [route, up, List.replicate_succ']
    rw [hroute, List.foldl_append, List.foldl_cons, List.foldl_nil, step_parent]
  · have hlast : IsName last := hq.isName last (by simp)
    have hroute : route ⟨ups, names.concat last⟩ =
        (up false ⟨ups, names.concat last⟩).route ++ [last] := by
      simp [route, up]
    rw [hroute, List.foldl_append, List.foldl_cons, List.foldl_nil, up_step_name hlast]

theorem foldl_route_step (hq : q.IsProper false) (hslash : '/' ∉ segment) (p : Position) :
    (q.step false segment).route.foldl (step rooted) p =
      (q.route.foldl (step rooted) p).step rooted segment := by
  by_cases hstay : segment = [] ∨ segment = ['.']
  · rw [step_of_stay hstay, step_of_stay hstay]
  · obtain ⟨hnil, hdot⟩ := not_or.mp hstay
    by_cases hparent : segment = parentSegment
    · rw [hparent, step_parent, step_parent, foldl_route_up hq]
    · have hname : IsName segment := ⟨hnil, hdot, hparent, hslash⟩
      rw [route_step_name hname, List.foldl_append, List.foldl_cons, List.foldl_nil]

/-- From every position a walk leads where its shortest form leads. -/
theorem foldl_step_eq (hslash : ∀ s ∈ segments, '/' ∉ s) (p : Position) :
    segments.foldl (step rooted) p =
      (segments.foldl (step false) {}).route.foldl (step rooted) p := by
  induction segments using List.reverseRecOn with
  | nil => rfl
  | append_singleton segments segment ih =>
    obtain ⟨hsegments, hsegment⟩ := List.forall_mem_append.mp hslash
    have hproper : (segments.foldl (step false) {}).IsProper false :=
      isProper_start.foldl hsegments
    rw [List.foldl_append, List.foldl_append, List.foldl_cons, List.foldl_nil, List.foldl_cons,
      List.foldl_nil, foldl_route_step hproper (hsegment segment List.mem_cons_self), ih hsegments]

end Position

/-! ## Walks of joined keys -/

variable {namespaced key : String}

theorem isRooted_joinedText (h : namespaced ≠ "") (key : String) :
    isRooted (joinedText namespaced key) = isRooted namespaced.toList := by
  have hnil : namespaced.toList ≠ [] := mt String.toList_eq_nil_iff.mp h
  obtain ⟨c, rest, hrest⟩ := List.exists_cons_of_ne_nil hnil
  rw [← joinedChars_eq, joinedChars, if_neg hnil]
  split
  · rfl
  · rw [hrest]
    rfl

/-- A namespace and a key together lead on from every position as they do one after the other. -/
theorem foldl_joinedText (h : namespaced ≠ "") (key : String) (p : Position) :
    ((joinedText namespaced key).splitOn '/').foldl (Position.step rooted) p =
      (key.toList.splitOn '/').foldl (Position.step rooted)
        ((namespaced.toList.splitOn '/').foldl (Position.step rooted) p) := by
  rw [← joinedChars_eq, joinedChars, if_neg (mt String.toList_eq_nil_iff.mp h)]
  split
  · rename_i hkey
    rw [hkey, List.splitOn_nil, List.foldl_cons, Position.step_of_stay (.inl rfl), List.foldl_nil]
  · rw [List.splitOn_append_cons_self, List.foldl_append]

/-- The walk of a key under a namespace goes on where the namespace leads. -/
theorem walk_joinedText (h : namespaced ≠ "") (key : String) :
    walk (joinedText namespaced key) = (key.toList.splitOn '/').foldl
      (Position.step (isRooted namespaced.toList)) (walk namespaced.toList) := by
  rw [walk, isRooted_joinedText h, foldl_joinedText h, ← walk]

theorem joinedText_empty (key : String) : joinedText "" key = key.toList := by
  rw [← joinedChars_eq]
  exact if_pos rfl

theorem text_ne_nil {p : Position} (h : p.IsProper rooted) : p.text rooted ≠ [] := by
  unfold Position.text
  cases rooted with
  | true => exact List.cons_ne_nil _ _
  | false =>
    rw [if_neg Bool.false_ne_true]
    split
    · exact List.cons_ne_nil _ _
    · exact mt (intercalate_eq_nil_iff h.of_mem_route).mp ‹_›

theorem toList_join (h : namespaced ≠ "" ∨ key ≠ "") : (join namespaced key).toList =
    (walk (joinedText namespaced key)).text (isRooted (joinedText namespaced key)) := by
  rw [join_eq h, String.toList_ofList, cleanChars_eq]

theorem join_ne_empty (h : namespaced ≠ "" ∨ key ≠ "") : join namespaced key ≠ "" := by
  rw [ne_eq, ← String.toList_eq_nil_iff, toList_join h]
  exact text_ne_nil (isProper_walk _)

theorem isRooted_join (h : namespaced ≠ "" ∨ key ≠ "") :
    isRooted (join namespaced key).toList = isRooted (joinedText namespaced key) := by
  rw [toList_join h, isRooted_text (isProper_walk _)]

theorem walk_join (h : namespaced ≠ "" ∨ key ≠ "") :
    walk (join namespaced key).toList = walk (joinedText namespaced key) := by
  rw [toList_join h, walk_text (isProper_walk _)]

/-- Joined keys are equal if they are rooted alike and their walks lead to the same place. -/
theorem join_congr {namespaced' key' : String} (h : namespaced ≠ "" ∨ key ≠ "")
    (h' : namespaced' ≠ "" ∨ key' ≠ "")
    (hrooted : isRooted (joinedText namespaced key) = isRooted (joinedText namespaced' key'))
    (hwalk : walk (joinedText namespaced key) = walk (joinedText namespaced' key')) :
    join namespaced key = join namespaced' key' := by
  rw [join_eq h, join_eq h', (cleanChars_eq_iff _ _).mpr ⟨hrooted, hwalk⟩]

/-! ## Nested namespaces -/

variable {outer inner : String}

/-- A relative key leads on from every position as it does when it is cleaned. -/
theorem foldl_splitOn_eq {text : List Char} (hrelative : isRooted text = false) (p : Position) :
    (text.splitOn '/').foldl (Position.step rooted) p =
      (walk text).route.foldl (Position.step rooted) p := by
  rw [Position.foldl_step_eq fun _ => slash_notMem_of_mem_splitOn, walk, hrelative]

/-- Nothing in front of a namespace adds nothing. -/
theorem join_empty_join (hinner : inner ≠ "") (key : String) :
    join (join "" inner) key = join "" (join inner key) := by
  have hnested : join "" inner ≠ "" := join_ne_empty (.inr hinner)
  have hjoined : join inner key ≠ "" := join_ne_empty (.inl hinner)
  apply join_congr (.inl hnested) (.inr hjoined)
  · rw [isRooted_joinedText hnested, isRooted_join (.inr hinner), joinedText_empty,
      joinedText_empty, isRooted_join (.inl hinner), isRooted_joinedText hinner]
  · rw [walk_joinedText hnested, isRooted_join (.inr hinner), walk_join (.inr hinner),
      joinedText_empty, joinedText_empty, walk_join (.inl hinner), walk_joinedText hinner]

/-- Both ways of nesting lead to the same place. -/
theorem walk_join_join (houter : outer ≠ "") (hinner : inner ≠ "")
    (hrelative : isRooted inner.toList = false) (key : String) :
    walk (joinedText (join outer inner) key) = walk (joinedText outer (join inner key)) := by
  have hnested : join outer inner ≠ "" := join_ne_empty (.inl houter)
  have hjoined : isRooted (joinedText inner key) = false := by
    rw [isRooted_joinedText hinner, hrelative]
  have hcleaned : isRooted (join inner key).toList = false := by
    rw [isRooted_join (.inl hinner), hjoined]
  let step := Position.step (isRooted outer.toList)
  calc walk (joinedText (join outer inner) key)
    _ = (key.toList.splitOn '/').foldl step (walk (joinedText outer inner)) := by
      rw [walk_joinedText hnested, isRooted_join (.inl houter), walk_join (.inl houter),
        isRooted_joinedText houter]
    _ = ((joinedText inner key).splitOn '/').foldl step (walk outer.toList) := by
      rw [walk_joinedText houter, foldl_joinedText hinner]
    _ = ((join inner key).toList.splitOn '/').foldl step (walk outer.toList) := by
      rw [foldl_splitOn_eq hjoined, foldl_splitOn_eq hcleaned, walk_join (.inl hinner)]
    _ = walk (joinedText outer (join inner key)) := (walk_joinedText houter _).symm

theorem join_join (hinner : inner ≠ "") (hrelative : isRooted inner.toList = false)
    (outer key : String) : join (join outer inner) key = join outer (join inner key) := by
  by_cases houter : outer = ""
  · rw [houter, join_empty_join hinner]
  · have hnested : join outer inner ≠ "" := join_ne_empty (.inl houter)
    apply join_congr (.inl hnested) (.inl houter)
    · rw [isRooted_joinedText hnested, isRooted_join (.inl houter), isRooted_joinedText houter,
        isRooted_joinedText houter]
    · exact walk_join_join houter hinner hrelative key

/-- A key under two namespaces, of which the inner one is relative, is the key under both together;
    so are all keys that are put under the one and then under the other. -/
theorem join_nested (hinner : inner ≠ "") (hrelative : isRooted inner.toList = false)
    (outer key : String) :
    join (join outer inner) key = join outer (join inner key) ∧
      ∀ keys, prefixKeys outer (prefixKeys inner keys) = prefixKeys (join outer inner) keys := by
  refine ⟨join_join hinner hrelative outer key, fun keys => ?_⟩
  rw [prefixKeys, prefixKeys, prefixKeys, List.map_map]
  exact List.map_congr_left fun key _ => (join_join hinner hrelative outer key).symm

/-- A key that climbs through both namespaces. -/
theorem join_nested_climbing :
    "db/../.." ≠ "" ∧ isRooted "db/../..".toList = false ∧
      join (join "/app" "db/../..") "../x" = join "/app" (join "db/../.." "../x") :=
  ⟨by decide, by decide, (join_nested (by decide) (by decide) "/app" "../x").1⟩

end Steward.Key
