import Mathlib.Data.List.Infix
import Steward.Backend.Connector
import Steward.Proofs.Backend.Queries
import Steward.Proofs.Key.Nesting

/-!
# Namespaces hold

A key stays inside its namespace if it has, as far as it is read, never more steps up than names. What
such a key becomes under a rooted namespace begins with the names of the namespace, so it lies under
it, and whatever a document has under it lies there too.

Results:
* `foldl_step_inside`: a walk that stays inside has no surplus steps up.
* `names_prefix_join`, `under_join`: a key that stays inside comes to lie under its namespace.
* `namespace_holds`: what the client of a document finds for such keys is under its namespace.
-/

namespace Steward.Key

variable {rooted : Bool} {namespaced key : String} {segments : List (List Char)}

/-! ## Keys that stay inside -/

/-- True of the segments that are neither empty nor `.` nor `..`. -/
def goesDown (segment : List Char) : Bool :=
  segment ≠ [] ∧ segment ≠ ['.'] ∧ segment ≠ parentSegment

/-- No initial run of the segments of a key has more steps up than names. -/
def StaysInside (key : String) : Prop :=
  ∀ run, run <+: key.toList.splitOn '/' → run.count parentSegment ≤ run.countP goesDown

instance (key : String) : Decidable (StaysInside key) :=
  decidable_of_iff (∀ run ∈ (key.toList.splitOn '/').inits,
    run.count parentSegment ≤ run.countP goesDown) (by simp only [List.mem_inits, StaysInside])

/-- A walk that stays inside has no surplus steps up, and as many names are left of it as it has more
    names than steps up. -/
theorem foldl_step_inside (hslash : ∀ s ∈ segments, '/' ∉ s)
    (hinside : ∀ run, run <+: segments → run.count parentSegment ≤ run.countP goesDown) :
    (segments.foldl (Position.step false) {}).ups = 0 ∧
      (segments.foldl (Position.step false) {}).names.length + segments.count parentSegment =
        segments.countP goesDown := by
  induction segments using List.reverseRecOn with
  | nil => exact ⟨rfl, rfl⟩
  | append_singleton segments segment ih =>
    obtain ⟨hsegments, hsegment⟩ := List.forall_mem_append.mp hslash
    obtain ⟨hups, hlength⟩ :=
      ih hsegments fun run hrun => hinside run (hrun.trans (List.prefix_append _ _))
    have hwhole := hinside _ List.prefix_rfl
    rw [List.count_append, List.countP_append] at hwhole ⊢
    rw [List.foldl_append, List.foldl_cons, List.foldl_nil]
    set p := segments.foldl (Position.step false) {}
    by_cases hstay : segment = [] ∨ segment = ['.']
    · have hcounts : [segment].count parentSegment = 0 ∧ [segment].countP goesDown = 0 := by
        rcases hstay with rfl | rfl <;> decide
      rw [Position.step_of_stay hstay, hcounts.1, hcounts.2]
      exact ⟨hups, hlength⟩
    · by_cases hparent : segment = parentSegment
      · have hcounts : [segment].count parentSegment = 1 ∧ [segment].countP goesDown = 0 := by
          rw [hparent]
          decide
        rw [hcounts.1, hcounts.2] at hwhole ⊢
        -- There is a name left that the step up takes back.
        have hlong : 0 < p.names.length := by omega
        rw [hparent, Position.step_parent, Position.up, if_neg (List.length_pos_iff.mp hlong)]
        refine ⟨hups, ?_⟩
        rw [List.length_dropLast]
        omega
      · obtain ⟨hnil, hdot⟩ := not_or.mp hstay
        have hname : IsName segment := ⟨hnil, hdot, hparent, hsegment segment List.mem_cons_self⟩
        have hup : [segment].count parentSegment = 0 := by simp [hparent]
        have hdown : [segment].countP goesDown = 1 := by simp [goesDown, hnil, hdot, hparent]
        rw [Position.step_name hname, hup, hdown, ← hlength]
        refine ⟨hups, ?_⟩
        rw [List.length_append, List.length_singleton]
        omega

/-- From every position a walk that stays inside leads down. -/
theorem foldl_step_of_inside (hinside : StaysInside key) (p : Position) :
    ∃ more, (key.toList.splitOn '/').foldl (Position.step rooted) p =
      { p with names := p.names ++ more } := by
  have hslash : ∀ s ∈ key.toList.splitOn '/', '/' ∉ s := fun _ => slash_notMem_of_mem_splitOn
  set q := (key.toList.splitOn '/').foldl (Position.step false) {} with hq
  have hproper : q.IsProper false := Position.isProper_start.foldl hslash
  have hroute : q.route = q.names := by
    rw [Position.route, (foldl_step_inside hslash hinside).1]
    rfl
  refine ⟨q.names, ?_⟩
  rw [Position.foldl_step_eq hslash, ← hq, hroute, foldl_names hproper.isName]

/-! ## Keys under a namespace -/

theorem toList_clean (key : String) :
    (clean key).toList = (walk key.toList).text (isRooted key.toList) := by
  rw [clean, String.toList_ofList, cleanChars_eq]

theorem walk_clean (key : String) : walk (clean key).toList = walk key.toList := by
  rw [toList_clean, walk_text (isProper_walk _)]

theorem ne_empty_of_isRooted (hrooted : isRooted namespaced.toList = true) : namespaced ≠ "" := by
  rintro rfl
  exact absurd hrooted (by decide)

/-- The names of a namespace lead on to those of a key in it that stays inside. -/
theorem names_prefix_join (hrooted : isRooted namespaced.toList = true)
    (hinside : StaysInside key) :
    (walk (clean namespaced).toList).names <+: (walk (join namespaced key).toList).names := by
  have hne : namespaced ≠ "" := ne_empty_of_isRooted hrooted
  obtain ⟨more, hmore⟩ := foldl_step_of_inside hinside (walk namespaced.toList)
  rw [walk_clean, walk_join (.inl hne), walk_joinedText hne, hrooted, hmore]
  exact List.prefix_append _ _

theorem splitOn_text {p : Position} (h : p.IsProper true) (hne : p.names ≠ []) :
    (p.text true).splitOn '/' = [] :: p.names := by
  rw [Position.text, if_pos rfl, List.splitOn_cons_eq_if_modifyHead, if_pos (by decide),
    List.splitOn_intercalate '/' (fun s hs => (h.isName s hs).slash_notMem) hne]

theorem getLast?_text {p : Position} (h : p.IsProper true) (hne : p.names ≠ []) :
    (p.text true).getLast? ≠ some '/' := by
  intro hlast
  have hroot := text_of_getLast? h hlast
  have hsplit := splitOn_text h hne
  rw [hroot] at hsplit
  exact (h.isName [] ((List.cons.inj hsplit).2 ▸ List.mem_cons_self)).ne_nil rfl

/-- A normal form lies under another one if its names begin with those of the other one. -/
theorem under_of_names_prefix {top : String} {p q : Position} (hp : p.IsProper true)
    (hq : q.IsProper true) (htop : top.toList = p.text true) (hkey : key.toList = q.text true)
    (hnames : p.names <+: q.names) : under key top = true := by
  rw [under_iff_segments, htop, hkey]
  by_cases hroot : p.names = []
  · left
    rw [Position.text, if_pos rfl, hroot]
    rfl
  · right
    have hkeep : (p.text true).rdropWhile (· = '/') = p.text true := by
      refine List.rdropWhile_eq_self_iff.mpr fun hne hslash => getLast?_text hp hroot ?_
      rw [List.getLast?_eq_getLast_of_ne_nil hne, of_decide_eq_true hslash]
    have hbelow : q.names ≠ [] := fun hnil => hroot (List.prefix_nil.mp (hnil ▸ hnames))
    rw [hkeep, splitOn_text hp hroot, splitOn_text hq hbelow]
    exact (List.prefix_cons_inj []).mpr hnames

/-- A key that stays inside comes to lie under its namespace. -/
theorem under_join (hrooted : isRooted namespaced.toList = true) (hinside : StaysInside key) :
    under (join namespaced key) (clean namespaced) = true := by
  have hne : namespaced ≠ "" ∨ key ≠ "" := .inl (ne_empty_of_isRooted hrooted)
  have hjoined : isRooted (joinedText namespaced key) = true := by
    rw [isRooted_joinedText (ne_empty_of_isRooted hrooted), hrooted]
  have hnames := names_prefix_join hrooted hinside
  rw [walk_clean, walk_join hne] at hnames
  refine under_of_names_prefix ?_ ?_ ?_ ?_ hnames
  · exact hrooted ▸ isProper_walk namespaced.toList
  · exact hjoined ▸ isProper_walk (joinedText namespaced key)
  · rw [toList_clean, hrooted]
  · rw [toList_join hne, hjoined]

end Steward.Key

namespace Steward.Backend

open Key (StaysInside)

/-! ## What is found in a namespace -/

/-- What the client of a document finds is under some key that it wants. -/
theorem FileStore.exists_under_of_values {s : FileSection} {world : World} {pairs : Pairs}
    {key text : String} (hvalues : (Connector.fileClient s).values world = .ok pairs)
    (hkey : pairs[key]? = some text) :
    ∃ wanted ∈ s.settings.keys, Key.under key (Key.join s.settings.keyPrefix wanted) = true := by
  simp only [Client.values, Connector.fileClient, lookup] at hvalues
  split at hvalues
  · cases hvalues
  · cases hvalues
    obtain ⟨-, found, hfound, hunder⟩ := select_eq_some_iff.mp hkey
    obtain ⟨wanted, hwanted, rfl⟩ := List.mem_map.mp hfound
    exact ⟨wanted, hwanted, hunder⟩

/-- Under a rooted namespace a key that stays inside becomes a key with the names of the namespace in
    front, which lies under the cleaned namespace. So whatever the client of a document finds lies
    there, unless it is under a key that does not stay inside. -/
theorem namespace_holds :
    (∀ (namespaced : String) (keys : List String), Key.isRooted namespaced.toList = true →
      ∀ (i : Nat) (key : String), keys[i]? = some key → StaysInside key →
        ∃ found, (Key.prefixKeys namespaced keys)[i]? = some found ∧
          (Key.walk (Key.clean namespaced).toList).names <+: (Key.walk found.toList).names ∧
          Key.under found (Key.clean namespaced) = true) ∧
    ∀ s : FileSection, Key.isRooted s.settings.keyPrefix.toList = true →
      ∀ world pairs, (Connector.fileClient s).values world = .ok pairs →
        ∀ key text, pairs[key]? = some text →
          Key.under key (Key.clean s.settings.keyPrefix) = true ∨
            ∃ wanted ∈ s.settings.keys, ¬StaysInside wanted ∧
              Key.under key (Key.join s.settings.keyPrefix wanted) = true := by
  constructor
  · intro namespaced keys hrooted i key hkey hinside
    refine ⟨Key.join namespaced key, ?_, Key.names_prefix_join hrooted hinside,
      Key.under_join hrooted hinside⟩
    rw [Key.prefixKeys, List.getElem?_map, hkey]
    rfl
  · intro s hrooted world pairs hvalues key text hkey
    obtain ⟨wanted, hwanted, hunder⟩ := FileStore.exists_under_of_values hvalues hkey
    by_cases hinside : StaysInside wanted
    · exact .inl (Key.under_trans hunder (Key.under_join hrooted hinside))
    · exact .inr ⟨wanted, hwanted, hinside, hunder⟩

/-- A document with a key inside and a key outside of `/app`. -/
def cacheWorld : World where
  files := {
    root := .directory [(Text.bytes "app.yml", .file "app: {cache: x}\napple: y\n".toUTF8)]
    workingDirectory := [] }

/-- A section that wants a key inside of `/app`. -/
def cacheSection : FileSection where
  filepath := "app.yml"
  settings := { keyPrefix := "/app/", keys := ["db/.././/cache"] }

theorem values_cache :
    (Connector.fileClient cacheSection).values cacheWorld = .ok (.ofList [("/app/cache", "x")]) := by
  have hvalues : ((Connector.fileClient cacheSection).values cacheWorld).toOption =
      some (.ofList [("/app/cache", "x")]) := by decide +kernel
  cases h : (Connector.fileClient cacheSection).values cacheWorld with
  | error e => rw [h] at hvalues; cases hvalues
  | ok pairs => rw [h] at hvalues; rw [Option.some.inj hvalues]

/-- The key comes to lie under `/app`, and so does what is found for it. -/
theorem namespace_holds_cache :
    (Key.isRooted "/app/".toList = true ∧ StaysInside "db/.././/cache" ∧
      ∃ found, (Key.prefixKeys "/app/" ["db/.././/cache"])[0]? = some found ∧
        Key.under found (Key.clean "/app/") = true) ∧
    Key.under "/app/cache" (Key.clean "/app/") = true := by
  obtain ⟨hkeys, hvalues⟩ := namespace_holds
  have hrooted : Key.isRooted "/app/".toList = true := by decide
  have hinside : StaysInside "db/.././/cache" := by decide
  constructor
  · obtain ⟨found, hfound, -, hunder⟩ :=
      hkeys "/app/" ["db/.././/cache"] hrooted 0 "db/.././/cache" rfl hinside
    exact ⟨hrooted, hinside, found, hfound, hunder⟩
  · have hfound : (.ofList [("/app/cache", "x")] : Pairs)["/app/cache"]? = some "x" := by
      decide +kernel
    refine (hvalues cacheSection hrooted cacheWorld _ values_cache _ _ hfound).resolve_right ?_
    rintro ⟨wanted, hwanted, hclimbs, -⟩
    obtain rfl := List.mem_singleton.mp hwanted
    exact hclimbs hinside

end Steward.Backend
