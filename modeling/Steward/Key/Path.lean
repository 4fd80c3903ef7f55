/-!
# Keys as slash paths

Keys are texts with segments between slashes. `clean` resolves a key lexically: empty segments and
`.` vanish, `..` takes away the segment in front of it. In a rooted key a `..` at the root has no
effect; in a relative key it stays. `join` puts a key under a namespace and cleans the result.

`prefixKeys` is `prefix_keys`, `join` is `join_path`, `clean` is `clean_path`, and `under` is the
test of the same name.
-/

namespace Steward.Key

/-- The segment that goes up. -/
abbrev parentSegment : List Char := ['.', '.']

/-- Takes one more segment of a key; the segments taken so far are a stack, last one on top. -/
def pushSegment (rooted : Bool) (stack : List (List Char)) (segment : List Char) :
    List (List Char) :=
  if segment = [] ∨ segment = ['.'] then stack
  else if segment = parentSegment then
    match stack with
    | top :: below =>
      if top ≠ parentSegment then below else if rooted then stack else parentSegment :: stack
    | [] => if rooted then [] else [parentSegment]
  else segment :: stack

/-- The segments that remain of a key, first one first. -/
def resolve (rooted : Bool) (segments : List (List Char)) : List (List Char) :=
  (segments.foldl (pushSegment rooted) []).reverse

/-- The text of a key made of the given segments; a relative key without segments is `.`. -/
def ofSegments (rooted : Bool) (segments : List (List Char)) : List Char :=
  let body := ['/'].intercalate segments
  if rooted then '/' :: body else if body = [] then ['.'] else body

/-- True if the key starts at the root. -/
def isRooted (key : List Char) : Bool := key.head? == some '/'

/-- The cleaned form of a key. -/
def cleanChars (key : List Char) : List Char :=
  ofSegments (isRooted key) (resolve (isRooted key) (key.splitOn '/'))

/-- The text of a namespace and a key before it is cleaned; an empty part is left out. -/
def joinedChars (namespaced key : List Char) : List Char :=
  if namespaced = [] then key
  else if key = [] then namespaced
  else namespaced ++ '/' :: key

/-- A key under a namespace. Two empty parts give the empty key. -/
def joinChars (namespaced key : List Char) : List Char :=
  if namespaced = [] ∧ key = [] then [] else cleanChars (joinedChars namespaced key)

/-- The cleaned form of a key. -/
def clean (key : String) : String := String.ofList (cleanChars key.toList)

/-- A key under a namespace, cleaned. -/
def join (namespaced key : String) : String :=
  String.ofList (joinChars namespaced.toList key.toList)

/-- The keys under a namespace, in order and with repetitions. -/
def prefixKeys (namespaced : String) (keys : List String) : List String :=
  keys.map (join namespaced)

/-- A key without the slashes at its end. -/
def trimEndSlashes (key : List Char) : List Char := (key.reverse.dropWhile (· = '/')).reverse

/-- True if `key` is `wanted` or lies below it. -/
def underChars (key wanted : List Char) : Bool :=
  let top := trimEndSlashes wanted
  top.isEmpty || key == top || (top ++ ['/']).isPrefixOf key

/-- True if `key` is `wanted` or lies below it, at a segment boundary. Slashes at the end of
    `wanted` do not count, so everything lies under the root. -/
def under (key wanted : String) : Bool := underChars key.toList wanted.toList

end Steward.Key
