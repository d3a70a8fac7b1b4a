import Sitewright.Text.Split

/-!
Contract: route paths, their text, and matching with wildcards.

A path is a list of segments. Texts are cut at slashes and empty pieces are
dropped, so no segment made here is empty or contains a slash. A segment that
begins with a colon is a wildcard and matches every segment on either side;
matching is therefore symmetric but not transitive.

Does not own: `.` and `..`, which are ordinary segments.
-/

namespace Sitewright.Routing

/-- A segment that matches every segment begins with this character. -/
def wildcardMark : Char := ':'

def isWildcard (segment : String) : Bool :=
  segment.toList.head? = some wildcardMark

/-- Two segments match if either is a wildcard or they are equal. -/
def segmentsMatch (left right : String) : Bool :=
  isWildcard left || isWildcard right || left = right

/-- A sequence of route segments. -/
structure Path where
  segments : List String
deriving DecidableEq, Repr

namespace Path

def root : Path := ⟨[]⟩

/-- The segments of a text, cut at slashes. -/
def ofText (text : String) : Path :=
  ⟨Text.pieces '/' text⟩

/-- The segments with a slash between neighbours. -/
def text (path : Path) : String :=
  Text.joinWith "/" path.segments

def length (path : Path) : Nat :=
  path.segments.length

/-- The path continued by the segments of `tail`. -/
def extend (path : Path) (tail : String) : Path :=
  ⟨path.segments ++ Text.pieces '/' tail⟩

/-- The root continued by each text in turn. -/
def ofTexts (texts : List String) : Path :=
  texts.foldl extend root

/-- The path without its last segment; the root is its own parent. -/
def parent (path : Path) : Path :=
  ⟨path.segments.dropLast⟩

/-- Whether the segments of `initial` match the first segments of `whole`, in
order. -/
def matchesInitially : (initial whole : List String) → Bool
  | [], _ => true
  | _ :: _, [] => false
  | expected :: initial, found :: whole =>
      segmentsMatch expected found && matchesInitially initial whole

/-- Whether two lists of segments are equally long. The walk ends with the
shorter list, so long lists cost little when most of the others are short. -/
def equallyLong : (left right : List String) → Bool
  | [], [] => true
  | _ :: left, _ :: right => equallyLong left right
  | _, _ => false

/-- Equal lengths, and matching segments at every position. -/
def matchesPath (left right : Path) : Bool :=
  equallyLong left.segments right.segments && matchesInitially left.segments right.segments

/-- Whether `path` is `ancestor`, or lies below it, up to wildcards. -/
def isWithin (path ancestor : Path) : Bool :=
  matchesInitially ancestor.segments path.segments

def take (path : Path) (depth : Nat) : Path :=
  ⟨path.segments.take depth⟩

@[simp] theorem equallyLong_iff {left right : List String} :
    equallyLong left right = true ↔ left.length = right.length := by
  induction left generalizing right with
  | nil => cases right <;> simp [equallyLong]
  | cons head tail inductionHypothesis =>
      cases right with
      | nil => simp [equallyLong]
      | cons other others => simp [equallyLong, inductionHypothesis]

@[simp] theorem length_root : root.length = 0 := rfl

@[simp] theorem segments_extend (path : Path) (tail : String) :
    (path.extend tail).segments = path.segments ++ (ofText tail).segments := rfl

end Path

end Sitewright.Routing
