import Sitewright.Proofs.Routing.Matching
import Sitewright.Proofs.Routing.Spelling

/-!
Contract: which laws of equality and of order matching has.

Matching is reflexive and symmetric, and lying within a path is the order that goes with it: paths
match if each lies within the other. What neither has in general is transitivity. A wildcard matches
segments that do not match one another, so a chain can be followed through a path exactly if that
path has no wildcard.

Owns:
- matching and lying within, each in terms of the other;
- chains through a path without wildcards;
- `filled`, the paths that match a path with wildcards and not one another;
- `matching_laws`, all laws together.

Does not own: which route of a table is found for a path.
-/

namespace Sitewright.Routing.Path

variable {left right path whole : Path}

/-! ## Matching as an order -/

/-- Paths match exactly if each of them lies within the other. -/
theorem matchesPath_iff_isWithin :
    left.matchesPath right = true ↔ left.isWithin right = true ∧ right.isWithin left = true := by
  constructor
  · intro matching
    have backwards := matching
    rw [matchesPath_comm] at backwards
    exact ⟨(matchesPath_iff.mp backwards).2, (matchesPath_iff.mp matching).2⟩
  · rintro ⟨inside, around⟩
    have atMost := length_le_of_matchesInitially around
    have atLeast := length_le_of_matchesInitially inside
    exact matchesPath_iff.mpr ⟨Nat.le_antisymm atMost atLeast, around⟩

/-- A path lies within another one exactly if that matches a first part of it. -/
theorem isWithin_iff_exists_prefix :
    whole.isWithin path = true ↔
      ∃ initial : Path, initial.segments <+: whole.segments ∧ initial.matchesPath path = true := by
  constructor
  · intro inside
    exact ⟨whole.take path.length, List.take_prefix _ _, isWithin_iff_take.mp inside⟩
  · rintro ⟨initial, begins, matching⟩
    have sameLength := (matchesPath_iff.mp matching).1
    have first : whole.take path.length = initial := by
      rw [← sameLength]
      exact congrArg Path.mk (List.prefix_iff_eq_take.mp begins).symm
    rw [isWithin_iff_take, first]
    exact matching

/-- Paths that match still do when both are continued by one text. -/
theorem matchesPath_extend (tail : String) (matching : left.matchesPath right = true) :
    (left.extend tail).matchesPath (right.extend tail) = true := by
  obtain ⟨sameLength, initial⟩ := matchesPath_iff.mp matching
  rw [matchesPath_iff]
  constructor
  · simpa [length] using sameLength
  · have enough : left.segments.length = right.segments.length := sameLength
    have upTo :
        matchesInitially left.segments (right.segments ++ (ofText tail).segments) = true := by
      rw [← matchesInitially_take, enough, List.take_left]
      exact initial
    rw [segments_extend, segments_extend, matchesInitially_append, upTo, enough, List.drop_left]
    exact matchesInitially_self _

/-! ## Chains -/

/-- What lies within a path without wildcards lies within whatever that lies within. -/
theorem isWithin_trans {low middle high : Path} (fixed : middle.IsFixed)
    (lower : low.isWithin middle = true) (upper : middle.isWithin high = true) :
    low.isWithin high = true :=
  matchesInitially_trans fixed upper lower

/-- Of three paths of which the middle one has no wildcards, neighbours match only if all do. -/
theorem matchesPath_trans {middle : Path} (fixed : middle.IsFixed)
    (before : left.matchesPath middle = true) (behind : middle.matchesPath right = true) :
    left.matchesPath right = true := by
  rw [matchesPath_iff_isWithin] at before behind ⊢
  exact ⟨isWithin_trans fixed before.1 behind.1, isWithin_trans fixed behind.2 before.2⟩

/-- A text in the place of a segment that is a wildcard. -/
def fill (text segment : String) : String :=
  if isWildcard segment then text else segment

/-- The path with one text in the place of each wildcard. -/
def filled (path : Path) (text : String) : Path :=
  ⟨path.segments.map (fill text)⟩

/-- Whatever stands in the place of the wildcards matches them. -/
theorem matchesPath_filled (path : Path) (text : String) :
    (path.filled text).matchesPath path = true := by
  have each : ∀ segment, segmentsMatch (fill text segment) segment = true := by
    intro segment
    rw [segmentsMatch_iff]
    by_cases wild : isWildcard segment = true
    · exact .inr (.inl wild)
    · exact .inr (.inr (if_neg wild))
  rw [matchesPath_iff]
  refine ⟨List.length_map _, ?_⟩
  obtain ⟨segments⟩ := path
  induction segments with
  | nil => rfl
  | cons head tail inductionHypothesis =>
      exact Bool.and_eq_true_iff.mpr ⟨each head, inductionHypothesis⟩

/-- With different segments in the place of wildcards, paths do not match any more. -/
theorem matchesPath_filled_filled {text other : String} (plain : isWildcard text = false)
    (otherPlain : isWildcard other = false) (different : text ≠ other) :
    (path.filled text).matchesPath (path.filled other) = true ↔ path.IsFixed := by
  have each : ∀ segment, segmentsMatch (fill text segment) (fill other segment) = true ↔
      isWildcard segment = false := by
    intro segment
    unfold fill
    cases wild : isWildcard segment with
    | true => simp [segmentsMatch_iff, plain, otherPlain, different]
    | false => simp
  have sameLength : (path.filled text).length = (path.filled other).length := by
    simp [filled, length]
  rw [matchesPath_iff, and_iff_right sameLength]
  show matchesInitially (path.segments.map (fill text)) (path.segments.map (fill other)) = true ↔
    ∀ segment ∈ path.segments, isWildcard segment = false
  induction path.segments with
  | nil => simp
  | cons head tail inductionHypothesis =>
      rw [List.map_cons, List.map_cons, matchesInitially, Bool.and_eq_true, each,
        inductionHypothesis, List.forall_mem_cons]

theorem IsProper.filled {text : String} (proper : path.IsProper) (nonempty : text ≠ "")
    (free : '/' ∉ text.toList) : (path.filled text).IsProper := by
  intro segment member
  obtain ⟨original, inPath, rfl⟩ := List.mem_map.mp member
  unfold fill
  split
  · exact ⟨nonempty, free⟩
  · exact proper original inPath

/-- Around a path with wildcards there are two that match it and not one another. -/
theorem exists_matches_apart {middle : Path} (made : middle.Made) (wild : ¬ middle.IsFixed) :
    ∃ left right : Path, left.Made ∧ right.Made ∧ left.matchesPath middle = true ∧
      middle.matchesPath right = true ∧ ¬ left.matchesPath right = true ∧
      ¬ left.isWithin right = true := by
  have proper := made_iff.mp made
  have apart : ¬ (middle.filled "0").matchesPath (middle.filled "1") = true := by
    rw [matchesPath_filled_filled (by decide) (by decide) (by decide)]
    exact wild
  refine ⟨middle.filled "0", middle.filled "1",
    made_iff.mpr (proper.filled (by decide) (by decide)),
    made_iff.mpr (proper.filled (by decide) (by decide)), matchesPath_filled middle "0", ?_, apart,
    fun inside => apart ?_⟩
  · rw [matchesPath_comm]
    exact matchesPath_filled middle "1"
  · -- Both are as long as the path between them, so one can only lie within the other all along.
    rw [isWithin_iff_take, take, List.take_of_length_le (by simp [filled, length])] at inside
    exact inside

/-! ## All laws -/

/-- Laws of matching. A path matches itself, and matching goes both ways; paths match exactly if
each lies within the other, and a path lies within another one exactly if that matches a first part
of it. A path that is continued by a text lies within the path, and paths that match still do when
they are continued by one text. Chains of paths that match, or lie within one another, can be followed
through a path that has no wildcard, and around each path that has one there are two that it does
not connect: both match it, but neither do they match nor does one lie within the other. -/
theorem matching_laws :
    (∀ path : Path, path.matchesPath path = true) ∧
    (∀ left right : Path, left.matchesPath right = right.matchesPath left) ∧
    (∀ left right : Path, left.matchesPath right = true ↔
      left.isWithin right = true ∧ right.isWithin left = true) ∧
    (∀ whole path : Path, whole.isWithin path = true ↔
      ∃ initial : Path, initial.segments <+: whole.segments ∧ initial.matchesPath path = true) ∧
    (∀ (path : Path) (tail : String), (path.extend tail).isWithin path = true) ∧
    (∀ (left right : Path) (tail : String), left.matchesPath right = true →
      (left.extend tail).matchesPath (right.extend tail) = true) ∧
    (∀ low middle high : Path, middle.IsFixed → low.isWithin middle = true →
      middle.isWithin high = true → low.isWithin high = true) ∧
    (∀ left middle right : Path, middle.IsFixed → left.matchesPath middle = true →
      middle.matchesPath right = true → left.matchesPath right = true) ∧
    ∀ middle : Path, middle.Made → ¬ middle.IsFixed →
      ∃ left right : Path, left.Made ∧ right.Made ∧ left.matchesPath middle = true ∧
        middle.matchesPath right = true ∧ ¬ left.matchesPath right = true ∧
        ¬ left.isWithin right = true :=
  ⟨matchesPath_self, matchesPath_comm, fun _ _ => matchesPath_iff_isWithin,
    fun _ _ => isWithin_iff_exists_prefix,
    fun path _ => isWithin_prefix_self (List.prefix_append path.segments _),
    fun _ _ => matchesPath_extend, fun _ _ _ => isWithin_trans,
    fun _ _ _ => matchesPath_trans, fun _ => exists_matches_apart⟩

/-- The reviews of a product lie within the seventh product, and so within every product of every
section. A path for all products connects two of them that are not the same. -/
theorem products_not_connected :
    let product := ofText "products/7"
    let products := ofText "products/:id"
    product.IsFixed ∧ (product.extend "reviews").isWithin product = true ∧
      product.isWithin (ofText ":section/:id") = true ∧
      (product.extend "reviews").isWithin (ofText ":section/:id") = true ∧
      (product.extend "reviews").matchesPath (products.extend "reviews") = true ∧
      ¬ products.IsFixed ∧ ∃ left right : Path, left.Made ∧ right.Made ∧
        left.matchesPath products = true ∧ products.matchesPath right = true ∧
        ¬ left.matchesPath right = true ∧ ¬ left.isWithin right = true := by
  intro product products
  obtain ⟨-, -, -, -, below, continued, within_, -, apart⟩ := matching_laws
  have fixed : product.IsFixed := by decide +kernel
  have wild : ¬ products.IsFixed := by decide +kernel
  have inside : product.isWithin (ofText ":section/:id") = true := by decide +kernel
  have matching : product.matchesPath products = true := by decide +kernel
  exact ⟨fixed, below product "reviews", inside,
    within_ _ product _ fixed (below product "reviews") inside,
    continued product products "reviews" matching, wild, apart products (.ofText _) wild⟩

end Sitewright.Routing.Path
