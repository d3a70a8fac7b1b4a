import Sitewright.Routing.Table

/-!
Contract: laws of matching, and of tables whose routes do not match one another.

Owns:
- matching as a reflexive and symmetric relation;
- matching of the first segments, cut at an inner position or behind the last of them;
- lying within a path as matching of an initial part;
- `IsFixed`, paths without wildcards, and chains of segments through them;
- `linkTarget_eq`, the route whose container a link replaces;
- `Distinct`, which registration keeps.

Does not own: which routes a view registers.
-/

namespace Sitewright.Routing

/-! ## Segments and paths -/

@[simp] theorem segmentsMatch_self (segment : String) : segmentsMatch segment segment = true := by
  simp [segmentsMatch]

theorem segmentsMatch_comm (left right : String) :
    segmentsMatch left right = segmentsMatch right left := by
  simp only [segmentsMatch, Bool.or_comm (isWildcard left), eq_comm]

theorem segmentsMatch_iff {left right : String} :
    segmentsMatch left right = true ↔
      isWildcard left = true ∨ isWildcard right = true ∨ left = right := by
  unfold segmentsMatch
  rw [Bool.or_eq_true, Bool.or_eq_true, decide_eq_true_eq, or_assoc]

namespace Path

@[simp] theorem matchesInitially_self (segments : List String) :
    matchesInitially segments segments = true := by
  induction segments with
  | nil => rfl
  | cons head tail inductionHypothesis => simp [matchesInitially, inductionHypothesis]

theorem matchesInitially_comm {left right : List String} (sameLength : left.length = right.length) :
    matchesInitially left right = matchesInitially right left := by
  induction left generalizing right with
  | nil =>
      cases right with
      | nil => rfl
      | cons other others => simp at sameLength
  | cons head tail inductionHypothesis =>
      cases right with
      | nil => simp at sameLength
      | cons other others =>
          have tailLength : tail.length = others.length := by simpa using sameLength
          simp [matchesInitially, segmentsMatch_comm head, inductionHypothesis tailLength]

/-- Initial segments match one after another: first some of them, then the others. -/
theorem matchesInitially_append (initial further whole : List String) :
    matchesInitially (initial ++ further) whole =
      (matchesInitially initial whole && matchesInitially further (whole.drop initial.length)) := by
  induction initial generalizing whole with
  | nil => simp [matchesInitially]
  | cons head tail inductionHypothesis =>
      cases whole with
      | nil => simp [matchesInitially]
      | cons other others => simp [matchesInitially, inductionHypothesis, Bool.and_assoc]

theorem length_le_of_matchesInitially {initial whole : List String}
    (matching : matchesInitially initial whole = true) : initial.length ≤ whole.length := by
  induction initial generalizing whole with
  | nil => exact Nat.zero_le _
  | cons head tail inductionHypothesis =>
      cases whole with
      | nil => simp [matchesInitially] at matching
      | cons other others =>
          have further : matchesInitially tail others = true := by
            simp only [matchesInitially, Bool.and_eq_true] at matching
            exact matching.2
          simpa using inductionHypothesis further

/-- Only as many segments are looked at as there are to be matched. -/
theorem matchesInitially_take (initial whole : List String) :
    matchesInitially initial (whole.take initial.length) = matchesInitially initial whole := by
  induction initial generalizing whole with
  | nil => rfl
  | cons head tail inductionHypothesis =>
      cases whole with
      | nil => rfl
      | cons other others => simp [matchesInitially, inductionHypothesis]

theorem matchesPath_iff {left right : Path} :
    left.matchesPath right = true ↔
      left.length = right.length ∧ matchesInitially left.segments right.segments = true := by
  simp [matchesPath, length]

@[simp] theorem matchesPath_self (path : Path) : path.matchesPath path = true := by
  simp [matchesPath_iff]

theorem matchesPath_comm (left right : Path) : left.matchesPath right = right.matchesPath left := by
  rw [Bool.eq_iff_iff, matchesPath_iff, matchesPath_iff]
  constructor
  · rintro ⟨sameLength, matching⟩
    exact ⟨sameLength.symm, by rwa [matchesInitially_comm sameLength.symm]⟩
  · rintro ⟨sameLength, matching⟩
    exact ⟨sameLength.symm, by rwa [matchesInitially_comm sameLength.symm]⟩

/-- A path lies within another one if that matches as many of its first segments. -/
theorem isWithin_iff_take {whole path : Path} :
    whole.isWithin path = true ↔ (whole.take path.length).matchesPath path = true := by
  have prefixMatches : matchesInitially path.segments (whole.take path.length).segments =
      whole.isWithin path := matchesInitially_take path.segments whole.segments
  rw [matchesPath_comm, matchesPath_iff, prefixMatches]
  constructor
  · intro inside
    have enough := length_le_of_matchesInitially inside
    have sameLength : path.length = (whole.take path.length).length := by
      unfold take length
      rw [List.length_take]
      exact (Nat.min_eq_left enough).symm
    exact ⟨sameLength, inside⟩
  · exact And.right

/-- What lies within a path lies within the paths above it. -/
theorem isWithin_of_prefix {whole above path : Path} (begins : above.segments <+: path.segments)
    (inside : whole.isWithin path = true) : whole.isWithin above = true := by
  obtain ⟨further, shape⟩ := begins
  unfold isWithin at inside ⊢
  rw [← shape, matchesInitially_append, Bool.and_eq_true] at inside
  exact inside.1

/-- A path lies within the paths above it. -/
theorem isWithin_prefix_self {above path : Path} (begins : above.segments <+: path.segments) :
    path.isWithin above = true :=
  isWithin_of_prefix begins (matchesInitially_self path.segments)

/-- The first segments of a path decide what it lies within. -/
theorem isWithin_take {whole path : Path} {depth : Nat} (enough : path.length ≤ depth) :
    (whole.take depth).isWithin path = whole.isWithin path := by
  have shorter : min path.segments.length depth = path.segments.length := Nat.min_eq_left enough
  unfold isWithin take
  rw [← matchesInitially_take path.segments (whole.segments.take depth), List.take_take, shorter,
    matchesInitially_take]

/-- Of the first parts of a path, those that are long enough lie within what the whole lies
within. -/
theorem isWithin_take_iff {whole path : Path} {depth : Nat} :
    (whole.take depth).isWithin path = true ↔
      path.length ≤ depth ∧ whole.isWithin path = true := by
  constructor
  · intro inside
    have bounded : path.length ≤ (whole.segments.take depth).length :=
      length_le_of_matchesInitially inside
    have enough : path.length ≤ depth := by
      rw [List.length_take] at bounded
      omega
    exact ⟨enough, isWithin_take enough ▸ inside⟩
  · rintro ⟨enough, inside⟩
    rw [isWithin_take enough]
    exact inside

/-! ### Fixed segments -/

/-- A path without wildcards. -/
def IsFixed (path : Path) : Prop :=
  ∀ segment ∈ path.segments, isWildcard segment = false

instance (path : Path) : Decidable path.IsFixed := by
  unfold IsFixed
  infer_instance

/-- Segments that fixed ones match also match what those match. -/
theorem matchesInitially_trans {initial fixed whole : List String}
    (noWildcard : ∀ segment ∈ fixed, isWildcard segment = false)
    (upper : matchesInitially initial fixed = true) (lower : matchesInitially fixed whole = true) :
    matchesInitially initial whole = true := by
  induction initial generalizing fixed whole with
  | nil => rfl
  | cons head tail inductionHypothesis =>
      cases fixed with
      | nil => cases upper
      | cons middle rest =>
          cases whole with
          | nil => cases lower
          | cons other others =>
              rw [matchesInitially, Bool.and_eq_true, segmentsMatch_iff] at upper lower ⊢
              have plain := noWildcard middle List.mem_cons_self
              have behind : ∀ segment ∈ rest, isWildcard segment = false := fun segment member =>
                noWildcard segment (List.mem_cons_of_mem middle member)
              refine ⟨?_, inductionHypothesis behind upper.2 lower.2⟩
              -- A fixed segment in the middle passes on what stands on either side of it.
              rcases upper.1 with isWild | isWild | rfl
              · exact .inl isWild
              · exact absurd (plain.symm.trans isWild) (by decide)
              · exact lower.1

/-- What matches the same fixed segments matches one another. -/
theorem matchesInitially_through {fixed initial further whole : List String}
    (noWildcard : ∀ segment ∈ fixed, isWildcard segment = false)
    (short : initial.length ≤ fixed.length)
    (matching : matchesInitially fixed (initial ++ further) = true)
    (inside : matchesInitially fixed whole = true) : matchesInitially initial whole = true := by
  have sameLength : (fixed.take initial.length).length = initial.length :=
    List.length_take_of_le short
  rw [← List.take_append_drop initial.length fixed, matchesInitially_append,
    Bool.and_eq_true, ← matchesInitially_take, sameLength, List.take_left,
    matchesInitially_comm sameLength, matchesInitially_take] at matching
  exact matchesInitially_trans noWildcard matching.1 inside

/-- Of two paths within a fixed one, the one lies within the paths above the other that are
no longer than the fixed one. -/
theorem isWithin_through {whole path fixed above : Path} (noWildcard : fixed.IsFixed)
    (begins : above.segments <+: path.segments) (short : above.length ≤ fixed.length)
    (matching : path.isWithin fixed = true) (inside : whole.isWithin fixed = true) :
    whole.isWithin above = true := by
  obtain ⟨further, shape⟩ := begins
  unfold isWithin at matching inside ⊢
  rw [← shape] at matching
  exact matchesInitially_through noWildcard short matching inside

end Path

/-! ## Links -/

/-- Longer than the other path, and within it. -/
def Path.IsBelow (path above : Path) : Prop :=
  above.length < path.length ∧ path.isWithin above = true

instance (path above : Path) : Decidable (path.IsBelow above) := by
  unfold Path.IsBelow
  infer_instance

/-- A link from a path leads to its target if that is below the path, and to the path itself
otherwise. -/
theorem linkTarget_eq (target current : Path) :
    linkTarget target current = if target.IsBelow current then target else current := by
  by_cases below : target.IsBelow current
  · -- The longest prefix of all is taken at once.
    obtain ⟨longer, within⟩ := below
    obtain ⟨depth, length⟩ : ∃ depth, target.length = depth + 1 := ⟨target.length - 1, by omega⟩
    have inside : (target.take depth).isWithin current = true :=
      Path.isWithin_take_iff.mpr ⟨by omega, within⟩
    have first : ((List.range target.length).reverse.find? fun depth =>
        (target.take depth).isWithin current) = some depth := by
      rw [length, List.range_succ, List.reverse_append, List.reverse_singleton,
        List.singleton_append]
      exact List.find?_cons_of_pos inside
    have whole : target.take (depth + 1) = target := by
      unfold Path.take
      rw [List.take_of_length_le (Nat.le_of_eq length)]
    unfold linkTarget
    dsimp only
    rw [first, if_pos ⟨longer, within⟩]
    exact whole
  · have absent : ((List.range target.length).reverse.find? fun depth =>
        (target.take depth).isWithin current) = none := by
      rw [List.find?_eq_none]
      intro depth member inside
      have shorter : depth < target.length := by simpa using member
      obtain ⟨enough, within⟩ := Path.isWithin_take_iff.mp inside
      exact below ⟨Nat.lt_of_le_of_lt enough shorter, within⟩
    unfold linkTarget
    dsimp only
    rw [absent, if_neg below]

/-! ## Tables -/

namespace Table

theorem has_iff {table : Table} {path : Path} :
    table.has path = true ↔ ∃ entry ∈ table.entries, entry.path.matchesPath path = true := by
  simp [has, get?]

/-- No route matches a route that was registered before it. -/
def Distinct (table : Table) : Prop :=
  table.entries.Pairwise fun earlier later => earlier.path.matchesPath later.path = false

theorem distinct_empty : empty.Distinct := .nil

/-- A route that is registered is found under its path. -/
theorem Distinct.get?_of_mem {table : Table} {entry : Entry} (distinct : table.Distinct)
    (member : entry ∈ table.entries) : table.get? entry.path = some entry := by
  obtain ⟨early, late, shape⟩ := List.append_of_mem member
  unfold Distinct at distinct
  rw [shape, List.pairwise_append] at distinct
  apply List.find?_eq_some_iff_append.mpr
  refine ⟨Path.matchesPath_self entry.path, early, late, shape, fun other isEarly => ?_⟩
  rw [distinct.2.2 other isEarly entry List.mem_cons_self]
  rfl

theorem get?_eq_some {table : Table} {path : Path} {entry : Entry}
    (found : table.get? path = some entry) :
    entry ∈ table.entries ∧ entry.path.matchesPath path = true := by
  unfold get? at found
  have matching := List.find?_some found
  exact ⟨List.mem_of_find?_eq_some found, matching⟩

theorem entries_of_add? {table added : Table} {entry : Entry}
    (registered : table.add? entry = some added) :
    added = { table with entries := table.entries ++ [entry] } := by
  unfold add? at registered
  split at registered
  · cases registered
  · exact (Option.some.inj registered).symm

theorem Distinct.add? {table added : Table} {entry : Entry} (distinct : table.Distinct)
    (registered : table.add? entry = some added) : added.Distinct := by
  have shape := entries_of_add? registered
  unfold Table.add? at registered
  split at registered
  · cases registered
  · next unknown =>
    subst shape
    refine List.pairwise_append.mpr ⟨distinct, List.pairwise_singleton _ _, ?_⟩
    intro earlier known later isEntry
    rw [List.mem_singleton.mp isEntry]
    rw [has_iff] at unknown
    exact Bool.eq_false_iff.mpr fun matching => unknown ⟨earlier, known, matching⟩

@[simp] theorem entries_seeContainer (table : Table) (container : String) :
    (table.seeContainer container).entries = table.entries := by
  unfold seeContainer
  split <;> rfl

theorem Distinct.seeContainer {table : Table} (distinct : table.Distinct) (container : String) :
    (table.seeContainer container).Distinct := by
  unfold Distinct
  rw [entries_seeContainer]
  exact distinct

end Table

end Sitewright.Routing
