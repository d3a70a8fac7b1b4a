import Sitewright.Proofs.Routing.Matching
import Sitewright.Proofs.Routing.Spelling

/-!
Contract: where a link leads.

The search tries the prefixes of the target from the longest one down, and takes the first one whose
parent lies within the current path. As soon as one parent lies there, every longer one does, so the
search ends at its first step or not at all: a link leads to its target or stays where it is.

Owns:
- lying within a path, position by position;
- prefixes of proper paths, as they are put together of their segments;
- `linkTarget_whole_or_current`, what the search can end with.

Does not own: the container that is replaced there.
-/

namespace Sitewright.Routing

namespace Path

/-- Initial segments match if there are enough others, and neighbours match. -/
theorem matchesInitially_iff_zip {initial whole : List String} :
    matchesInitially initial whole = true ↔
      initial.length ≤ whole.length ∧
        ∀ pair ∈ initial.zip whole, segmentsMatch pair.1 pair.2 = true := by
  induction initial generalizing whole with
  | nil => simp [matchesInitially]
  | cons head tail inductionHypothesis =>
      cases whole with
      | nil => simp [matchesInitially]
      | cons other others =>
          rw [matchesInitially, Bool.and_eq_true, inductionHypothesis, List.zip_cons_cons,
            List.forall_mem_cons, List.length_cons, List.length_cons, Nat.add_le_add_iff_right]
          exact and_left_comm

/-- The prefixes that the search tries are the same when they are put together text by text. -/
theorem IsProper.ofTexts_take {path : Path} (proper : path.IsProper) (depth : Nat) :
    ofTexts (path.segments.take depth) = path.take depth := by
  have initial : (path.take depth).IsProper := fun segment member =>
    proper segment (List.mem_of_mem_take member)
  rw [ofTexts_eq]
  exact ofText_text initial

end Path

/-- What the search for the target of a link ends with. The whole target, if it has more segments
than the current path and lies within it; that means that it has enough segments, and that of two
segments at the same position one is a wildcard or both are the same. Otherwise the current path.
So nothing in between is ever found: no prefix of the target that is neither empty nor all of it,
unless it is the current path. -/
theorem linkTarget_whole_or_current (target current : Path) :
    (linkTarget target current =
      if current.length < target.length ∧ target.isWithin current = true then target
      else current) ∧
    (target.isWithin current = true ↔
      current.length ≤ target.length ∧ ∀ pair ∈ current.segments.zip target.segments,
        isWildcard pair.1 = true ∨ isWildcard pair.2 = true ∨ pair.1 = pair.2) ∧
    ∀ initial : Path, initial.segments <+: target.segments → initial ≠ target →
      initial ≠ .root → initial ≠ current → linkTarget target current ≠ initial := by
  have closed := linkTarget_eq target current
  refine ⟨closed, ?_, ?_⟩
  · simp only [← segmentsMatch_iff]
    exact Path.matchesInitially_iff_zip
  · intro initial _ notTarget _ notCurrent found
    rw [closed] at found
    by_cases below : target.IsBelow current
    · rw [if_pos below] at found
      exact notTarget found.symm
    · rw [if_neg below] at found
      exact notCurrent found.symm

/-- Wildcards match on either side. The link leads to the reviews, and not to the product above
them. -/
theorem linkTarget_reviews :
    let target := Path.ofText "/products/:id/reviews"
    let current := Path.ofText "/:section/7"
    linkTarget target current = target ∧
      (Path.ofText "products/:id").segments <+: target.segments ∧
      linkTarget target current ≠ Path.ofText "products/:id" := by
  intro target current
  obtain ⟨closed, within_, between⟩ := linkTarget_whole_or_current target current
  have inside : target.isWithin current = true := within_.mpr (by decide +kernel)
  have initial : (Path.ofText "products/:id").segments <+: target.segments := by decide +kernel
  have longer : current.length < target.length := by decide +kernel
  rw [if_pos ⟨longer, inside⟩] at closed
  exact ⟨closed, initial, between _ initial (by decide +kernel) (by decide +kernel)
    (by decide +kernel)⟩

end Sitewright.Routing
