/-!
Contract: cutting a text at a separator, joining texts, and removing a
separator from both ends.

Owns:
- `runs`, the stretches between separators, and `pieces`, the non-empty ones;
- `joinWith`, which writes a separator between neighbours only;
- `trim`, `trimStart` and `trimEnd` of one repeated character.

Does not own: white space, which is a class of characters and not one character.
-/

namespace Sitewright.Text

/-- The stretches of `characters` between occurrences of `separator`. A list
without the separator is a single stretch. -/
def runs (separator : Char) : List Char → List (List Char)
  | [] => [[]]
  | head :: tail =>
      if head = separator then
        [] :: runs separator tail
      else
        match runs separator tail with
        | [] => [[head]]
        | first :: rest => (head :: first) :: rest

/-- The non-empty stretches of `text` between occurrences of `separator`. -/
def pieces (separator : Char) (text : String) : List String :=
  ((runs separator text.toList).filter (fun run => !run.isEmpty)).map String.ofList

/-- The texts in order, with `separator` between neighbours. -/
def joinWith (separator : String) : List String → String
  | [] => ""
  | [last] => last
  | head :: next :: rest => head ++ separator ++ joinWith separator (next :: rest)

/-- The characters left after removing `edge` from the front as often as possible. -/
def dropEdge (edge : Char) (characters : List Char) : List Char :=
  characters.dropWhile (fun character => character = edge)

/-- `text` without the occurrences of `edge` it begins with. -/
def trimStart (edge : Char) (text : String) : String :=
  String.ofList (dropEdge edge text.toList)

/-- `text` without the occurrences of `edge` it ends with. -/
def trimEnd (edge : Char) (text : String) : String :=
  String.ofList (dropEdge edge text.toList.reverse).reverse

/-- `text` without the occurrences of `edge` at either end. -/
def trim (edge : Char) (text : String) : String :=
  trimEnd edge (trimStart edge text)

/-- Every occurrence of `target` written as `replacement`. -/
def substitute (target : Char) (replacement : String) (text : String) : String :=
  String.ofList (text.toList.flatMap fun character =>
    if character = target then replacement.toList else [character])

/-! ## Shape of the stretches -/

theorem runs_ne_nil (separator : Char) (characters : List Char) :
    runs separator characters ≠ [] := by
  cases characters with
  | nil => simp [runs]
  | cons head tail =>
      simp only [runs]
      split
      · simp
      · split <;> simp

theorem separator_not_mem_of_mem_runs {separator : Char} {characters run : List Char}
    (member : run ∈ runs separator characters) : separator ∉ run := by
  induction characters generalizing run with
  | nil => simp_all [runs]
  | cons head tail inductionHypothesis =>
      simp only [runs] at member
      split at member
      · rcases List.mem_cons.mp member with isEmpty | inTail
        · simp [isEmpty]
        · exact inductionHypothesis inTail
      · next different =>
        split at member
        · next none => exact absurd none (runs_ne_nil separator tail)
        · next first rest equal =>
          rcases List.mem_cons.mp member with isFirst | inRest
          · subst isFirst
            have firstFree : separator ∉ first := inductionHypothesis (by simp [equal])
            simp only [List.mem_cons, not_or]
            exact ⟨fun same => different same.symm, firstFree⟩
          · exact inductionHypothesis (by simp [equal, inRest])

/-! ## Edges -/

/-- What stands behind another character than the edge stays. -/
theorem dropEdge_append_cons {edge head : Char} (different : head ≠ edge)
    (front tail : List Char) :
    dropEdge edge (front ++ head :: tail) = dropEdge edge front ++ head :: tail := by
  induction front with
  | nil => simp [dropEdge, different]
  | cons first rest inductionHypothesis =>
      unfold dropEdge at inductionHypothesis ⊢
      by_cases isEdge : first = edge
      · simpa [isEdge] using inductionHypothesis
      · simp [isEdge]

end Sitewright.Text
