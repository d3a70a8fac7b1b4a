import Mathlib.Data.List.Basic
import Sitewright.Routing.Path

/-!
Contract: paths and their texts.

A path is proper if its segments can stand between slashes: none is empty and none has a
slash in it. The text of a proper path is cut into the same segments again, so proper paths
with one text are the same. A text with a slash in it is cut into what stands in front of the
slash and what stands behind it, so it makes no difference where a text is divided before it is
cut.

Owns:
- `IsProper`, which texts yield and which extension keeps;
- reading the text of a proper path, and texts that are put together with slashes;
- `Made`, the paths that can be made from texts at all, and the laws of making them.

Does not own: which paths match each other.
-/

namespace Sitewright

namespace Text

variable {separator : Char}

/-- Without the separator there is one stretch. -/
theorem runs_of_not_mem {run : List Char} (free : separator ∉ run) :
    runs separator run = [run] := by
  induction run with
  | nil => rfl
  | cons head tail inductionHypothesis =>
      rw [List.mem_cons, not_or] at free
      rw [runs, if_neg (fun same => free.1 same.symm), inductionHypothesis free.2]

/-- The stretches around a separator are those in front of it and those behind it. -/
theorem runs_append_separator (separator : Char) (front rest : List Char) :
    runs separator (front ++ separator :: rest) = runs separator front ++ runs separator rest := by
  induction front with
  | nil => simp [runs]
  | cons head tail inductionHypothesis =>
      rw [List.cons_append, runs, runs, inductionHypothesis]
      split
      · rfl
      · rcases shape : runs separator tail with _ | ⟨first, others⟩
        · exact absurd shape (runs_ne_nil separator tail)
        · rfl

/-- The pieces around a slash are those in front of it and those behind it. -/
theorem pieces_append_slash (front rest : String) :
    pieces '/' (front ++ "/" ++ rest) = pieces '/' front ++ pieces '/' rest := by
  have shape : (front ++ "/" ++ rest).toList = front.toList ++ '/' :: rest.toList := by simp
  unfold pieces
  rw [shape, runs_append_separator, List.filter_append, List.map_append]

/-- A text that is not empty and has no slash is its only piece. -/
theorem pieces_of_free {text : String} (nonempty : text ≠ "") (free : '/' ∉ text.toList) :
    pieces '/' text = [text] := by
  unfold pieces
  rw [runs_of_not_mem free, List.filter_cons_of_pos (by simpa using nonempty), List.filter_nil,
    List.map_singleton, String.ofList_toList]

/-- The pieces of texts with slashes between them are the pieces of each text. -/
theorem pieces_joinWith (texts : List String) :
    pieces '/' (joinWith "/" texts) = texts.flatMap (pieces '/') := by
  fun_induction joinWith "/" texts with
  | case1 => rfl
  | case2 last => rw [List.flatMap_singleton]
  | case3 head next rest inductionHypothesis =>
      rw [pieces_append_slash, inductionHypothesis]
      exact List.flatMap_cons.symm

end Text

namespace Routing.Path

/-! ## Proper paths -/

/-- No segment is empty or contains a slash. -/
def IsProper (path : Path) : Prop :=
  ∀ segment ∈ path.segments, segment ≠ "" ∧ '/' ∉ segment.toList

theorem isProper_root : root.IsProper := by
  intro segment member
  cases member

theorem isProper_ofText (text : String) : (ofText text).IsProper := by
  intro segment member
  obtain ⟨run, isRun, rfl⟩ := List.mem_map.mp member
  obtain ⟨isCut, nonempty⟩ := List.mem_filter.mp isRun
  rw [String.toList_ofList]
  refine ⟨?_, Text.separator_not_mem_of_mem_runs isCut⟩
  rintro isEmpty
  have blank : run = [] := by
    rw [← String.toList_ofList (l := run), isEmpty]
    rfl
  rw [blank] at nonempty
  cases nonempty

theorem IsProper.extend {path : Path} (proper : path.IsProper) (tail : String) :
    (path.extend tail).IsProper := by
  intro segment member
  rw [segments_extend, List.mem_append] at member
  rcases member with before | behind
  · exact proper segment before
  · exact isProper_ofText tail segment behind

theorem IsProper.parent {path : Path} (proper : path.IsProper) : path.parent.IsProper :=
  fun segment member => proper segment (List.dropLast_subset _ member)

/-- The text of a proper path is read as the path. -/
theorem ofText_text {path : Path} (proper : path.IsProper) : ofText path.text = path := by
  obtain ⟨segments⟩ := path
  have single : ∀ segment ∈ segments, Text.pieces '/' segment = [segment] := by
    intro segment member
    obtain ⟨nonempty, free⟩ := proper segment member
    exact Text.pieces_of_free nonempty free
  have cut : Text.pieces '/' (Text.joinWith "/" segments) = segments := by
    rw [Text.pieces_joinWith, List.flatMap_congr single, List.flatMap_singleton']
  exact congrArg Path.mk cut

/-- Proper paths with one text are the same. -/
theorem IsProper.eq_of_text {path other : Path} (proper : path.IsProper)
    (otherProper : other.IsProper) (same : path.text = other.text) : path = other := by
  rw [← ofText_text proper, same, ofText_text otherProper]

/-! ## Making paths -/

/-- Continued by one text and then by another, a path is continued by both with a slash between
them. -/
theorem extend_extend (path : Path) (tail further : String) :
    (path.extend tail).extend further = path.extend (tail ++ "/" ++ further) := by
  unfold extend
  rw [Text.pieces_append_slash, List.append_assoc]

/-- Continued by each of several texts in turn, a path is continued by all of them with slashes
between them. -/
theorem foldl_extend (path : Path) (texts : List String) :
    texts.foldl extend path = path.extend (Text.joinWith "/" texts) := by
  induction texts generalizing path with
  | nil => exact congrArg Path.mk (List.append_nil _).symm
  | cons head rest inductionHypothesis =>
      rw [List.foldl_cons, inductionHypothesis]
      unfold extend
      rw [List.append_assoc, Text.pieces_joinWith, Text.pieces_joinWith, List.flatMap_cons]

theorem ofTexts_eq (texts : List String) : ofTexts texts = ofText (Text.joinWith "/" texts) :=
  foldl_extend root texts

/-- A path that ends with a single segment of a text is continued by it from its parent. -/
theorem parent_extend (path : Path) {tail : String} (single : (ofText tail).length = 1) :
    (path.extend tail).parent = path := by
  obtain ⟨segment, only⟩ := List.length_eq_one_iff.mp single
  unfold parent
  rw [segments_extend, only, List.dropLast_concat]

/-- A path that is made from texts: read from one, put together from several, continued by one, or
the parent of such a path. -/
inductive Made : Path → Prop where
  | ofText (text : String) : Made (ofText text)
  | ofTexts (texts : List String) : Made (ofTexts texts)
  | extend {path : Path} (made : Made path) (tail : String) : Made (path.extend tail)
  | parent {path : Path} (made : Made path) : Made path.parent

/-- The paths that are made from texts are the proper ones. -/
theorem made_iff {path : Path} : path.Made ↔ path.IsProper := by
  constructor
  · intro made
    induction made with
    | ofText text => exact isProper_ofText text
    | ofTexts texts =>
        rw [ofTexts_eq]
        exact isProper_ofText _
    | extend _ tail inductionHypothesis => exact inductionHypothesis.extend tail
    | parent _ inductionHypothesis => exact inductionHypothesis.parent
  · intro proper
    rw [← ofText_text proper]
    exact .ofText path.text

/-- Paths are what their texts say. The paths that are made from texts are those whose segments are
neither empty nor hold a slash, and those that are read from their own text again; so different ones
have different texts. To continue a path by one text and then by another is to continue it by both
with a slash between them, whatever slashes the texts hold themselves, and a path put together from
texts is read from all of them with slashes between them. What a single segment is appended to is
the parent. -/
theorem texts_determine_paths :
    (∀ path : Path, path.Made ↔ ∀ segment ∈ path.segments, segment ≠ "" ∧ '/' ∉ segment.toList) ∧
    (∀ path : Path, path.Made ↔ ofText path.text = path) ∧
    (∀ path other : Path, path.Made → other.Made → path.text = other.text → path = other) ∧
    (∀ front rest : String, (ofText front).extend rest = ofText (front ++ "/" ++ rest)) ∧
    (∀ (path : Path) (tail further : String),
      (path.extend tail).extend further = path.extend (tail ++ "/" ++ further)) ∧
    (∀ texts : List String, ofTexts texts = ofText (Text.joinWith "/" texts)) ∧
    ∀ (path : Path) (tail : String), (ofText tail).length = 1 →
      (path.extend tail).parent = path := by
  refine ⟨fun path => made_iff, fun path => ?_, ?_, extend_extend root, extend_extend, ofTexts_eq,
    fun path tail => parent_extend path⟩
  · constructor
    · intro made
      exact ofText_text (made_iff.mp made)
    · intro same
      rw [← same]
      exact .ofText path.text
  · intro path other made otherMade same
    exact (made_iff.mp made).eq_of_text (made_iff.mp otherMade) same

/-- Slashes at the ends and in a row make no difference. -/
theorem guidePath_read_back :
    let guide := ((ofTexts ["/docs", "guide//intro/"]).extend "//part/one").parent
    guide.text = "docs/guide/intro/part" ∧ guide.Made ∧ ofText guide.text = guide ∧
      (guide.extend "/two/").parent = guide ∧
      ∀ other : Path, other.Made → other.text = "docs/guide/intro/part" → other = guide := by
  intro guide
  obtain ⟨-, readBack, apart, -, -, -, above⟩ := texts_determine_paths
  have made : guide.Made := .parent (.extend (.ofTexts _) _)
  have text : guide.text = "docs/guide/intro/part" := by decide +kernel
  have single : (ofText "/two/").length = 1 := by decide +kernel
  refine ⟨text, made, (readBack guide).mp made, above guide "/two/" single, ?_⟩
  intro other otherMade same
  exact apart other guide otherMade made (same.trans text.symm)

end Routing.Path

end Sitewright
