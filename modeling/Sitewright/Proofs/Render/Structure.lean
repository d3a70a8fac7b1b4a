import Sitewright.Proofs.Markup.Structure
import Sitewright.Render.View

/-!
Contract: rendering keeps the structure of plain markup.

Owns:
- views of texts, groups and elements only, and their normal form;
- the text of such a view, which is the normal form as written;
- the equivalence of equal texts and equal normal forms.

Does not own: raw content, which may hold anything, and what constructs write.
-/

namespace Sitewright

open Markup Render

namespace View

/-- A view of texts, groups and elements with tags and attributes that can be written. -/
inductive IsMarkup : View → Prop
  | blank : IsMarkup .blank
  | text (content : String) : IsMarkup (.text content)
  | group {children : List View} (inside : ∀ child ∈ children, IsMarkup child) :
      IsMarkup (.group children)
  | element {tag : String} {attributes : Attributes} {children : List View} (isTag : IsTag tag)
      (named : ∀ entry ∈ attributes, IsName entry.name)
      (inside : ∀ child ∈ children, IsMarkup child) : IsMarkup (.element tag attributes children)

/-! ## Normal form -/

mutual

/-- The texts and elements of a view, with groups spliced and blanks dropped. The
content of elements is in normal form, the outermost texts need not be. -/
def nodes : View → List Node
  | .text content => [.text content]
  | .group children => nodesAll children
  | .element tag attributes children =>
      [.element tag (attributes.filterMap Attribute.shown?) (Node.mergeTexts (nodesAll children))]
  | _ => []

def nodesAll : List View → List Node
  | [] => []
  | first :: rest => nodes first ++ nodesAll rest

end

def normalize (view : View) : List Node :=
  Node.mergeTexts view.nodes

theorem mem_nodesAll {views : List View} {node : Node} (member : node ∈ nodesAll views) :
    ∃ view ∈ views, node ∈ view.nodes := by
  induction views with
  | nil => cases member
  | cons first rest inductionHypothesis =>
      rcases List.mem_append.mp member with inFirst | inRest
      · exact ⟨first, List.mem_cons_self, inFirst⟩
      · obtain ⟨view, inViews, inside⟩ := inductionHypothesis inRest
        exact ⟨view, List.mem_cons_of_mem _ inViews, inside⟩

theorem IsMarkup.isPart {view : View} (isMarkup : view.IsMarkup) :
    ∀ node ∈ view.nodes, node.IsPart := by
  induction isMarkup with
  | blank => exact fun node member => nomatch member
  | text content => exact fun node member => List.mem_singleton.mp member ▸ trivial
  | group inside inductionHypothesis =>
      intro node member
      obtain ⟨child, inChildren, inChild⟩ := mem_nodesAll member
      exact inductionHypothesis child inChildren node inChild
  | element isTag named inside inductionHypothesis =>
      intro node member
      obtain rfl := List.mem_singleton.mp member
      refine ⟨isTag, Attributes.legible_of_named named,
        Node.Normal.mergeTexts fun part inParts => ?_⟩
      obtain ⟨child, inChildren, inChild⟩ := mem_nodesAll inParts
      exact inductionHypothesis child inChildren part inChild

/-! ## The text of a view -/

/-- A view that is rendered to its nodes as written, whatever the setting and state. -/
def Writes (view : View) : Prop :=
  ∃ text, view.render = pure text ∧ text.toList = Node.writeAll view.nodes

theorem writes_renderAll {views : List View} (writes : ∀ view ∈ views, view.Writes) :
    ∃ text, renderAll views = pure text ∧ text.toList = Node.writeAll (nodesAll views) := by
  induction views with
  | nil => exact ⟨"", rfl, rfl⟩
  | cons first rest inductionHypothesis =>
      obtain ⟨text, rendered, written⟩ := writes first List.mem_cons_self
      obtain ⟨others, restRendered, restWritten⟩ := inductionHypothesis fun view member =>
        writes view (List.mem_cons_of_mem _ member)
      refine ⟨text ++ others, ?_, ?_⟩
      · rw [renderAll, rendered, restRendered]
        rfl
      · rw [String.toList_append, written, restWritten, nodesAll, Node.writeAll_append]

theorem IsMarkup.writes {view : View} (isMarkup : view.IsMarkup) : view.Writes := by
  induction isMarkup with
  | blank => exact ⟨"", by rw [render, nothing], rfl⟩
  | text content =>
      refine ⟨escapeText content, by rw [render], ?_⟩
      rw [nodes, Node.writeAll, Node.write, Node.writeAll, List.append_nil]
  | group inside inductionHypothesis =>
      obtain ⟨text, rendered, written⟩ := writes_renderAll inductionHypothesis
      exact ⟨text, by rw [render, rendered], written⟩
  | @element tag attributes children isTag named inside inductionHypothesis =>
      obtain ⟨content, rendered, written⟩ := writes_renderAll inductionHypothesis
      refine ⟨elementText tag attributes content, ?_, ?_⟩
      · rw [render, rendered]
        rfl
      · rw [toList_elementText named, written, nodes, Node.writeAll, Node.write, Node.writeAll,
          List.append_nil, Node.writeAll_mergeTexts]

/-- Plain markup is always rendered, and two views are rendered to the same text just
when they have the same normal form. What escapes write holds no sign that could
begin or end a tag, or end the value of an attribute. -/
theorem text_eq_iff_normalize_eq {first second : View} (isMarkup : first.IsMarkup)
    (otherIsMarkup : second.IsMarkup) :
    (∃ text other : String, first.render = pure text ∧ second.render = pure other ∧
      (text = other ↔ first.normalize = second.normalize)) ∧
    (∀ content : String, ∀ sign ∈ ['<', '>'], sign ∉ (escapeText content).toList) ∧
    (∀ value : String, ∀ sign ∈ ['<', '>', '"'], sign ∉ (escapeAttribute value).toList) := by
  obtain ⟨text, rendered, written⟩ := isMarkup.writes
  obtain ⟨other, otherRendered, otherWritten⟩ := otherIsMarkup.writes
  rw [← Node.writeAll_mergeTexts] at written otherWritten
  refine ⟨⟨text, other, rendered, otherRendered, ?sameText⟩, ?texts, ?values⟩
  case sameText =>
    constructor
    · rintro rfl
      exact (Node.Normal.mergeTexts isMarkup.isPart).writeAll_injective
        (Node.Normal.mergeTexts otherIsMarkup.isPart) (written.symm.trans otherWritten)
    · intro same
      rw [← String.toList_inj, written, otherWritten]
      exact congrArg Node.writeAll same
  case texts =>
    intro content
    have brackets : '<' ∉ (escapeText content).toList ∧ '>' ∉ (escapeText content).toList :=
      bracketFree_escapeBrackets _
    simpa using brackets
  case values =>
    intro value
    have brackets : '<' ∉ (escapeAttribute value).toList ∧ '>' ∉ (escapeAttribute value).toList :=
      bracketFree_escapeBrackets _
    simpa using ⟨brackets.1, brackets.2, quoteFree_escapeAttribute value⟩

/-- A line in pieces: texts beside one another, one of them in a group, an omitted
attribute, and a value with a quote. -/
def scatteredLine : View :=
  .element "p" [⟨"class", .string "a\"b"⟩, ⟨"title", .null⟩, ⟨"hidden", .bool true⟩]
    [.text "1 ", .blank, .group [.text "< 2", .text ""], .element "br" [] [.text ""]]

/-- The same line in few pieces, with the quote as a reference. -/
def mergedLine : View :=
  .element "p" [⟨"class", .string "a&quot;b"⟩, ⟨"hidden", .bool true⟩]
    [.group [.text "1 < 2", .element "br" [] []]]

theorem isMarkup_scatteredLine : scatteredLine.IsMarkup := by
  have words : IsMarkup (.group [.text "< 2", .text ""]) := .group (by simp [IsMarkup.text])
  have lineBreak : IsMarkup (.element "br" [] [.text ""]) :=
    .element (by decide) (by decide) (by simp [IsMarkup.text])
  exact .element (by decide) (by decide) (by simp [IsMarkup.text, IsMarkup.blank, words, lineBreak])

theorem isMarkup_mergedLine : mergedLine.IsMarkup := by
  have lineBreak : IsMarkup (.element "br" [] []) := .element (by decide) (by decide) (by simp)
  have line : IsMarkup (.group [.text "1 < 2", .element "br" [] []]) :=
    .group (by simp [IsMarkup.text, lineBreak])
  exact .element (by decide) (by decide) (by simp [line])

theorem lines_have_one_text :
    scatteredLine.IsMarkup ∧ mergedLine.IsMarkup ∧
      ∃ text, scatteredLine.render = pure text ∧ mergedLine.render = pure text := by
  refine ⟨isMarkup_scatteredLine, isMarkup_mergedLine, ?_⟩
  obtain ⟨⟨text, other, rendered, otherRendered, same⟩, -, -⟩ :=
    text_eq_iff_normalize_eq isMarkup_scatteredLine isMarkup_mergedLine
  obtain rfl := same.mpr rfl
  exact ⟨text, rendered, otherRendered⟩

end View

end Sitewright
