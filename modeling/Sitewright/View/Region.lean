import Sitewright.Text.Blank
import Sitewright.View.Basic

/-!
Contract: regions that the server renders on request, and islands.

A region's template binds its data first and continues with the content. A list
region repeats its content over the elements of the data, each in a keyed element.

Does not own: compiling and storing templates.
-/

namespace Sitewright

open Markup Template Catalog

/-- A class followed by the text of another, the latter without white space at
its ends and only if anything is left. -/
def joinedClass (base : String) (extra : Option Value) : Value :=
  match extra.bind Value.text? with
  | some text =>
      let trimmed := Text.trimBlank text
      .string (if trimmed.isEmpty then base else base ++ " " ++ trimmed)
  | none => .string base

/-- The element around a template, which binds the data before its content. -/
def templateView (attributes : Attributes) (content : View) : View :=
  .element "dynamic-fragment" attributes [.raw bindFragmentRoot, content]

/-- A region that shows one value. -/
structure SingleRegion where
  resource : String
  body : DataRef → View
  class? : Option String
  fallback : View
  loading : Loading
  island : Option String

namespace SingleRegion

/-- A region without class, fallback and island. -/
def ofBody (resource : String) (body : DataRef → View) : SingleRegion :=
  { resource, body, class? := none, fallback := .blank, loading := .standard, island := none }

def template (single : SingleRegion) (root : DataRef) : View :=
  templateView [⟨"class", .ofString? single.class?⟩] (single.body root)

def view (single : SingleRegion) : View :=
  .remote
    { kind := .single, resource := single.resource
      loading := single.loading, island := single.island }
    single.template single.fallback

end SingleRegion

/-- A region that shows the elements of a sequence. -/
structure ListRegion where
  resource : String
  body : (element position : DataRef) → View
  /-- The key of an element; without one, its position. -/
  key : Option ((element position : DataRef) → Value)
  /-- What is put around the elements; it also gets the whole sequence. -/
  wrapper : Option ((items : View) → (whole : DataRef) → View)
  id : Option String
  class? : Option Value
  itemClass : Option Value
  fallback : View
  loading : Loading
  island : Option String

namespace ListRegion

/-- A region with nothing but its resource and content. -/
def ofBody (resource : String) (body : (element position : DataRef) → View) : ListRegion :=
  { resource, body, key := none, wrapper := none, id := none, class? := none, itemClass := none
    fallback := .blank, loading := .standard, island := none }

/-- The key of an element at a position. -/
def keyOf (list : ListRegion) (element position : DataRef) : Value :=
  match list.key with
  | some key => key element position
  | none => .ref position

/-- The keyed element around the content of one element of the sequence. -/
def item (list : ListRegion) (element position : DataRef) : View :=
  .element "div"
    [⟨"data-item-key", list.keyOf element position⟩,
     ⟨"class", joinedClass "dynamic-list-element" list.itemClass⟩]
    [list.body element position]

def items (list : ListRegion) (whole : DataRef) : View :=
  .loop whole list.item

def template (list : ListRegion) (root : DataRef) : View :=
  templateView
    [⟨"id", .ofString? list.id⟩, ⟨"class", joinedClass "dynamic-list" list.class?⟩]
    (match list.wrapper with
      | some wrapper => wrapper (list.items root) root
      | none => list.items root)

def view (list : ListRegion) : View :=
  .remote
    { kind := .list, resource := list.resource
      loading := list.loading, island := list.island }
    list.template list.fallback

end ListRegion

/-! ## Islands -/

/-- The content of an island. -/
inductive IslandBody where
  | single (body : DataRef → View)
  | list (body : (element position : DataRef) → View)

/-- A named region that can be fetched again on its own. -/
structure Island where
  id : String
  resource : String
  body : IslandBody
  loading : Loading

namespace Island

def kind (island : Island) : IslandKind :=
  match island.body with
  | .single _ => .single
  | .list _ => .list

/-- The region of the island, under an element or a list with its id. -/
def view (island : Island) : View :=
  match island.body with
  | .single body =>
      .element "div" [⟨"id", .string island.id⟩]
        [SingleRegion.view
          { SingleRegion.ofBody island.resource body with
            loading := island.loading, island := some island.id }]
  | .list body =>
      ListRegion.view
        { ListRegion.ofBody island.resource body with
          id := some island.id
          class? := some (.string ("island_" ++ island.id))
          loading := island.loading
          island := some island.id }

end Island

end Sitewright
