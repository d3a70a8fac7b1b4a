import Sitewright.Json.Reader

/-!
Contract: records of islands, the named regions that are fetched again on their own.
-/

namespace Sitewright.Catalog

/-- Whether an island shows one value or the elements of a sequence. -/
inductive IslandKind where
  | single
  | list
deriving DecidableEq, Repr

def IslandKind.label : IslandKind → String
  | .single => "single"
  | .list => "list"

def IslandKind.ofLabel? : String → Option IslandKind
  | "single" => some .single
  | "list" => some .list
  | _ => none

/-- Which fragment an island was compiled to. -/
structure IslandRecord where
  id : String
  fragment : String
  kind : IslandKind
  resource : String
deriving DecidableEq, Repr

namespace IslandRecord

def toJson (record : IslandRecord) : Json :=
  .object
    [("id", .string record.id),
     ("fragmentId", .string record.fragment),
     ("type", .string record.kind.label),
     ("resourceName", .string record.resource)]

def ofSyntax? (tree : JsonSyntax) : Option IslandRecord := do
  match ← tree.fields? ["id", "fragmentId", "type", "resourceName"] with
  | [some id, some fragment, some kind, some resource] =>
      return {
        id := ← id.text?
        fragment := ← fragment.text?
        kind := ← kind.label?.bind IslandKind.ofLabel?
        resource := ← resource.text? }
  | _ => none

end IslandRecord

end Sitewright.Catalog
