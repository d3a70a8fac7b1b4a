import Sitewright.Json.Reader

/-!
Contract: finished pages and the records that describe them.

A page needs resources when the server has to fetch data before it can be shown.
Each resource is exposed to the page under a key made of its letters.
-/

namespace Sitewright

/-- A letter from A to Z in either case. -/
def isAsciiLetter (character : Char) : Bool :=
  character.isAlpha

/-- The letters of a resource's name, the first one a capital. -/
def resourceKey (resource : String) : String :=
  match resource.toList.filter isAsciiLetter with
  | [] => ""
  | first :: rest => String.ofList (first.toUpper :: rest)

/-- A resource that a page needs, and the key it is exposed under. -/
structure Requirement where
  key : String
  resource : String
deriving DecidableEq, Repr

def Requirement.ofResource (resource : String) : Requirement :=
  { key := resourceKey resource, resource }

structure Page where
  route : String
  html : String
  requirements : List Requirement
  /-- What components noted about the page, sorted by key. -/
  metadata : List (String × Json)

/-- What the server reads beside a page. -/
structure PageSidecar where
  dynamic : Bool
  requirements : Option (List Requirement)
  metadata : List (String × Json)

namespace Page

def isDynamic (page : Page) : Bool :=
  !page.requirements.isEmpty

def sidecar (page : Page) : PageSidecar :=
  { dynamic := page.isDynamic
    requirements := if page.isDynamic then some page.requirements else none
    metadata := page.metadata }

end Page

/-! ## Records -/

namespace Requirement

def toJson (requirement : Requirement) : Json :=
  .object [("key", .string requirement.key), ("res", .string requirement.resource)]

def ofSyntax? (tree : JsonSyntax) : Option Requirement := do
  match ← tree.fields? ["key", "res"] with
  | [some key, some resource] =>
      return { key := ← key.text?, resource := ← resource.text? }
  | _ => none

end Requirement

namespace PageSidecar

/-- The members of the record: the fixed ones, then what was noted, as it is. -/
def members (sidecar : PageSidecar) : List (String × Json) :=
  ("isDynamic", .bool sidecar.dynamic) ::
    (match sidecar.requirements with
      | some requirements => [("resources", .array (requirements.map Requirement.toJson))]
      | none => []) ++
    sidecar.metadata

def toJson (sidecar : PageSidecar) : Json :=
  .object sidecar.members

/-- The required resources: absent, null, or a list of records. -/
def requirementsOf? : Option JsonSyntax → Option (Option (List Requirement))
  | none => some none
  | some .null => some none
  | some tree => do
      let items ← tree.elements?
      let requirements ← items.mapM Requirement.ofSyntax?
      return some requirements

/-- A record from an object; members without a meaning of their own are kept. -/
def ofSyntax? : JsonSyntax → Option PageSidecar
  | .object members => do
      match ← JsonSyntax.namedFields? ["isDynamic", "resources"] members with
      | [some dynamic, requirements] =>
          let noted := members.filter fun entry =>
            entry.1 ≠ some "isDynamic" && entry.1 ≠ some "resources"
          let noted ← JsonSyntax.membersToJson? (JsonSyntax.nestingLimit - 1) noted
          return {
            dynamic := ← dynamic.flag?
            requirements := ← requirementsOf? requirements
            metadata := Json.sortMembers noted }
      | _ => none
  | _ => none

end PageSidecar

end Sitewright
