import Sitewright.Json.Value
import Sitewright.Markup.Attribute

/-!
Contract: server actions that forms post to.

An action has an identity of its own. Copies keep it, so a submit button fits
the forms of its action and of every copy; relating an island to an action makes
a new one.

Owns:
- actions and the supply of identities;
- the islands that a form asks to have refreshed;
- the attributes of a button that posts.
-/

namespace Sitewright

open Markup

inductive Method where
  | get
  | post
  | put
  | patch
  | delete
deriving DecidableEq, Repr

/-- The attribute that sends a request with a method. -/
def Method.attributeName : Method → String
  | .get => "hx-get"
  | .post => "hx-post"
  | .put => "hx-put"
  | .patch => "hx-patch"
  | .delete => "hx-delete"

structure Action where
  identity : Nat
  method : Method
  name : String
  /-- Islands refreshed whenever the action is performed. -/
  islands : List String
deriving DecidableEq, Repr

/-- Computations that take identities from a supply; the state is the next one. -/
abbrev Supply := StateM Nat

namespace Action

/-- An identity that was never given before. -/
def freshIdentity : Supply Nat := fun next => (next, next + 1)

def create (method : Method) (name : String) : Supply Action := do
  let identity ← freshIdentity
  return { identity, method, name, islands := [] }

/-- The action with one more island, under a new identity. -/
def relate (action : Action) (island : String) : Supply Action := do
  let identity ← freshIdentity
  return { action with identity, islands := action.islands ++ [island] }

/-- The action with more islands; without any it keeps its identity. -/
def relateAll (action : Action) : List String → Supply Action
  | [] => return action
  | island :: rest => do
      let related ← action.relate island
      related.relateAll rest

/-- Where forms of the action are posted. -/
def address (action : Action) : String :=
  "/__actions/" ++ action.name

end Action

/-- What one form asks for on top of its action. -/
structure Refresh where
  islands : List String
  /-- Keys of the elements of a list island that are refreshed alone. -/
  items : List Value
deriving DecidableEq, Repr

namespace Refresh

def none : Refresh := ⟨[], []⟩

/-- Identifiers appended to those listed already, unless they are listed. -/
def appendNew : (listed : List String) → List String → List String
  | listed, [] => listed
  | listed, id :: rest =>
      appendNew (if listed.contains id then listed else listed ++ [id]) rest

/-- The islands of the action, then those of the form that are not among them. -/
def islandIds (refresh : Refresh) (action : Action) : List String :=
  appendNew action.islands refresh.islands

end Refresh

/-- The call of the client that makes the headers of a refresh. -/
def refreshCall (route : String) (islands : List String) (items : List Value) : String :=
  "__hardwire.formHeaders(" ++ Json.quoted route ++ ", " ++ Json.stringsText islands ++ ", " ++
    Json.stringsText (items.filterMap Value.text?) ++ ")"

/-- The attributes of a button after those that make it post an action: it sends
the form with the given id and refreshes the islands, if there are any. -/
def Action.buttonAttributes (action : Action) (formId route : String) (islands : List String)
    (items : List Value) (attributes : Attributes) : Attributes :=
  let posting :=
    [⟨"hx-include", .string ("#" ++ formId)⟩,
     ⟨action.method.attributeName, .string action.address⟩,
     ⟨"hx-swap", .string "none"⟩]
  let refreshing :=
    if islands.isEmpty then []
    else [⟨"hx-headers", .string ("javascript: ..." ++ refreshCall route islands items)⟩]
  attributes.setAll (posting ++ refreshing)

example : refreshCall "products/1" ["cart"] [.string "a", .null] =
    "__hardwire.formHeaders(\"products/1\", [\"cart\"], [\"a\"])" := by decide +kernel

end Sitewright
