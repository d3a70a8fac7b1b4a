import Sitewright.Render.Reply

/-!
Contract: routers, routes, links between them, and redirects.

A route is registered whenever a render comes across it, and rendered only if it
is selected.
-/

namespace Sitewright.Render

open Routing Markup Template

/-- The class of every container of routes. -/
def switchClass : String := "__route-switch"

/-- The class of a container, behind the classes it has already. -/
def withSwitchClass (attributes : Attributes) : String :=
  match (attributes.get? "class").bind Value.text? with
  | some own => if own.isEmpty then switchClass else own ++ " " ++ switchClass
  | none => switchClass

def switchAttributes (id : String) (attributes : Attributes) : Attributes :=
  let classes := withSwitchClass attributes
  attributes.setAll [⟨"id", .string id⟩, ⟨"class", .string classes⟩]

/-- A container that routes are swapped into. -/
def switch (id : String) (attributes : Attributes) (children : Render String) :
    Render String := do
  seeContainer id
  inScope (fun scope => scope.inRouter id)
    (element "div" (switchAttributes id attributes) children)

def route (path title : String) (content : Render String) : Render String := do
  let setting ← setting
  match setting.scope.container with
  | none => misuse .route "route used outside of any switch"
  | some container =>
      addRoute { path := setting.scope.current.extend path, title, container }
      if setting.scope.selects path then inScope (fun scope => scope.enter path) content
      else nothing

/-- Content with a reference to a resource that the page needs for it. -/
def withResource (resource : String) (content : DataRef → Render String) : Render String := do
  let key ← require resource
  content ⟨"." ++ key⟩

/-- The headers that ask for a language, if one is given. -/
def languageHeaders (locale : Option String) : Value :=
  .ofString? (locale.map fun language =>
    (Json.object [(Loading.languageHeader, .string language)]).text)

def linkAttributes (target container : String) (locale : Option String)
    (attributes : Attributes) : Attributes :=
  attributes.setAll
    [⟨"href", .string target⟩,
     ⟨"hx-headers", languageHeaders locale⟩,
     ⟨"hx-boost", .string "true"⟩,
     ⟨"hx-target", .string ("#" ++ container)⟩,
     ⟨"hx-swap", .string "outerHTML"⟩]

/-- A link that swaps its target into the right container. -/
def link (target : String) (locale : Option String) (attributes : Attributes)
    (children : Render String) : Render String := do
  let setting ← setting
  let container ← containerOf (linkTarget (Path.ofText target) setting.scope.current)
  element "a" (linkAttributes target container locale attributes) children

/-- A remark that the page redirects to `target`. -/
def redirect (target : String) : Render String := do
  note "redirectUrl" (.string target)
  note "shouldRedirect" (.bool true)
  nothing

end Sitewright.Render
