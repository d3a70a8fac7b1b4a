import Sitewright.Template.Expr
import Sitewright.View.Action
import Sitewright.View.Loading
import Sitewright.View.Request
import Sitewright.View.Scope

/-!
Contract: views, the trees that pages are described by.

A view is markup, one of the constructs of the library, or a component of the
user. Content that depends on request data is a function of references to them.
A component is a program: it asks requests one after another, may render views on
the way, and ends with a view or a fault. If what it renders fails, then so does
the component, at once and with the same fault; a component that handles such a
fault and goes on is not a view. A refused asset is a reply like any other, and can
be handled.

Renders are sequential: children are rendered one after another, from left to right.
No program waits in the middle of its render, so nothing else is rendered meanwhile.

Owns:
- the types of views and programs;
- the names of the constructs, as faults report them;
- which views describe nothing.

Does not own: what a view is rendered to.
-/

namespace Sitewright

open Markup Template Catalog

/-- A script: content to be stored or written into the page, or the name of an
asset stored elsewhere. -/
structure ScriptSource where
  name : String
  contents : Option String
  inlined : Bool
  asModule : Bool
deriving DecidableEq, Repr

/-- A region of a page that the server renders on request. -/
structure Region where
  kind : IslandKind
  resource : String
  loading : Loading
  /-- The island that the region belongs to. -/
  island : Option String
deriving DecidableEq, Repr

mutual

inductive View where
  | blank
  | text (content : String)
  /-- Written as it is: template source or trusted markup. -/
  | raw (content : String)
  | group (children : List View)
  | element (tag : String) (attributes : Attributes) (children : List View)
  | conditional (condition : Expr) (negated : Bool) (body : List View) (otherwise : Option View)
  /-- Hands its branch to the conditional around as the alternative. -/
  | alternative (branch : View)
  | loop (source : DataRef) (body : (element position : DataRef) → View)
  | switch (id : String) (attributes : Attributes) (children : List View)
  | route (path title : String) (children : List View)
  /-- A route whose page needs a resource. -/
  | dataRoute (path title resource : String) (body : DataRef → View)
  | link (target : String) (locale : Option String) (attributes : Attributes)
      (children : List View)
  | redirect (target : String)
  | shell (morph : Bool) (head children : List View)
  | head (children : List View)
  /-- A meta tag for the head of the shell around. -/
  | metaTag (attributes : Attributes)
  | stylesheet (name contents : String) (inlined : Bool)
  | script (source : ScriptSource)
  | remote (region : Region) (template : DataRef → View) (fallback : View)
  | form (action : Action) (refresh : Refresh) (attributes : Attributes) (children : List View)
  | submit (action : Action) (attributes : Attributes) (children : List View)
  /-- A button in a form of its own, behind the hidden inputs of the form. -/
  | quickButton (action : Action) (refresh : Refresh) (formAttributes : Attributes)
      (hidden : List View) (attributes : Attributes) (children : List View)
  | component (name : String) (program : Program)

inductive Program where
  | done (output : View)
  | fail (fault : Fault)
  | readScope (next : Scope → Program)
  | ask (request : Request) (next : request.Reply → Program)
  /-- Renders a view in a changed scope and goes on with its text. A fault of the view is
  handed on. -/
  | render (steps : List Scope.Step) (view : View) (next : String → Program)

end

/-- The constructs of the library that are computed when a view is rendered. -/
inductive Construct where
  | conditional
  | alternative
  | loop
  | switch
  | route
  | link
  | redirect
  | shell
  | head
  | metaTag
  | stylesheet
  | script
  | fragment
  | list
  | form
  | submit
  | quickButton
deriving DecidableEq, Repr

/-- The name under which faults and listings report a construct. -/
def Construct.label : Construct → String
  | .conditional => "If"
  | .alternative => "Else"
  | .loop => "ForEach"
  | .switch => "Switch"
  | .route => "Route"
  | .link => "Link"
  | .redirect => "Redirect"
  | .shell => "Html"
  | .head => "Head"
  | .metaTag => "Meta"
  | .stylesheet => "Stylesheet"
  | .script => "Script"
  | .fragment => "DynamicFragment"
  | .list => "DynamicList"
  | .form => "Form"
  | .submit => "Submit"
  | .quickButton => "QuickButton"

/-- The construct that a region is an instance of. -/
def Region.construct (region : Region) : Construct :=
  match region.kind with
  | .single => .fragment
  | .list => .list

namespace View

/-- The name of the construct or component that a view is, if it is one. -/
def label? : View → Option String
  | .blank | .text _ | .raw _ | .group _ | .element .. => none
  | .conditional .. => some Construct.conditional.label
  | .alternative _ => some Construct.alternative.label
  | .loop .. => some Construct.loop.label
  | .switch .. => some Construct.switch.label
  | .route .. | .dataRoute .. => some Construct.route.label
  | .link .. => some Construct.link.label
  | .redirect _ => some Construct.redirect.label
  | .shell .. => some Construct.shell.label
  | .head _ => some Construct.head.label
  | .metaTag _ => some Construct.metaTag.label
  | .stylesheet .. => some Construct.stylesheet.label
  | .script _ => some Construct.script.label
  | .remote region .. => some region.construct.label
  | .form .. => some Construct.form.label
  | .submit .. => some Construct.submit.label
  | .quickButton .. => some Construct.quickButton.label
  | .component name _ => some name

mutual

/-- Whether a view describes nothing: it is blank, or groups such views. -/
def isBlank : View → Bool
  | .blank => true
  | .group children => allBlank children
  | _ => false

def allBlank : List View → Bool
  | [] => true
  | first :: rest => first.isBlank && allBlank rest

end

/-- The action that writes a reference, as a view. -/
def ofRef (source : DataRef) : View :=
  .raw source.interpolation

end View

end Sitewright
