import Sitewright.Render.Reply

/-!
Contract: the document around a page, its head, and the tags of its head.

The body is rendered before the head, because its meta tags belong to the head.
-/

namespace Sitewright.Render

open Markup

/-- The script that every head loads first. -/
def loaderAttributes : Attributes :=
  [⟨"src", .string "https://unpkg.com/htmx.org@1.9.6"⟩,
   ⟨"integrity",
    .string "sha384-FhXw7b6AlE/jyjlZH5iHa/tTe9EpJ1Y55RjcgPbjeWMskSxZt1v9qkxLJWNJaGni"⟩,
   ⟨"crossorigin", .string "anonymous"⟩]

def metaTagText (attributes : Attributes) : String :=
  elementText "meta" attributes ""

def metaTagsText (tags : List Attributes) : String :=
  String.join (tags.map metaTagText)

/-- A head that loads the script and continues with the given content. -/
def head (content : Render String) : Render String :=
  element "head" [] do
    let content ← content
    return elementText "script" loaderAttributes "" ++ content

/-- Content followed by collected meta tags. -/
def withMetaTags (tags : List Attributes) (content : Render String) : Render String := do
  let content ← content
  return content ++ metaTagsText tags

/-- The attributes of the body; one of them turns the morph extension on. -/
def bodyAttributes (morph : Bool) : Attributes :=
  [⟨"hx-ext", .string (if morph then "morph" else "")⟩]

def shell (morph : Bool) (headContent children : Render String) : Render String := do
  let (body, tags) ← collectMetaTags (element "body" (bodyAttributes morph) children)
  let head ← construct .head (head (withMetaTags tags headContent))
  return "<html>" ++ head ++ body ++ "</html>"

/-- A meta tag, moved to the head of the shell around. -/
def metaTag (attributes : Attributes) : Render String := do
  let setting ← setting
  if setting.scope.shell then
    addMetaTag attributes
    nothing
  else
    misuse .metaTag "meta tags need an enclosing Html"

/-- The text of a stylesheet, under a remark with its name. -/
def stylesheetText (name contents : String) : String :=
  "/* " ++ name ++ " */\n" ++ contents

/-- A stylesheet, written into the page or stored and linked. -/
def stylesheet (name contents : String) (inlined : Bool) : Render String := do
  let contents := stylesheetText name contents
  if inlined then
    return elementText "style" [] contents
  else
    let address ← storeAsset contents name .css
    return elementText "link"
      [⟨"rel", .string "stylesheet"⟩,
       ⟨"href", .string address⟩,
       ⟨"type", .string "text/css"⟩,
       ⟨"media", .string "screen"⟩] ""

def scriptType (asModule : Bool) : Attribute :=
  ⟨"type", .string (if asModule then "module" else "text/javascript")⟩

/-- A script that is loaded from an address. -/
def linkedScript (asModule : Bool) (address : String) : String :=
  elementText "script" [scriptType asModule, ⟨"src", .string address⟩] ""

/-- A script, written into the page, stored and linked, or linked by the name of
an asset stored elsewhere. Such a name may be unknown as long as routes are
searched. -/
def script (source : ScriptSource) : Render String := do
  match source.contents with
  | some contents =>
      if source.inlined then
        return elementText "script" [scriptType source.asModule] contents
      else
        let address ← storeAsset contents source.name .js
        return linkedScript source.asModule address
  | none =>
      let found ← lookupAsset source.name
      match found with
      | some address => return linkedScript source.asModule address
      | none =>
          let setting ← setting
          if setting.scope.building then
            fail (.asset source.name "no asset registered under this name")
          else nothing

end Sitewright.Render
