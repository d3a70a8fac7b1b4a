import Sitewright.Render.Reply

/-!
Contract: regions that the server renders on request.

The template of a region is a document of its own. It is compiled and stored, and
the page gets a placeholder that fetches it, with the fallback inside.
-/

namespace Sitewright.Render

open Markup Template Catalog

/-- A template compiled as a document of its own and stored. -/
def compileTemplate (resource : String) (template : Render String) : Render Handle := do
  let text ← inDocument (.ofTemplate resource) template
  storeTemplate resource text

/-- The record that an island's region was compiled to a fragment. -/
def islandRecord (region : Region) (handle : Handle) (id : String) : IslandRecord :=
  { id, fragment := handle.id, kind := region.kind, resource := region.resource }

/-- The record of the region's island, if it belongs to one. -/
def recordRegion (region : Region) (handle : Handle) : Render Unit :=
  match region.island with
  | some id => recordIsland (islandRecord region handle id)
  | none => pure ()

/-- The element that fetches a fragment and shows a fallback until it is there. -/
def placeholder (setting : Setting) (region : Region) (handle : Handle)
    (fallback : Render String) : Render String :=
  element "div"
    (region.loading.placeholderAttributes setting.config.fragmentHeader
      setting.scope.current.text handle.url)
    fallback

/-- A region: its template stored, its placeholder in the page. -/
def remote (region : Region) (template : DataRef → Render String) (fallback : Render String) :
    Render String := do
  let setting ← setting
  let handle ← compileTemplate region.resource (template .ofFragment)
  recordRegion region handle
  placeholder setting region handle fallback

end Sitewright.Render
