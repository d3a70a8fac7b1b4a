import Sitewright.Render.Control
import Sitewright.Render.Forms
import Sitewright.Render.Remote
import Sitewright.Render.Routes
import Sitewright.Render.Shell

/-!
Contract: the text of views.

Every construct is rendered by the operation of its name, given the renders of
its parts; here is only the recursion through the tree. Children are rendered
from left to right, and their texts follow one another.
-/

namespace Sitewright

open Markup Render

mutual

def View.render : View → Render String
  | .blank => nothing
  | .text content => pure (escapeText content)
  | .raw content => pure content
  | .group children => View.renderAll children
  | .element tag attributes children => Render.element tag attributes (View.renderAll children)
  | .conditional condition negated body none =>
      construct .conditional
        (Render.conditional condition negated (View.renderAll body) none)
  | .conditional condition negated body (some otherwise) =>
      construct .conditional
        (Render.conditional condition negated (View.renderAll body) (some otherwise.render))
  | .alternative branch => construct .alternative (Render.alternative branch.render)
  | .loop source body =>
      construct .loop (Render.loop source fun element position => (body element position).render)
  | .switch id attributes children =>
      construct .switch (Render.switch id attributes (View.renderAll children))
  | .route path title children =>
      construct .route (Render.route path title (View.renderAll children))
  | .dataRoute path title resource body =>
      construct .route
        (Render.route path title (withResource resource fun source => (body source).render))
  | .link target locale attributes children =>
      construct .link (Render.link target locale attributes (View.renderAll children))
  | .redirect target => construct .redirect (Render.redirect target)
  | .shell morph head children =>
      construct .shell (Render.shell morph (View.renderAll head) (View.renderAll children))
  | .head children => construct .head (Render.head (View.renderAll children))
  | .metaTag attributes => construct .metaTag (Render.metaTag attributes)
  | .stylesheet name contents inlined =>
      construct .stylesheet (Render.stylesheet name contents inlined)
  | .script source => construct .script (Render.script source)
  | .remote region template fallback =>
      construct region.construct
        (Render.remote region (fun root => (template root).render) fallback.render)
  | .form action refresh attributes children =>
      construct .form (Render.form action refresh attributes (View.renderAll children))
  | .submit action attributes children =>
      construct .submit (Render.submit action attributes (View.renderAll children))
  | .quickButton action refresh formAttributes hidden attributes children =>
      construct .quickButton
        (Render.quickButton action refresh formAttributes (View.renderAll hidden) attributes
          (View.renderAll children))
  | .component name program => within name program.run

def View.renderAll : List View → Render String
  | [] => nothing
  | first :: rest => do
      let text ← first.render
      let others ← View.renderAll rest
      return text ++ others

/-- The text of the view that a program ends with. -/
def Program.run : Program → Render String
  | .done output => output.render
  | .fail fault => Render.fail fault
  | .readScope next => fun setting state => (next setting.scope).run setting state
  | .ask request next => do
      let reply ← request.reply
      (next reply).run
  | .render steps view next => do
      let text ← inScope (fun scope => scope.steps steps) view.render
      (next text).run

end

end Sitewright
