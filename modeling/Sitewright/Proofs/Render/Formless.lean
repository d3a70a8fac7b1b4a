import Sitewright.Proofs.Render.Indifference

/-!
Contract: views without forms do not notice the form around.

Only forms, their submit buttons and buttons with a form of their own look at the form around. What
contains none of them is rendered in the same way inside and outside of a form. Components are given
scopes as they are, but the form around is none of their business: a component that is free of forms
goes on in the same way whatever form there is.

Owns:
- `Setting.withoutForm`, the setting outside of the form around;
- `View.Formless`, the views without forms and buttons of forms;
- the induction over these views, and `View.allIgnoreForm`;
- `Render.Ignores.inForm`, a render that ignores the form around, inside of one.

Does not own: forms.
-/

namespace Sitewright

/-- The setting without the form around. -/
def Setting.withoutForm (setting : Setting) : Setting :=
  { setting with scope := setting.scope.withoutForm }

theorem Setting.slight_withoutForm : Setting.Slight Setting.withoutForm where
  reply := by
    intro request _ setting state
    cases request with
    | _ => rfl
  header := fun _ => rfl
  scope := fun _ => rfl
  moved := by
    intro move blind setting
    have same : (move setting.scope.withoutForm).withoutForm =
        (move setting.scope).withoutForm := blind setting.scope
    exact congrArg (fun scope => { setting with scope }) same

/-- Components may ask for the configuration as well, which has nothing to do with forms. -/
theorem Request.ignoresForm (request : Request) : request.reply.Ignores Setting.withoutForm := by
  by_cases other : request = .config
  · subst other
    exact .of_branch_eq (fun _ _ => rfl) fun _ _ => rfl
  · exact Setting.slight_withoutForm.ignores_reply other

/-- A render that ignores the form around goes the same way inside of a form. -/
theorem Render.Ignores.inForm {α : Type} {render : Render α}
    (ignores : render.Ignores Setting.withoutForm) (form : OpenForm) :
    Render.inScope (fun scope => scope.inForm form) render = render := by
  funext setting state
  exact (ignores.same { setting with scope := setting.scope.inForm form } state).symm.trans
    (ignores.same setting state)

/-! ## Views -/

mutual

/-- Nothing in the view is a form, a submit button or a button with a form of its own, and no
component in it looks at the form around. -/
def View.Formless : View → Prop
  | .blank | .text _ | .raw _ | .redirect _ | .metaTag _ | .stylesheet .. | .script _ => True
  | .group children | .element _ _ children | .switch _ _ children | .route _ _ children
  | .link _ _ _ children | .head children => View.AllFormless children
  | .conditional _ _ body none => View.AllFormless body
  | .conditional _ _ body (some otherwise) => View.AllFormless body ∧ otherwise.Formless
  | .alternative branch => branch.Formless
  | .loop _ body => ∀ element position, (body element position).Formless
  | .dataRoute _ _ _ body => ∀ source, (body source).Formless
  | .shell _ head children => View.AllFormless head ∧ View.AllFormless children
  | .remote _ template fallback => (∀ root, (template root).Formless) ∧ fallback.Formless
  | .form .. | .submit .. | .quickButton .. => False
  | .component _ program => program.Formless

def View.AllFormless : List View → Prop
  | [] => True
  | first :: rest => first.Formless ∧ View.AllFormless rest

def Program.Formless : Program → Prop
  | .done output => output.Formless
  | .fail _ => True
  | .readScope next =>
      (∀ scope : Scope, next scope.withoutForm = next scope) ∧ ∀ scope, (next scope).Formless
  | .ask _ next => ∀ reply, (next reply).Formless
  | .render _ view next => view.Formless ∧ ∀ text, (next text).Formless

end

/-- A property that is kept by all that has nothing to do with forms, whatever components ask. -/
structure Render.KeptBesideForms (Known : Routing.Path → Prop)
    (Good : {α : Type} → Render α → Prop) : Prop extends Render.Kept Known @Good where
  anyReply : ∀ request : Request, Good request.reply

section Induction

variable {Known : Routing.Path → Prop} {Good : {α : Type} → Render α → Prop}
  (kept : Render.KeptBesideForms Known @Good)

include kept

mutual

/-- What is kept beside forms holds of every view without forms. -/
theorem View.render_kept : ∀ view : View, view.Formless → Good view.render
  | .blank, _ => kept.value _
  | .text _, _ => kept.value _
  | .raw _, _ => kept.value _
  | .group children, formless => View.renderAll_kept children formless
  | .element _ _ children, formless => kept.element _ _ (View.renderAll_kept children formless)
  | .conditional _ _ body none, formless =>
      kept.construct _ (kept.conditional _ _ (View.renderAll_kept body formless) (by simp))
  | .conditional _ _ body (some otherwise), formless =>
      kept.construct _ (kept.conditional _ _ (View.renderAll_kept body formless.1)
        (by simpa using View.render_kept otherwise formless.2))
  | .alternative branch, formless =>
      kept.construct _ (kept.alternative (View.render_kept branch formless))
  | .loop _ body, formless =>
      kept.construct _ (kept.loop _ fun element position =>
        View.render_kept (body element position) (formless element position))
  | .switch _ _ children, formless =>
      kept.construct _ (kept.switch _ _ (View.renderAll_kept children formless))
  | .route _ _ children, formless =>
      kept.construct _ (kept.route _ _ (View.renderAll_kept children formless))
  | .dataRoute _ _ _ body, formless =>
      kept.construct _ (kept.route _ _ (kept.withResource _ fun source =>
        View.render_kept (body source) (formless source)))
  | .link _ _ _ children, formless =>
      kept.construct _ (kept.link _ _ _ (View.renderAll_kept children formless))
  | .redirect _, _ => kept.construct _ (kept.redirect _)
  | .shell _ head children, formless =>
      kept.construct _ (kept.shell _ (View.renderAll_kept head formless.1)
        (View.renderAll_kept children formless.2))
  | .head children, formless => kept.construct _ (kept.head (View.renderAll_kept children formless))
  | .metaTag _, _ => kept.construct _ (kept.metaTag _)
  | .stylesheet .., _ => kept.construct _ (kept.stylesheet _ _ _)
  | .script _, _ => kept.construct _ (kept.script _)
  | .remote region template fallback, formless =>
      kept.construct _ (kept.remote region
        (fun root => View.render_kept (template root) (formless.1 root))
        (View.render_kept fallback formless.2))
  | .form .., formless => nomatch formless
  | .submit .., formless => nomatch formless
  | .quickButton .., formless => nomatch formless
  | .component _ program, formless => kept.within _ (Program.run_kept program formless)

theorem View.renderAll_kept : ∀ views : List View, View.AllFormless views →
    Good (View.renderAll views)
  | [], _ => kept.value _
  | first :: rest, formless =>
      kept.sequence (View.render_kept first formless.1) fun _ =>
        kept.sequence (View.renderAll_kept rest formless.2) fun _ => kept.value _

theorem Program.run_kept : ∀ program : Program, program.Formless → Good program.run
  | .done output, formless => View.render_kept output formless
  | .fail _, _ => kept.fault _
  | .readScope next, formless =>
      kept.glancing (fun scope _ => (next scope).run)
        (fun scope _ => congrArg Program.run (formless.1 scope))
        fun scope _ _ => Program.run_kept (next scope) (formless.2 scope)
  | .ask request next, formless =>
      kept.sequence (kept.anyReply request) fun reply =>
        Program.run_kept (next reply) (formless reply)
  | .render steps view next, formless =>
      kept.sequence (kept.inSteps steps (View.render_kept view formless.1)) fun text =>
        Program.run_kept (next text) (formless.2 text)

end

end Induction

theorem Render.ignoresForm_kept :
    Render.KeptBesideForms (fun _ => True) (@Render.Ignores Setting.withoutForm) where
  toKept := Setting.slight_withoutForm.kept
  anyReply := Request.ignoresForm

/-- Views without forms are rendered in the same way whatever form is around. -/
theorem View.allIgnoreForm {views : List View} (formless : View.AllFormless views) :
    (View.renderAll views).Ignores Setting.withoutForm :=
  View.renderAll_kept Render.ignoresForm_kept views formless

end Sitewright
