import Sitewright.Proofs.Render.Closure

/-!
Contract: how children are divided into groups makes no difference to a render.

Children may stand beside one another or in groups, and blank views may stand among them. A group
is rendered like its children in its place, since the texts and effects of children follow one
another, and a blank view writes nothing and changes nothing. Constructs are given the renders of
their parts and never see the views.

Owns:
- `View.Regrouped`, lists of views that differ in groups and blank views only, at any depth;
- the laws of sequences, and `View.renderAll_append`;
- `View.render_of_isBlank`: blank views do nothing;
- `View.Regrouped.renderAll_eq`: such lists are rendered alike.

Does not own: surveys and builds.
-/

namespace Sitewright

open Markup Template

/-! ## The relation -/

mutual

/-- Lists of views that differ only in how children are divided into groups, and in blank views
among them. The difference may be in the lists themselves or anywhere inside of the views, also in
what loops, routes and regions make of references and in what components render and end with. -/
inductive View.Regrouped : List View → List View → Prop where
  | refl (views : List View) : View.Regrouped views views
  | symm {views others : List View} (regrouped : View.Regrouped views others) :
      View.Regrouped others views
  | trans {views others last : List View} (first : View.Regrouped views others)
      (second : View.Regrouped others last) : View.Regrouped views last
  | append {front others back rest : List View} (first : View.Regrouped front others)
      (second : View.Regrouped back rest) : View.Regrouped (front ++ back) (others ++ rest)
  /-- A group, and its children in its place. -/
  | group (children : List View) : View.Regrouped [.group children] children
  /-- A blank view may be left out. -/
  | blank {view : View} (isBlank : view.isBlank = true) : View.Regrouped [view] []
  | element (tag : String) (attributes : Attributes) {children others : List View}
      (inside : View.Regrouped children others) :
      View.Regrouped [.element tag attributes children] [.element tag attributes others]
  | conditional (condition : Expr) (negated : Bool) (otherwise : Option View)
      {body others : List View} (inside : View.Regrouped body others) :
      View.Regrouped [.conditional condition negated body otherwise]
        [.conditional condition negated others otherwise]
  | otherwise (condition : Expr) (negated : Bool) (body : List View) {branch other : View}
      (inside : View.Regrouped [branch] [other]) :
      View.Regrouped [.conditional condition negated body (some branch)]
        [.conditional condition negated body (some other)]
  | alternative {branch other : View} (inside : View.Regrouped [branch] [other]) :
      View.Regrouped [.alternative branch] [.alternative other]
  | loop (source : DataRef) {body other : (element position : DataRef) → View}
      (inside : ∀ element position,
        View.Regrouped [body element position] [other element position]) :
      View.Regrouped [.loop source body] [.loop source other]
  | switch (id : String) (attributes : Attributes) {children others : List View}
      (inside : View.Regrouped children others) :
      View.Regrouped [.switch id attributes children] [.switch id attributes others]
  | route (path title : String) {children others : List View}
      (inside : View.Regrouped children others) :
      View.Regrouped [.route path title children] [.route path title others]
  | dataRoute (path title resource : String) {body other : DataRef → View}
      (inside : ∀ source, View.Regrouped [body source] [other source]) :
      View.Regrouped [.dataRoute path title resource body] [.dataRoute path title resource other]
  | link (target : String) (locale : Option String) (attributes : Attributes)
      {children others : List View} (inside : View.Regrouped children others) :
      View.Regrouped [.link target locale attributes children]
        [.link target locale attributes others]
  | shell (morph : Bool) {head top children others : List View}
      (above : View.Regrouped head top) (inside : View.Regrouped children others) :
      View.Regrouped [.shell morph head children] [.shell morph top others]
  | head {children others : List View} (inside : View.Regrouped children others) :
      View.Regrouped [.head children] [.head others]
  | remote (region : Region) {template other : DataRef → View} {fallback rest : View}
      (apart : ∀ root, View.Regrouped [template root] [other root])
      (inside : View.Regrouped [fallback] [rest]) :
      View.Regrouped [.remote region template fallback] [.remote region other rest]
  | form (action : Action) (refresh : Refresh) (attributes : Attributes)
      {children others : List View} (inside : View.Regrouped children others) :
      View.Regrouped [.form action refresh attributes children]
        [.form action refresh attributes others]
  | submit (action : Action) (attributes : Attributes) {children others : List View}
      (inside : View.Regrouped children others) :
      View.Regrouped [.submit action attributes children] [.submit action attributes others]
  | quickButton (action : Action) (refresh : Refresh) (formAttributes attributes : Attributes)
      {hidden inputs children others : List View} (before : View.Regrouped hidden inputs)
      (inside : View.Regrouped children others) :
      View.Regrouped [.quickButton action refresh formAttributes hidden attributes children]
        [.quickButton action refresh formAttributes inputs attributes others]
  | component (name : String) {program other : Program}
      (inside : Program.Regrouped program other) :
      View.Regrouped [.component name program] [.component name other]

/-- Programs that ask the same requests and render and end with such views. -/
inductive Program.Regrouped : Program → Program → Prop where
  | refl (program : Program) : Program.Regrouped program program
  | done {output other : View} (inside : View.Regrouped [output] [other]) :
      Program.Regrouped (.done output) (.done other)
  | readScope {next other : Scope → Program}
      (inside : ∀ scope, Program.Regrouped (next scope) (other scope)) :
      Program.Regrouped (.readScope next) (.readScope other)
  | ask (request : Request) {next other : request.Reply → Program}
      (inside : ∀ reply, Program.Regrouped (next reply) (other reply)) :
      Program.Regrouped (.ask request next) (.ask request other)
  | render (steps : List Scope.Step) {view another : View} {next other : String → Program}
      (inside : View.Regrouped [view] [another])
      (after : ∀ text, Program.Regrouped (next text) (other text)) :
      Program.Regrouped (.render steps view next) (.render steps another other)

end

namespace View.Regrouped

variable {views others : List View}

theorem equivalence : Equivalence View.Regrouped :=
  ⟨.refl, .symm, .trans⟩

/-- The views around a change stay. -/
theorem within (regrouped : View.Regrouped views others) (front back : List View) :
    View.Regrouped (front ++ views ++ back) (front ++ others ++ back) :=
  .append (.append (.refl front) regrouped) (.refl back)

/-- A group among other views, and its children in its place. -/
theorem spliced (front children back : List View) :
    View.Regrouped (front ++ .group children :: back) (front ++ children ++ back) := by
  have inside := within (.group children) front back
  rwa [List.append_assoc, List.singleton_append] at inside

/-- A blank view among other views may be left out. -/
theorem omitted {view : View} (isBlank : view.isBlank = true) (front back : List View) :
    View.Regrouped (front ++ view :: back) (front ++ back) := by
  have inside := within (.blank isBlank) front back
  rwa [List.append_assoc, List.singleton_append, List.append_nil] at inside

end View.Regrouped

/-! ## Sequences -/

namespace Render

variable {α β γ : Type}

theorem bind_assoc (first : Render α) (next : α → Render β) (last : β → Render γ) :
    (first >>= next >>= last) = first >>= fun value => next value >>= last := by
  funext setting state
  rcases outcome : first setting state with ⟨fault | value, after⟩
  · rw [bind_of_error outcome, bind_of_error (bind_of_error outcome)]
  · rw [bind_of_ok outcome]
    simp only [bind, outcome]

/-- A value that is only handed on may as well be the last one. -/
theorem bind_value (render : Render α) : (render >>= fun value => pure value) = render := by
  funext setting state
  rcases outcome : render setting state with ⟨fault | value, after⟩
  · exact bind_of_error outcome
  · exact bind_of_ok outcome

end Render

namespace View

theorem renderAll_singleton (view : View) : renderAll [view] = view.render := by
  show (view.render >>= fun text => pure (text ++ "")) = view.render
  simp only [String.append_empty]
  exact Render.bind_value view.render

/-- The texts of several views stand behind those of the views before them. -/
theorem renderAll_append (front back : List View) :
    renderAll (front ++ back) = (do
      let text ← renderAll front
      let others ← renderAll back
      return text ++ others) := by
  induction front with
  | nil =>
      show renderAll back = renderAll back >>= fun others => pure ("" ++ others)
      simp only [String.empty_append]
      exact (Render.bind_value _).symm
  | cons first rest inductionHypothesis =>
      rw [List.cons_append, renderAll, inductionHypothesis, renderAll]
      simp only [Render.bind_assoc, Render.value_bind, String.append_assoc]

/-! ## Blank views -/

mutual

/-- Blank views are rendered to the empty text and change nothing. -/
theorem render_of_isBlank : ∀ {view : View}, view.isBlank = true → view.render = Render.nothing
  | .blank, _ => by rw [render]
  | .group children, empty => by
      rw [render]
      exact renderAll_of_allBlank empty

theorem renderAll_of_allBlank : ∀ {views : List View}, allBlank views = true →
    renderAll views = Render.nothing
  | [], _ => by rw [renderAll]
  | first :: rest, empty => by
      obtain ⟨firstBlank, restBlank⟩ := Bool.and_eq_true_iff.mp empty
      rw [renderAll, render_of_isBlank firstBlank, renderAll_of_allBlank restBlank]
      rfl

end

theorem allBlank_append (front back : List View) :
    allBlank (front ++ back) = (allBlank front && allBlank back) := by
  induction front with
  | nil => rfl
  | cons first rest inductionHypothesis =>
      rw [List.cons_append, allBlank, inductionHypothesis, allBlank, Bool.and_assoc]

end View

/-! ## Rendered alike -/

/-- Views that are rendered alike as the only ones are rendered alike. -/
theorem View.render_congr {view other : View}
    (same : View.renderAll [view] = View.renderAll [other]) : view.render = other.render := by
  rwa [View.renderAll_singleton, View.renderAll_singleton] at same

theorem View.renderAll_singleton_congr {view other : View} (same : view.render = other.render) :
    View.renderAll [view] = View.renderAll [other] := by
  rw [View.renderAll_singleton, View.renderAll_singleton, same]

mutual

/-- Lists that differ in groups and blank views only are rendered alike. By induction on the
difference: constructs are given equal renders of their parts. -/
theorem View.Regrouped.renderAll_eq : ∀ {views others : List View},
    View.Regrouped views others → View.renderAll views = View.renderAll others
  | _, _, .refl _ => rfl
  | _, _, .symm regrouped => regrouped.renderAll_eq.symm
  | _, _, .trans first second => first.renderAll_eq.trans second.renderAll_eq
  | _, _, .append first second => by
      rw [View.renderAll_append, View.renderAll_append, first.renderAll_eq, second.renderAll_eq]
  | _, _, .group children => by
      rw [View.renderAll_singleton, View.render]
  | _, _, .blank isBlank => by
      rw [View.renderAll_singleton, View.render_of_isBlank isBlank, View.renderAll]
  | _, _, .element _ _ inside | _, _, .switch _ _ inside | _, _, .route _ _ inside
  | _, _, .link _ _ _ inside | _, _, .head inside | _, _, .form _ _ _ inside
  | _, _, .submit _ _ inside => by
      apply View.renderAll_singleton_congr
      rw [View.render, View.render, inside.renderAll_eq]
  | _, _, .conditional _ _ otherwise inside => by
      apply View.renderAll_singleton_congr
      cases otherwise <;> rw [View.render, View.render, inside.renderAll_eq]
  | _, _, .otherwise _ _ _ inside | _, _, .alternative inside => by
      apply View.renderAll_singleton_congr
      rw [View.render, View.render, View.render_congr inside.renderAll_eq]
  | _, _, .loop _ inside => by
      apply View.renderAll_singleton_congr
      simp only [View.render, fun element position =>
        View.render_congr (inside element position).renderAll_eq]
  | _, _, .dataRoute _ _ _ inside => by
      apply View.renderAll_singleton_congr
      simp only [View.render, fun source => View.render_congr (inside source).renderAll_eq]
  | _, _, .shell _ above inside => by
      apply View.renderAll_singleton_congr
      rw [View.render, View.render, above.renderAll_eq, inside.renderAll_eq]
  | _, _, .remote _ apart inside => by
      apply View.renderAll_singleton_congr
      simp only [View.render, View.render_congr inside.renderAll_eq,
        fun root => View.render_congr (apart root).renderAll_eq]
  | _, _, .quickButton _ _ _ _ before inside => by
      apply View.renderAll_singleton_congr
      rw [View.render, View.render, before.renderAll_eq, inside.renderAll_eq]
  | _, _, .component _ inside => by
      apply View.renderAll_singleton_congr
      rw [View.render, View.render, inside.run_eq]

theorem Program.Regrouped.run_eq : ∀ {program other : Program},
    Program.Regrouped program other → program.run = other.run
  | _, _, .refl _ => rfl
  | _, _, .done inside => by
      rw [Program.run, Program.run, View.render_congr inside.renderAll_eq]
  | _, _, .readScope inside => by
      rw [Program.run, Program.run]
      funext setting
      rw [(inside setting.scope).run_eq]
  | _, _, .ask request inside => by
      simp only [Program.run, fun reply => (inside reply).run_eq]
  | _, _, .render steps inside after => by
      simp only [Program.run, View.render_congr inside.renderAll_eq,
        fun text => (after text).run_eq]

end

/-- Whether all views are blank does not depend on groups and blank views among them. -/
theorem View.Regrouped.allBlank_eq : ∀ {views others : List View},
    View.Regrouped views others → View.allBlank views = View.allBlank others
  | _, _, .refl _ => rfl
  | _, _, .symm regrouped => regrouped.allBlank_eq.symm
  | _, _, .trans first second => first.allBlank_eq.trans second.allBlank_eq
  | _, _, .append first second => by
      rw [View.allBlank_append, View.allBlank_append, first.allBlank_eq, second.allBlank_eq]
  | _, _, .group children => Bool.and_true (View.allBlank children)
  | _, _, .blank isBlank => (Bool.and_true _).trans isBlank
  | _, _, .element .. | _, _, .conditional .. | _, _, .otherwise .. | _, _, .alternative _
  | _, _, .loop .. | _, _, .switch .. | _, _, .route .. | _, _, .dataRoute .. | _, _, .link ..
  | _, _, .shell .. | _, _, .head _ | _, _, .remote .. | _, _, .form .. | _, _, .submit ..
  | _, _, .quickButton .. | _, _, .component .. => rfl

theorem View.Regrouped.isBlank_eq {view other : View}
    (regrouped : View.Regrouped [view] [other]) : view.isBlank = other.isBlank := by
  have same : (view.isBlank && true) = (other.isBlank && true) := regrouped.allBlank_eq
  rwa [Bool.and_true, Bool.and_true] at same

end Sitewright
