import Sitewright.Proofs.Render.Handover
import Sitewright.Proofs.View.Context

/-!
Contract: a marker in the body of a conditional is an alternative given inline.

All that passes from the body to its conditional beside the text and the ledger is the
alternative that waits. A view without markers leaves it alone, whatever it is; a marker sets it
and writes nothing. So a body with one marker does what it does without the marker, and the
branch waits in the end.

Owns:
- `Render.Follows`, for two renders that differ in what waits, and its rule for each construct;
- `View.follows_self`: a view without markers is rendered alike, whatever waits;
- the conditional whose alternative is left by a marker.

Does not own: holes in conditionals and in templates of regions, which no branch leaves.
-/

namespace Sitewright

open Markup Template Catalog Routing

/-! ## Two renders side by side -/

/-- Two ends that differ in what waits: an alternative after the first, nothing after the second.
After a fault nothing is said about that. -/
inductive Render.Alike {α : Type} (waiting : Option Branch) :
    Except Fault α × State → Except Fault α × State → Prop where
  | ended (value : α) (ledger : Ledger) :
      Alike waiting (.ok value, ⟨ledger, waiting⟩) (.ok value, ⟨ledger, none⟩)
  | failed {left right : State} (fault : Fault) (same : left.ledger = right.ledger) :
      Alike waiting (.error fault, left) (.error fault, right)

/-- The first render does what the second one does while nothing waits. Beside that, it starts
when `before` waits and ends when `after` does. -/
def Render.Follows {α : Type} (first second : Render α) (setting : Setting)
    (before after : Option Branch) : Prop :=
  ∀ ledger, Alike after (first setting ⟨ledger, before⟩) (second setting ⟨ledger, none⟩)

namespace Render.Follows

variable {α β : Type} {setting : Setting} {before middle after waiting : Option Branch}

theorem value (result : α) :
    (pure result : Render α).Follows (pure result) setting waiting waiting :=
  fun ledger => .ended result ledger

theorem fault (fault : Fault) : (fail fault : Render α).Follows (fail fault) setting before after :=
  fun _ => .failed fault rfl

theorem misuse (construct : Construct) (reason : String) :
    (Render.misuse construct reason : Render α).Follows (Render.misuse construct reason) setting
      before after :=
  .fault _

/-- Both end with one value and one ledger, or both fail with one fault. -/
theorem outcome {first second : Render α} (follows : first.Follows second setting before after)
    (ledger : Ledger) :
    (∃ value final, first setting ⟨ledger, before⟩ = (.ok value, ⟨final, after⟩) ∧
        second setting ⟨ledger, none⟩ = (.ok value, ⟨final, none⟩)) ∨
      ∃ fault left right, first setting ⟨ledger, before⟩ = (.error fault, left) ∧
        second setting ⟨ledger, none⟩ = (.error fault, right) ∧ left.ledger = right.ledger := by
  have alike := follows ledger
  generalize first setting ⟨ledger, before⟩ = firstEnd at alike ⊢
  generalize second setting ⟨ledger, none⟩ = secondEnd at alike ⊢
  cases alike with
  | ended value final => exact .inl ⟨value, final, rfl, rfl⟩
  | failed fault same => exact .inr ⟨fault, _, _, rfl, rfl, same⟩

theorem bind {first second : Render α} {next other : α → Render β}
    (early : first.Follows second setting before middle)
    (late : ∀ value, (next value).Follows (other value) setting middle after) :
    (first >>= next).Follows (second >>= other) setting before after := by
  intro ledger
  rcases early.outcome ledger with
    ⟨value, final, left, right⟩ | ⟨fault, leftEnd, rightEnd, left, right, same⟩
  · rw [bind_of_ok left, bind_of_ok right]
    exact late value final
  · rw [bind_of_error left, bind_of_error right]
    exact .failed fault same

/-- What comes after both only makes a value. -/
theorem map {first second : Render α} (result : α → β)
    (follows : first.Follows second setting before after) :
    (first >>= fun value => pure (result value)).Follows
      (second >>= fun value => pure (result value)) setting before after :=
  follows.bind fun value => .value (result value)

theorem inScope (change : Scope → Scope) {first second : Render α}
    (follows : first.Follows second { setting with scope := change setting.scope } before after) :
    (Render.inScope change first).Follows (Render.inScope change second) setting before after :=
  follows

/-- Reading the setting leaves alone what waits. -/
theorem reading {next other : Setting → Render α}
    (follows : (next setting).Follows (other setting) setting before after) :
    (Render.setting >>= next).Follows (Render.setting >>= other) setting before after :=
  follows

theorem within (component : String) {first second : Render α}
    (follows : first.Follows second setting before after) :
    (Render.within component first).Follows (Render.within component second) setting before
      after := by
  intro ledger
  unfold Render.within
  rcases follows.outcome ledger with
    ⟨value, final, left, right⟩ | ⟨fault, leftEnd, rightEnd, left, right, same⟩
  · rw [left, right]
    exact .ended value final
  · rw [left, right]
    exact .failed _ same

theorem element (tag : String) (attributes : Attributes) {first second : Render String}
    (follows : first.Follows second setting before after) :
    (Render.element tag attributes first).Follows (Render.element tag attributes second) setting
      before after :=
  follows.map _

theorem collectMetaTags {first second : Render α}
    (follows : first.Follows second { setting with scope := setting.scope.inShell } before after) :
    (Render.collectMetaTags first).Follows (Render.collectMetaTags second) setting before
      after := by
  intro ledger
  unfold Render.collectMetaTags Render.inScope
  rcases follows.outcome { ledger with metaTags := [] } with
    ⟨value, final, left, right⟩ | ⟨fault, leftEnd, rightEnd, left, right, same⟩
  · rw [left, right]
    exact .ended _ _
  · rw [left, right]
    exact .failed fault (by simp only [same])

theorem inDocument (numbering : Numbering) {first second : Render α}
    (follows : first.Follows second { setting with scope := setting.scope.detached } before
      after) :
    (Render.inDocument numbering first).Follows (Render.inDocument numbering second) setting before
      after := by
  intro ledger
  unfold Render.inDocument Render.inScope
  rcases follows.outcome { ledger with numbering } with
    ⟨value, final, left, right⟩ | ⟨fault, leftEnd, rightEnd, left, right, same⟩
  · rw [left, right]
    exact .ended _ _
  · rw [left, right]
    exact .failed fault (by simp only [same])

/-- A conditional sets aside what waits for the one around it. -/
theorem collectBranch (render : Render α) :
    (Render.collectBranch render).Follows (Render.collectBranch render) setting waiting
      waiting := by
  intro ledger
  unfold Render.collectBranch
  dsimp only
  split
  · exact .ended _ _
  · exact .failed _ rfl

theorem ofBranch (branch : Branch) :
    (Render.ofBranch branch).Follows (Render.ofBranch branch) setting waiting waiting := by
  intro ledger
  unfold Render.ofBranch
  rcases branch setting ledger with ⟨fault | text, after⟩
  · exact .failed fault rfl
  · exact .ended text after

/-! ## Requests -/

theorem reply (request : Request) :
    request.reply.Follows request.reply setting waiting waiting := by
  intro ledger
  cases request <;> exact .ended _ _

theorem addMetaTag (attributes : Attributes) :
    (Render.addMetaTag attributes).Follows (Render.addMetaTag attributes) setting waiting waiting :=
  fun _ => .ended () _

theorem ofExcept (outcome : Except Fault α) :
    (Render.ofExcept outcome).Follows (Render.ofExcept outcome) setting waiting waiting := by
  cases outcome with
  | ok result => exact .value result
  | error fault => exact .fault fault

theorem storeAsset (contents name : String) (kind : AssetKind) :
    (Render.storeAsset contents name kind).Follows (Render.storeAsset contents name kind) setting
      waiting waiting :=
  .bind (.reply (.storeAsset contents name kind)) .ofExcept

/-! ## Constructs -/

variable {first second : Render String}

theorem alternativeText {chosen : Option (Render String)}
    (follows : ∀ render ∈ chosen, render.Follows render
      { setting with scope := setting.scope.outsideConditional } waiting waiting) :
    (Render.alternativeText chosen).Follows (Render.alternativeText chosen) setting waiting
      waiting := by
  cases chosen with
  | none => exact .value none
  | some render => exact .map some (.inScope Scope.outsideConditional (follows render rfl))

/-- A conditional leaves alone what waits for the one around it, whatever its body is. -/
theorem conditional (condition : Expr) (negated : Bool) (body : Render String)
    {otherwise : Option (Render String)}
    (follows : ∀ render ∈ otherwise, render.Follows render
      { setting with scope := setting.scope.outsideConditional } waiting waiting) :
    (Render.conditional condition negated body otherwise).Follows
      (Render.conditional condition negated body otherwise) setting waiting waiting := by
  unfold Render.conditional
  split
  · exact .misuse _ _
  · refine .bind (.collectBranch body) fun (text, left) => ?_
    have written : ∀ chosen : Option (Render String),
        (∀ render ∈ chosen, render.Follows render
          { setting with scope := setting.scope.outsideConditional } waiting waiting) →
        Render.Follows (do
            let alternative ← Render.alternativeText chosen
            return ifBlock (condition.header negated) negated text alternative)
          (do
            let alternative ← Render.alternativeText chosen
            return ifBlock (condition.header negated) negated text alternative)
          setting waiting waiting :=
      fun chosen chosenFollows => .map _ (.alternativeText chosenFollows)
    rcases otherwise with _ | given <;> rcases left with _ | branch
    · exact written none (by simp)
    · exact written (some (Render.ofBranch branch)) (by simpa using .ofBranch branch)
    · exact written (some given) follows
    · exact .misuse _ _

/-- Outside of conditionals a marker is refused. -/
theorem refused (branch : Render String) (outside : setting.scope.conditional = false) :
    (Render.alternative branch).Follows (Render.alternative branch) setting before after := by
  refine .reading ?_
  rw [outside]
  exact .misuse _ _

/-- In a conditional where nothing waits yet, a marker is blank beside what it leaves. -/
theorem accepted (branch : Render String) (inside : setting.scope.conditional = true) :
    (construct .alternative (Render.alternative branch)).Follows nothing setting none
      (some branch.toBranch) := by
  intro ledger
  have left : Render.alternative branch setting ⟨ledger, none⟩ =
      (.ok "", ⟨ledger, some branch.toBranch⟩) := by
    unfold Render.alternative
    rw [setting_bind]
    simp [inside, leaveBranch, Bind.bind, nothing, pure]
  unfold construct Render.within
  rw [left]
  exact .ended "" ledger

theorem loop (source : DataRef) {body other : (element position : DataRef) → Render String}
    (follows : ∀ element position,
      (body element position).Follows (other element position) setting before after) :
    (Render.loop source body).Follows (Render.loop source other) setting before after :=
  .bind (.reply .loopNames) fun _ => (follows _ _).map _

theorem switch (id : String) (attributes : Attributes)
    (follows : first.Follows second { setting with scope := setting.scope.inRouter id } before
      after) :
    (Render.switch id attributes first).Follows (Render.switch id attributes second) setting before
      after :=
  .bind (.reply (.seeContainer id)) fun _ =>
    (follows.element "div" (switchAttributes id attributes)).inScope fun scope => scope.inRouter id

/-- A route that is passed over leaves alone what waits. -/
theorem route (path title : String)
    (entered : setting.scope.selects path = true →
      first.Follows second { setting with scope := setting.scope.enter path } before after)
    (passed : setting.scope.selects path = false → before = after) :
    (Render.route path title first).Follows (Render.route path title second) setting before
      after := by
  refine .reading ?_
  split
  · exact .misuse _ _
  · refine .bind (.reply (.addRoute _ title _)) fun _ => ?_
    cases selects : setting.scope.selects path with
    | true => exact (entered selects).inScope fun scope => scope.enter path
    | false =>
        rw [passed selects]
        exact .value ""

theorem withResource (resource : String) {content other : DataRef → Render String}
    (follows : ∀ source, (content source).Follows (other source) setting before after) :
    (Render.withResource resource content).Follows (Render.withResource resource other) setting
      before after :=
  .bind (.reply (.resource resource)) fun _ => follows _

theorem link (target : String) (locale : Option String) (attributes : Attributes)
    (follows : first.Follows second setting before after) :
    (Render.link target locale attributes first).Follows
      (Render.link target locale attributes second) setting before after :=
  .reading (.bind (.reply (.containerOf _)) fun _ => follows.element "a" _)

theorem redirect (target : String) :
    (Render.redirect target).Follows (Render.redirect target) setting waiting waiting :=
  .bind (.reply (.note _ _)) fun _ => .bind (.reply (.note _ _)) fun _ => .value ""

theorem head (follows : first.Follows second setting before after) :
    (Render.head first).Follows (Render.head second) setting before after :=
  (follows.map _).element "head" []

theorem shell (morph : Bool) {top otherTop : Render String}
    (follows : first.Follows second { setting with scope := setting.scope.inShell } before middle)
    (topFollows : top.Follows otherTop setting middle after) :
    (Render.shell morph top first).Follows (Render.shell morph otherTop second) setting before
      after :=
  .bind (follows.element "body" (bodyAttributes morph)).collectMetaTags fun _ =>
    ((topFollows.map _).head.within Construct.head.label).map _

theorem metaTag (attributes : Attributes) :
    (Render.metaTag attributes).Follows (Render.metaTag attributes) setting waiting waiting := by
  refine .reading ?_
  split
  · exact .bind (.addMetaTag attributes) fun _ => .value ""
  · exact .misuse _ _

theorem stylesheet (name contents : String) (inlined : Bool) :
    (Render.stylesheet name contents inlined).Follows (Render.stylesheet name contents inlined)
      setting waiting waiting := by
  unfold Render.stylesheet
  split
  · exact .value _
  · exact .map _ (.storeAsset _ _ _)

theorem script (source : ScriptSource) :
    (Render.script source).Follows (Render.script source) setting waiting waiting := by
  unfold Render.script
  split
  · split
    · exact .value _
    · exact .map _ (.storeAsset _ _ _)
  · refine .bind (.reply (.lookupAsset source.name)) fun found => ?_
    split
    · exact .value _
    · refine .reading ?_
      split
      · exact .fault _
      · exact .value ""

theorem requireNoForm (construct : Construct) :
    (Render.requireNoForm construct).Follows (Render.requireNoForm construct) setting waiting
      waiting := by
  refine .reading ?_
  split
  · exact .misuse _ _
  · exact .value ()

theorem form (action : Action) (refresh : Refresh) (attributes : Attributes)
    (follows : ∀ form, first.Follows second { setting with scope := setting.scope.inForm form }
      before after) :
    (Render.form action refresh attributes first).Follows
      (Render.form action refresh attributes second) setting before after :=
  .bind (.requireNoForm .form) fun _ => .bind (.reply .formId) fun id =>
    ((follows (openForm action refresh id)).element "form" _).inScope fun scope =>
      scope.inForm (openForm action refresh id)

theorem submit (action : Action) (attributes : Attributes)
    (follows : first.Follows second setting before after) :
    (Render.submit action attributes first).Follows (Render.submit action attributes second)
      setting before after := by
  refine .reading ?_
  split
  · exact .misuse _ _
  · split
    · exact follows.element "button" _
    · exact .misuse _ _

theorem quickButton (action : Action) (refresh : Refresh) (formAttributes : Attributes)
    {hidden otherHidden : Render String} (attributes : Attributes)
    (hiddenFollows : hidden.Follows otherHidden setting before middle)
    (follows : first.Follows second setting middle after) :
    (Render.quickButton action refresh formAttributes hidden attributes first).Follows
      (Render.quickButton action refresh formAttributes otherHidden attributes second) setting
      before after :=
  .bind (.requireNoForm .quickButton) fun _ => .bind (.reply .formId) fun _ =>
    .reading (.element "form" _ (hiddenFollows.bind fun _ => (follows.element "button" _).map _))

theorem remote (region : Region) {template other : DataRef → Render String}
    (templateFollows : (template .ofFragment).Follows (other .ofFragment)
      { setting with scope := setting.scope.detached } before middle)
    (follows : first.Follows second setting middle after) :
    (Render.remote region template first).Follows (Render.remote region other second) setting
      before after := by
  have recorded : ∀ handle, (recordRegion region handle).Follows (recordRegion region handle)
      setting middle middle := by
    intro handle
    unfold recordRegion
    split
    · exact .reply (.recordIsland _)
    · exact .value ()
  exact .reading (.bind
    (.bind (.inDocument _ templateFollows) fun text => .reply (.storeTemplate _ text))
    fun handle => .bind (recorded handle) fun _ => follows.element "div" _)

end Render.Follows

/-! ## Views without markers -/

/-- No step of a component leads into a conditional. -/
theorem Scope.conditional_steps {scope : Scope} {steps : List Step}
    (outside : scope.conditional = false) : (scope.steps steps).conditional = false := by
  rw [Bool.eq_false_iff] at outside ⊢
  exact fun around => outside (conditional_of_steps around)

mutual

/-- A view leaves alone what waits if it has no marker, or if there is no conditional around
that a marker could reach. -/
theorem View.follows_self : ∀ (view : View) {setting : Setting} {waiting : Option Branch},
    view.Markless ∨ setting.scope.conditional = false →
      view.render.Follows view.render setting waiting waiting
  | .blank, _, _, _ => .value ""
  | .text _, _, _, _ | .raw _, _, _, _ => .value _
  | .redirect target, _, _, _ => .within Construct.redirect.label (.redirect target)
  | .metaTag attributes, _, _, _ => .within _ (.metaTag attributes)
  | .stylesheet name contents inlined, _, _, _ => .within _ (.stylesheet name contents inlined)
  | .script source, _, _, _ => .within _ (.script source)
  | .group children, _, _, calm => View.all_follow_self children calm
  | .element tag attributes children, _, _, calm =>
      .element tag attributes (View.all_follow_self children calm)
  | .conditional condition negated _ none, _, _, _ =>
      .within _ (.conditional condition negated _ (by simp))
  | .conditional condition negated _ (some otherwise), _, _, _ =>
      .within _ (.conditional condition negated _
        (by simpa using View.follows_self otherwise (.inr rfl)))
  | .alternative branch, _, _, calm =>
      .within _ (.refused branch.render (calm.resolve_left fun none => none))
  | .loop source body, _, _, calm => .within _ (.loop source fun element position =>
      View.follows_self (body element position) (calm.imp_left fun none => none element position))
  | .switch id attributes children, _, _, calm =>
      .within _ (.switch id attributes (View.all_follow_self children calm))
  | .route path title children, _, _, calm =>
      .within _ (.route path title (fun _ => View.all_follow_self children calm) fun _ => rfl)
  | .dataRoute path title resource body, _, _, calm =>
      .within _ (.route path title
        (fun _ => .withResource resource fun source =>
          View.follows_self (body source) (calm.imp_left fun none => none source))
        fun _ => rfl)
  | .link target locale attributes children, _, _, calm =>
      .within _ (.link target locale attributes (View.all_follow_self children calm))
  | .shell morph head children, _, _, calm =>
      .within _ (.shell morph (View.all_follow_self children (calm.imp_left And.right))
        (View.all_follow_self head (calm.imp_left And.left)))
  | .head children, _, _, calm => .within _ (.head (View.all_follow_self children calm))
  | .remote region template fallback, _, _, calm =>
      .within _ (.remote region (View.follows_self (template .ofFragment) (.inr rfl))
        (View.follows_self fallback calm))
  | .form action refresh attributes children, _, _, calm =>
      .within _ (.form action refresh attributes fun _ => View.all_follow_self children calm)
  | .submit action attributes children, _, _, calm =>
      .within _ (.submit action attributes (View.all_follow_self children calm))
  | .quickButton action refresh formAttributes hidden attributes children, _, _, calm =>
      .within _ (.quickButton action refresh formAttributes attributes
        (View.all_follow_self hidden (calm.imp_left And.left))
        (View.all_follow_self children (calm.imp_left And.right)))
  | .component name program, _, _, calm => .within name (Program.follows_self program calm)

theorem View.all_follow_self : ∀ (views : List View) {setting : Setting}
    {waiting : Option Branch}, View.AllMarkless views ∨ setting.scope.conditional = false →
      (View.renderAll views).Follows (View.renderAll views) setting waiting waiting
  | [], _, _, _ => .value ""
  | first :: rest, _, _, calm =>
      .bind (View.follows_self first (calm.imp_left And.left)) fun _ =>
        .map _ (View.all_follow_self rest (calm.imp_left And.right))

theorem Program.follows_self : ∀ (program : Program) {setting : Setting}
    {waiting : Option Branch}, program.Markless ∨ setting.scope.conditional = false →
      program.run.Follows program.run setting waiting waiting
  | .done output, _, _, calm => View.follows_self output calm
  | .fail fault, _, _, _ => .fault fault
  | .readScope next, setting, _, calm =>
      Program.follows_self (next setting.scope) (calm.imp_left fun none => none setting.scope)
  | .ask request next, _, _, calm => .bind (.reply request) fun reply =>
      Program.follows_self (next reply) (calm.imp_left fun none => none reply)
  | .render _ view next, _, _, calm =>
      .bind
        (.inScope _ (View.follows_self view
          (calm.imp And.left fun outside => Scope.conditional_steps outside)))
        fun text => Program.follows_self (next text) (calm.imp_left fun none => none.2 text)

end

/-! ## Markers in contexts -/

/-- One of several views may leave an alternative, if the others have no markers. -/
theorem View.renderAll_follows {marked plain : View} {setting : Setting}
    {before after : Option Branch}
    (follows : marked.render.Follows plain.render setting before after) (early late : List View)
    (earlyMarkless : View.AllMarkless early) (lateMarkless : View.AllMarkless late) :
    (View.renderAll (early ++ marked :: late)).Follows (View.renderAll (early ++ plain :: late))
      setting before after := by
  induction early with
  | nil => exact .bind follows fun _ => .map _ (View.all_follow_self late (.inl lateMarkless))
  | cons first rest inductionHypothesis =>
      exact .bind (View.follows_self first (.inl earlyMarkless.1)) fun _ =>
        .map _ (inductionHypothesis earlyMarkless.2)

/-- With a marker in the hole, a context does what it does with a blank hole, and the branch of
the marker waits in the end. -/
theorem View.Context.follows {context : Context} (branch : View) {setting : Setting}
    (markless : context.Markless) (selected : context.Selected setting.scope)
    (inside : setting.scope.conditional = true) :
    (context.fill (.alternative branch)).render.Follows (context.fill .blank).render setting none
      (some branch.render.toBranch) := by
  induction context generalizing setting with
  | hole => exact .accepted branch.render inside
  | group before inner after inductionHypothesis =>
      obtain ⟨early, within, late⟩ := markless
      exact View.renderAll_follows (inductionHypothesis within selected inside) _ _ early late
  | element tag attributes before inner after inductionHypothesis =>
      obtain ⟨early, within, late⟩ := markless
      exact .element tag attributes
        (View.renderAll_follows (inductionHypothesis within selected inside) _ _ early late)
  | switch id attributes before inner after inductionHypothesis =>
      obtain ⟨early, within, late⟩ := markless
      refine .within _ (.switch id attributes (View.renderAll_follows ?_ _ _ early late))
      have chosen : inner.Selected setting.scope := selected
      exact inductionHypothesis within (chosen.of_selected rfl) inside
  | route path title before inner after inductionHypothesis =>
      obtain ⟨early, within, late⟩ := markless
      refine .within _ (.route path title (fun _ => View.renderAll_follows ?_ _ _ early late)
        fun passed => ?_)
      · exact inductionHypothesis within selected.2 inside
      · rw [selected.1] at passed
        cases passed
  | dataRoute path title resource inner inductionHypothesis =>
      refine .within _ (.route path title (fun _ => .withResource resource fun source => ?_)
        fun passed => ?_)
      · exact inductionHypothesis source (markless source) (selected.2 source) inside
      · rw [selected.1] at passed
        cases passed
  | form action refresh attributes before inner after inductionHypothesis =>
      obtain ⟨early, within, late⟩ := markless
      refine .within _ (.form action refresh attributes fun form =>
        View.renderAll_follows ?_ _ _ early late)
      have chosen : inner.Selected setting.scope := selected
      exact inductionHypothesis within (chosen.of_selected rfl) inside
  | shell morph top before inner after inductionHypothesis =>
      obtain ⟨topMarkless, early, within, late⟩ := markless
      refine .within _ (.shell morph (View.renderAll_follows ?_ _ _ early late)
        (View.all_follow_self top (.inl topMarkless)))
      have chosen : inner.Selected setting.scope := selected
      exact inductionHypothesis within (chosen.of_selected rfl) inside
  | loop source inner inductionHypothesis =>
      exact .within _ (.loop source fun element position =>
        inductionHypothesis element position (markless element position)
          (selected element position) inside)

/-- Bodies that differ in what they leave are collected to the same text in the same state. -/
theorem Render.collectBranch_of_follows {α : Type} {first second : Render α} {setting : Setting}
    {left : Option Branch}
    (follows : first.Follows second { setting with scope := setting.scope.inConditional } none left)
    (state : State) :
    (∃ value after, collectBranch first setting state = (.ok (value, left), after) ∧
        collectBranch second setting state = (.ok (value, none), after)) ∨
      ∃ fault after, collectBranch first setting state = (.error fault, after) ∧
        collectBranch second setting state = (.error fault, after) := by
  unfold collectBranch inScope
  rcases follows.outcome state.ledger with
    ⟨value, final, ended, otherEnded⟩ | ⟨fault, inner, other, ended, otherEnded, same⟩
  · left
    exact ⟨value, _, by rw [ended], by rw [otherEnded]⟩
  · right
    exact ⟨fault, _, by rw [ended], by rw [otherEnded, same]⟩

/-- Outside of conditionals a branch that waited is rendered like the view itself. -/
theorem View.ofBranch_toBranch (view : View) (setting : Setting)
    (outside : setting.scope.conditional = false) (state : State) :
    Render.ofBranch view.render.toBranch setting state = view.render setting state := by
  obtain ⟨ledger, waiting⟩ := state
  have ends : (view.render setting ⟨ledger, waiting⟩).2.branch = waiting :=
    ((Task.logged (.view view)).waits setting ⟨ledger, waiting⟩).branch_eq outside
  have same : view.render.Follows view.render setting waiting waiting :=
    View.follows_self view (.inr outside)
  unfold Render.ofBranch Render.toBranch
  dsimp only [State.ofLedger]
  rcases same.outcome ledger with
    ⟨text, final, left, right⟩ | ⟨fault, leftEnd, rightEnd, left, right, sameLedger⟩
  · rw [left, right]
  · rw [left] at ends ⊢
    rw [right, ← sameLedger, ← ends]

/-- Markers and inline alternatives. Take any context of markup, routers, selected routes,
forms, loops and bodies of shells whose only marker is the one in its hole. A conditional around
it is the conditional with a blank hole and the branch of the marker given inline: wherever it
is rendered, it ends with the same text or fault and in the same state. -/
theorem View.conditional_with_marker_eq_inline (condition : Expr) (negated : Bool)
    (context : View.Context) (branch : View) (setting : Setting) (state : State)
    (markless : context.Markless) (selected : context.Selected setting.scope) :
    (View.conditional condition negated [context.fill (.alternative branch)] none).render setting
        state =
      (View.conditional condition negated [context.fill .blank] (some branch)).render setting
        state := by
  have same : Render.conditional condition negated
        (View.renderAll [context.fill (.alternative branch)]) none setting state =
      Render.conditional condition negated (View.renderAll [context.fill .blank])
        (some branch.render) setting state := by
    cases writable : condition.defect? with
    | some reason =>
        rw [Render.conditional_of_defect writable, Render.conditional_of_defect writable]
    | none =>
        have chosen : context.Selected setting.scope.inConditional := selected.of_selected rfl
        have follows : (context.fill (.alternative branch)).render.Follows
            (context.fill .blank).render { setting with scope := setting.scope.inConditional } none
            (some branch.render.toBranch) := View.Context.follows branch markless chosen rfl
        have body : (View.renderAll [context.fill (.alternative branch)]).Follows
            (View.renderAll [context.fill .blank])
            { setting with scope := setting.scope.inConditional } none
            (some branch.render.toBranch) :=
          View.renderAll_follows follows [] [] trivial trivial
        rw [Render.conditional_of_writable writable, Render.conditional_of_writable writable]
        rcases Render.collectBranch_of_follows body state with
          ⟨text, after, left, right⟩ | ⟨fault, after, left, right⟩
        · rw [Render.bind_of_ok left, Render.bind_of_ok right]
          have chosen : Render.inScope Scope.outsideConditional
              (Render.ofBranch branch.render.toBranch) setting after =
                Render.inScope Scope.outsideConditional branch.render setting after :=
            branch.ofBranch_toBranch { setting with scope := _ } rfl after
          show (Render.alternativeText (some (Render.ofBranch branch.render.toBranch)) >>= _)
              setting after =
            (Render.alternativeText (some branch.render) >>= _) setting after
          simp only [Render.alternativeText, Bind.bind, chosen]
        · rw [Render.bind_of_error left, Render.bind_of_error right]
  show Render.within _ _ setting state = Render.within _ _ setting state
  unfold Render.within
  rw [same]

/-- Places an order. -/
def orderNow : Action :=
  { identity := 0, method := .post, name := "orderNow", islands := [] }

/-- A shop with a form for each offer, and a conditional of its own beside the hole. -/
def offerContext : View.Context :=
  .switch "main" [] [] (.route "shop" "Shop" [.text "Offers"] (.loop ⟨".offers"⟩ fun offer _ =>
    .form orderNow .none []
      [.conditional (.ref (offer.field "new")) false [.text "New", .alternative (.text "Old")] none]
      .hole [.submit orderNow [] [.text "Order"]]) []) []

/-- On the page of the shop, the branch in the hole is rendered in the place of the alternative. -/
theorem offerContext_marker_inline :
    ∃ (setting : Setting) (state : State) (text : String),
      offerContext.Markless ∧ offerContext.Selected setting.scope ∧
      ((View.conditional (.ref ⟨".open"⟩) false [offerContext.fill (.alternative (.text "Closed"))]
        none).render setting state).1 = .ok text ∧
      (View.conditional (.ref ⟨".open"⟩) false [offerContext.fill .blank]
          (some (.text "Closed"))).render setting state =
        (View.conditional (.ref ⟨".open"⟩) false
          [offerContext.fill (.alternative (.text "Closed"))] none).render setting state := by
  have markless : offerContext.Markless := by
    simp [offerContext, View.Context.Markless, View.AllMarkless, View.Markless]
  have selected : offerContext.Selected (.page ⟨["shop"]⟩ "Shop") := by
    refine ⟨by decide, fun _ _ => ?_⟩
    trivial
  let setting : Setting := { config := .standard, pass := .build, scope := .page ⟨["shop"]⟩ "Shop" }
  have same := View.conditional_with_marker_eq_inline (.ref ⟨".open"⟩) false offerContext
    (.text "Closed") setting (.ofLedger (.ofBuild .empty (.ofConfig .standard))) markless selected
  exact ⟨setting, _, _, markless, selected, rfl, same.symm⟩

end Sitewright
