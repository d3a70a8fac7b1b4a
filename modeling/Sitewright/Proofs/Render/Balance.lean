import Sitewright.Proofs.Render.Closure
import Sitewright.Proofs.Render.Inert
import Sitewright.Proofs.Render.Tidy

/-!
Contract: tidy views are rendered to balanced texts.

A render yields a property if its value has it whenever the setting and the state are
tidy, and leaves the state tidy. An alternative that waits in the state is a render of
its own and has to write balanced text when its conditional comes to it.

Owns:
- `Yields`, with one rule for each operation and one lemma for each construct;
- the induction over tidy views.

Does not own: pages and fragments of a build.
-/

namespace Sitewright

open Text Template Markup Routing Catalog

namespace Render

/-- In tidy surroundings the render ends with a value that has the property, and
leaves a tidy state, or ends with a fault. -/
def Yields {α : Type} (property : α → Prop) (render : Render α) : Prop :=
  ∀ (setting : Setting) (state : State) (value : α) (after : State),
    setting.Tidy → state.Tidy → render setting state = (.ok value, after) →
      property value ∧ after.Tidy

namespace Yields

/-! ## Operations -/

theorem value {α : Type} {property : α → Prop} {value : α} (holds : property value) :
    Yields property (pure value) := by
  intro setting state result after _ stateTidy outcome
  obtain ⟨same, rfl⟩ := Prod.mk.inj outcome
  obtain rfl := Except.ok.inj same
  exact ⟨holds, stateTidy⟩

theorem fault {α : Type} {property : α → Prop} (fault : Fault) :
    Yields property (fail fault : Render α) := by
  intro setting state result after _ _ outcome
  cases (Prod.mk.inj outcome).1

theorem misuse {α : Type} {property : α → Prop} (construct : Construct) (reason : String) :
    Yields property (Render.misuse construct reason : Render α) :=
  fault _

theorem sequence {α β : Type} {middle : α → Prop} {property : β → Prop} {first : Render α}
    {next : α → Render β} (firstYields : Yields middle first)
    (nextYields : ∀ value, middle value → Yields property (next value)) :
    Yields property (first >>= next) := by
  intro setting state result after settingTidy stateTidy outcome
  obtain ⟨value, between, early, late⟩ := ok_of_bind outcome
  obtain ⟨holds, betweenTidy⟩ := firstYields _ _ _ _ settingTidy stateTidy early
  exact nextYields value holds _ _ _ _ settingTidy betweenTidy late

theorem setting : Yields Setting.Tidy Render.setting := by
  intro setting state result after settingTidy stateTidy outcome
  obtain ⟨same, rfl⟩ := Prod.mk.inj outcome
  rw [← Except.ok.inj same]
  exact ⟨settingTidy, stateTidy⟩

theorem modifyGet {α : Type} {property : α → Prop} {change : Setting → Ledger → α × Ledger}
    (keeps : ∀ (setting : Setting) (ledger : Ledger), setting.Tidy → ledger.Tidy →
      property (change setting ledger).1 ∧ (change setting ledger).2.Tidy) :
    Yields property (Render.modifyGet change) := by
  intro setting state result after settingTidy stateTidy outcome
  obtain ⟨same, rfl⟩ := Prod.mk.inj outcome
  rw [← Except.ok.inj same]
  obtain ⟨holds, ledgerTidy⟩ := keeps setting state.ledger settingTidy stateTidy.ledger
  exact ⟨holds, ledgerTidy, stateTidy.branch⟩

theorem modify {change : Setting → Ledger → Ledger}
    (keeps : ∀ (setting : Setting) (ledger : Ledger), setting.Tidy → ledger.Tidy →
      (change setting ledger).Tidy) : Yields (fun _ => True) (Render.modify change) :=
  modifyGet fun current ledger currentTidy ledgerTidy =>
    ⟨trivial, keeps current ledger currentTidy ledgerTidy⟩

theorem inScope {α : Type} {property : α → Prop} {change : Scope → Scope} {render : Render α}
    (keeps : ∀ scope : Scope, scope.Tidy → (change scope).Tidy)
    (yields : Yields property render) : Yields property (Render.inScope change render) := by
  intro setting state result after settingTidy stateTidy outcome
  have changed : Setting.Tidy { setting with scope := change setting.scope } :=
    ⟨settingTidy.config, keeps _ settingTidy.scope⟩
  exact yields _ _ _ _ changed stateTidy outcome

theorem within {α : Type} {property : α → Prop} {component : String} {render : Render α}
    (yields : Yields property render) : Yields property (Render.within component render) := by
  intro setting state result after settingTidy stateTidy outcome
  exact yields _ _ _ _ settingTidy stateTidy (ok_of_within outcome)

theorem construct {α : Type} {property : α → Prop} {construct : Construct} {render : Render α}
    (yields : Yields property render) : Yields property (Render.construct construct render) :=
  within yields

theorem leaveBranch {render : Render String} (yields : Yields Balanced render) :
    Yields (fun _ => True) (Render.leaveBranch render.toBranch) := by
  intro setting state result after settingTidy stateTidy outcome
  -- The branch runs later, from another tidy ledger and with no branch of its own.
  have balanced : Branch.Balanced render.toBranch := by
    intro current ledger text later currentTidy ledgerTidy written
    obtain ⟨same, rfl⟩ := Prod.mk.inj written
    have outcome : render current (.ofLedger ledger) =
        (.ok text, (render current (.ofLedger ledger)).2) := by
      rw [← same]
    obtain ⟨holds, tidy⟩ := yields _ _ _ _ currentTidy (State.tidy_ofLedger ledgerTidy) outcome
    exact ⟨holds, tidy.ledger⟩
  refine ⟨trivial, ?_⟩
  unfold Render.leaveBranch at outcome
  split at outcome
  · rw [← (Prod.mk.inj outcome).2]
    exact stateTidy
  · rw [← (Prod.mk.inj outcome).2]
    exact ⟨stateTidy.ledger, by simpa using balanced⟩

theorem ofBranch {branch : Branch} (balanced : Branch.Balanced branch) :
    Yields Balanced (Render.ofBranch branch) := by
  intro setting state result after settingTidy stateTidy outcome
  obtain ⟨same, rfl⟩ := Prod.mk.inj outcome
  have written : branch setting state.ledger = (.ok result, (branch setting state.ledger).2) := by
    rw [← same]
  obtain ⟨holds, tidy⟩ := balanced _ _ _ _ settingTidy stateTidy.ledger written
  exact ⟨holds, tidy, stateTidy.branch⟩

/-- A body and the alternative that it leaves. -/
theorem collectBranch {α : Type} {property : α → Prop} {render : Render α}
    (yields : Yields property render) :
    Yields (fun pair => property pair.1 ∧ ∀ branch ∈ pair.2, Branch.Balanced branch)
      (Render.collectBranch render) := by
  intro setting state result after settingTidy stateTidy outcome
  have cleared : State.Tidy { state with branch := none } := ⟨stateTidy.ledger, by simp⟩
  have inside := inScope (fun _ tidy => tidy.inConditional) yields
  rcases run : Render.inScope Scope.inConditional render setting { state with branch := none }
    with ⟨fault | value, inner⟩
  · rw [collectBranch_of_error run] at outcome
    cases (Prod.mk.inj outcome).1
  · rw [collectBranch_of_ok run] at outcome
    obtain ⟨same, rfl⟩ := Prod.mk.inj outcome
    rw [← Except.ok.inj same]
    obtain ⟨holds, innerTidy⟩ := inside _ _ _ _ settingTidy cleared run
    exact ⟨⟨holds, innerTidy.branch⟩, innerTidy.ledger, stateTidy.branch⟩

theorem inDocument {α : Type} {property : α → Prop} {numbering : Numbering} {render : Render α}
    (free : BraceFree numbering.formPrefix) (yields : Yields property render) :
    Yields property (Render.inDocument numbering render) := by
  intro setting state result after settingTidy stateTidy outcome
  obtain ⟨same, rfl⟩ := Prod.mk.inj outcome
  have inside := inScope (fun _ tidy => tidy.detached) yields
  -- Only the numbering differs inside, and the outer one is put back afterwards.
  have started : State.Tidy { state with ledger := { state.ledger with numbering } } :=
    ⟨{ stateTidy.ledger with forms := free }, stateTidy.branch⟩
  obtain ⟨holds, tidy⟩ := inside _ _ _ _ settingTidy started (Prod.ext same rfl)
  exact ⟨holds, { tidy.ledger with forms := stateTidy.ledger.forms }, tidy.branch⟩

/-- A render and the meta tags that it collects. -/
theorem collectMetaTags {α : Type} {property : α → Prop} {render : Render α}
    (yields : Yields property render) :
    Yields (fun pair => property pair.1 ∧ ∀ attributes ∈ pair.2, attributes.Inert)
      (Render.collectMetaTags render) := by
  intro setting state result after settingTidy stateTidy outcome
  have inside := inScope (fun _ tidy => tidy.inShell) yields
  have started : State.Tidy { state with ledger := { state.ledger with metaTags := [] } } :=
    ⟨{ stateTidy.ledger with metaTags := by simp }, stateTidy.branch⟩
  rcases run : Render.inScope Scope.inShell render setting
    { state with ledger := { state.ledger with metaTags := [] } } with ⟨fault | value, inner⟩
  · simp [Render.collectMetaTags, run] at outcome
  · simp only [Render.collectMetaTags, run, Prod.mk.injEq, Except.ok.injEq] at outcome
    obtain ⟨rfl, rfl⟩ := outcome
    obtain ⟨holds, innerTidy⟩ := inside _ _ _ _ settingTidy started run
    exact ⟨⟨holds, innerTidy.ledger.metaTags⟩,
      { innerTidy.ledger with metaTags := stateTidy.ledger.metaTags }, innerTidy.branch⟩

theorem nothing : Yields Balanced Render.nothing :=
  value (inert_of_braceFree braceFree_empty).balanced

theorem element {tag : String} {attributes : Attributes} {content : Render String}
    (tagInert : Inert tag) (inert : attributes.Inert) (yields : Yields Balanced content) :
    Yields Balanced (Render.element tag attributes content) :=
  sequence yields fun _ balanced => value (balanced_elementText tagInert inert balanced)

/-! ## Replies -/

theorem nextLoopNames :
    Yields (fun names => ∃ numbering : Numbering,
      names = (numbering.elementName, numbering.positionName)) Render.nextLoopNames :=
  modifyGet fun _ _ _ tidy => ⟨⟨_, rfl⟩, { tidy with }⟩

theorem nextFormId : Yields BraceFree Render.nextFormId :=
  modifyGet fun _ _ _ tidy => ⟨Numbering.braceFree_formId tidy.forms, { tidy with }⟩

theorem require (resource : String) :
    Yields (fun key => key = resourceKey resource) (Render.require resource) :=
  modifyGet fun _ _ _ tidy => ⟨rfl, { tidy with }⟩

theorem note (key : String) (value : Json) : Yields (fun _ => True) (Render.note key value) :=
  modify fun _ _ _ tidy => { tidy with }

theorem storeTemplate (resource : String) {template : String} (balanced : Balanced template) :
    Yields (fun handle => BraceFree handle.url) (Render.storeTemplate resource template) :=
  modifyGet fun _ _ currentTidy tidy => by
    obtain ⟨stored, address⟩ := tidy.storeTemplate currentTidy.config resource balanced
    exact ⟨address, stored⟩

theorem recordIsland (record : IslandRecord) :
    Yields (fun _ => True) (Render.recordIsland record) :=
  modify fun _ _ _ tidy => tidy.recordIsland _ record

theorem containerOf (route : Path) : Yields Inert (Render.containerOf route) :=
  modifyGet fun _ _ _ tidy => ⟨tidy.routes.inert_containerOf route, tidy⟩

theorem addRoute {entry : Entry} (inert : Inert entry.container) :
    Yields (fun _ => True) (Render.addRoute entry) :=
  modify fun _ _ _ tidy => tidy.addRoute _ inert

theorem seeContainer {container : String} (inert : Inert container) :
    Yields (fun _ => True) (Render.seeContainer container) :=
  modify fun _ _ _ tidy => tidy.seeContainer _ inert

theorem addMetaTag {attributes : Attributes} (inert : attributes.Inert) :
    Yields (fun _ => True) (Render.addMetaTag attributes) :=
  modify fun _ _ _ tidy => by
    refine { tidy with metaTags := ?_ }
    intro other member
    rcases List.mem_append.mp member with old | new
    · exact tidy.metaTags other old
    · rw [List.mem_singleton.mp new]
      exact inert

theorem storeAsset (contents name : String) (kind : AssetKind) :
    Yields BraceFree (Render.storeAsset contents name kind) := by
  have offered : Yields (fun outcome => ∀ url, outcome = .ok url → BraceFree url)
      (Render.offerAsset contents name kind) :=
    modifyGet fun current ledger _ tidy => by
      rcases stored : ledger.storeAsset current.pass contents name kind with fault | ⟨after, url⟩
      · exact ⟨by simp, tidy⟩
      · obtain ⟨afterTidy, free⟩ := tidy.storeAsset current.pass stored
        refine ⟨?_, afterTidy⟩
        intro other same
        rw [← Except.ok.inj same]
        exact free
  refine sequence offered fun outcome addresses => ?_
  cases outcome with
  | ok url => exact value (addresses url rfl)
  | error reason => exact fault reason

theorem lookupAsset (name : String) :
    Yields (fun found => ∀ url ∈ found, BraceFree url) (Render.lookupAsset name) :=
  modifyGet fun current _ _ tidy => by
    obtain ⟨after, addresses⟩ := tidy.lookupAsset current.pass name
    exact ⟨addresses, after⟩

/-! ## Conditionals and loops -/

theorem chooseAlternative {otherwise : Option (Render String)} {left : Option Branch}
    (otherwiseYields : ∀ render ∈ otherwise, Yields Balanced render)
    (leftBalanced : ∀ branch ∈ left, Branch.Balanced branch) :
    Yields (fun chosen => ∀ render ∈ chosen, Yields Balanced render)
      (Render.chooseAlternative otherwise left) := by
  cases otherwise with
  | none =>
      cases left with
      | none => exact value (by simp)
      | some branch =>
          have yields := ofBranch (leftBalanced branch rfl)
          exact value (by simpa using yields)
  | some given =>
      cases left with
      | none => exact value otherwiseYields
      | some branch => exact misuse _ _

theorem alternativeText {chosen : Option (Render String)}
    (yields : ∀ render ∈ chosen, Yields Balanced render) :
    Yields (fun text => ∀ other ∈ text, Balanced other) (Render.alternativeText chosen) := by
  cases chosen with
  | none => exact value (by simp)
  | some render =>
      have inside := inScope (fun _ tidy => tidy.outsideConditional) (yields render rfl)
      exact sequence inside fun text balanced => value (by simpa using balanced)

theorem conditional {condition : Expr} (free : condition.BraceFree) (negated : Bool)
    {body : Render String} {otherwise : Option (Render String)} (bodyYields : Yields Balanced body)
    (otherwiseYields : ∀ render ∈ otherwise, Yields Balanced render) :
    Yields Balanced (Render.conditional condition negated body otherwise) := by
  unfold Render.conditional
  split
  · exact misuse _ _
  · refine sequence (collectBranch bodyYields) fun collected ⟨bodyBalanced, leftBalanced⟩ => ?_
    refine sequence (chooseAlternative otherwiseYields leftBalanced) fun chosen yields => ?_
    refine sequence (alternativeText yields) fun alternative balanced => ?_
    exact value (balanced_ifBlock (free.header negated) negated bodyBalanced balanced)

theorem alternative {branch : Render String} (yields : Yields Balanced branch) :
    Yields Balanced (Render.alternative branch) := by
  refine sequence setting fun current _ => ?_
  split
  · refine sequence (leaveBranch yields) fun accepted _ => ?_
    split
    · exact nothing
    · exact misuse _ _
  · exact misuse _ _

theorem loop {source : DataRef} {body : (element position : DataRef) → Render String}
    (free : BraceFree source.name)
    (yields : ∀ numbering : Numbering,
      Yields Balanced (body ⟨numbering.elementName⟩ ⟨numbering.positionName⟩)) :
    Yields Balanced (Render.loop source body) := by
  refine sequence nextLoopNames fun names known => ?_
  obtain ⟨numbering, rfl⟩ := known
  refine sequence (yields numbering) fun text balanced => ?_
  exact value (balanced_rangeBlock numbering.braceFree_positionName
    numbering.braceFree_elementName free balanced)

/-! ## Forms -/

theorem requireNoForm (construct : Construct) :
    Yields (fun _ => True) (Render.requireNoForm construct) := by
  refine sequence setting fun current _ => ?_
  split
  · exact misuse _ _
  · exact value trivial

theorem form {action : Action} {refresh : Refresh} {attributes : Attributes}
    {children : Render String} (tidy : action.Tidy) (refreshTidy : refresh.Tidy)
    (inert : attributes.Inert) (yields : Yields Balanced children) :
    Yields Balanced (Render.form action refresh attributes children) := by
  refine sequence (requireNoForm _) fun _ _ => sequence nextFormId fun id idFree => ?_
  have idInert := inert_of_braceFree idFree
  have opened : OpenForm.Tidy (openForm action refresh id) :=
    ⟨idInert, inert_islandIds tidy refreshTidy, refreshTidy.items⟩
  have withId := inert_withId inert idInert
  exact inScope (fun _ scopeTidy => scopeTidy.inForm opened)
    (element (inert_of_braceFree (by decide)) withId yields)

theorem submit {action : Action} {attributes : Attributes} {children : Render String}
    (tidy : action.Tidy) (inert : attributes.Inert) (yields : Yields Balanced children) :
    Yields Balanced (Render.submit action attributes children) := by
  refine sequence setting fun current currentTidy => ?_
  split
  · exact misuse _ _
  · next form isOpen =>
    split
    · have formTidy := currentTidy.scope.form form isOpen
      exact element (inert_of_braceFree (by decide))
        (inert_buttonAttributes tidy formTidy.id currentTidy.scope.inert_current formTidy.islands
          formTidy.items inert) yields
    · exact misuse _ _

theorem quickButton {action : Action} {refresh : Refresh} {formAttributes attributes : Attributes}
    {hidden children : Render String} (tidy : action.Tidy) (refreshTidy : refresh.Tidy)
    (formInert : formAttributes.Inert) (hiddenYields : Yields Balanced hidden)
    (inert : attributes.Inert) (yields : Yields Balanced children) :
    Yields Balanced
      (Render.quickButton action refresh formAttributes hidden attributes children) := by
  refine sequence (requireNoForm _) fun _ _ => sequence nextFormId fun id idFree => ?_
  refine sequence setting fun current currentTidy => ?_
  have idInert := inert_of_braceFree idFree
  have withId := inert_withId formInert idInert
  have buttonInert := inert_buttonAttributes tidy idInert currentTidy.scope.inert_current
    (inert_islandIds tidy refreshTidy) refreshTidy.items inert
  have button := element (inert_of_braceFree (by decide : BraceFree "button")) buttonInert yields
  refine element (inert_of_braceFree (by decide)) withId ?_
  refine sequence hiddenYields fun inputs inputsBalanced => ?_
  exact sequence button fun text balanced => value (inputsBalanced.append balanced)

/-! ## Regions -/

theorem compileTemplate (resource : String) {template : Render String}
    (yields : Yields Balanced template) :
    Yields (fun handle => BraceFree handle.url) (Render.compileTemplate resource template) :=
  sequence (inDocument (Numbering.braceFree_formPrefix_ofTemplate resource) yields)
    fun _ balanced => storeTemplate resource balanced

theorem recordRegion (region : Region) (handle : Handle) :
    Yields (fun _ => True) (Render.recordRegion region handle) := by
  unfold Render.recordRegion
  split
  · exact recordIsland _
  · exact value trivial

theorem remote {region : Region} {template : DataRef → Render String} {fallback : Render String}
    (loading : region.loading.Tidy) (templateYields : Yields Balanced (template .ofFragment))
    (fallbackYields : Yields Balanced fallback) :
    Yields Balanced (Render.remote region template fallback) := by
  refine sequence setting fun current currentTidy => ?_
  refine sequence (compileTemplate region.resource templateYields) fun handle address => ?_
  refine sequence (recordRegion region handle) fun _ _ => ?_
  exact element (inert_of_braceFree (by decide))
    (inert_placeholderAttributes loading currentTidy.config.fragmentHeader
      currentTidy.scope.inert_current (inert_of_braceFree address)) fallbackYields

/-! ## Routes -/

theorem switch {id : String} {attributes : Attributes} {children : Render String}
    (idInert : Inert id) (inert : attributes.Inert) (yields : Yields Balanced children) :
    Yields Balanced (Render.switch id attributes children) :=
  sequence (seeContainer idInert) fun _ _ =>
    inScope (fun _ tidy => tidy.inRouter idInert)
      (element (inert_of_braceFree (by decide)) (inert_switchAttributes idInert inert) yields)

theorem route {path title : String} {content : Render String} (free : BraceFree path)
    (yields : Yields Balanced content) : Yields Balanced (Render.route path title content) := by
  refine sequence setting fun current currentTidy => ?_
  split
  · exact misuse _ _
  · next container around =>
    have containerInert := currentTidy.scope.container container around
    refine sequence (addRoute containerInert) fun _ _ => ?_
    split
    · exact inScope (fun _ tidy => tidy.enter free) yields
    · exact nothing

theorem withResource {resource : String} {content : DataRef → Render String}
    (yields : Yields Balanced (content (.ofResource resource))) :
    Yields Balanced (Render.withResource resource content) := by
  refine sequence (require resource) fun key known => ?_
  rw [known]
  exact yields

theorem link {target : String} {locale : Option String} {attributes : Attributes}
    {children : Render String} (targetInert : Inert target)
    (localeInert : ∀ language ∈ locale, Inert language) (inert : attributes.Inert)
    (yields : Yields Balanced children) :
    Yields Balanced (Render.link target locale attributes children) := by
  refine sequence setting fun current _ => ?_
  refine sequence (containerOf _) fun container containerInert => ?_
  exact element (inert_of_braceFree (by decide))
    (inert_linkAttributes targetInert containerInert localeInert inert) yields

theorem redirect (target : String) : Yields Balanced (Render.redirect target) :=
  sequence (note _ _) fun _ _ => sequence (note _ _) fun _ _ => nothing

/-! ## The document around a page -/

theorem head {content : Render String} (yields : Yields Balanced content) :
    Yields Balanced (Render.head content) := by
  have loader : Balanced (elementText "script" loaderAttributes "") :=
    balanced_elementText (inert_of_braceFree (by decide)) inert_loaderAttributes
      (inert_of_braceFree braceFree_empty).balanced
  exact element (inert_of_braceFree (by decide)) Attributes.inert_nil
    (sequence yields fun _ balanced => value (loader.append balanced))

theorem withMetaTags {tags : List Attributes} {content : Render String}
    (inert : ∀ attributes ∈ tags, attributes.Inert) (yields : Yields Balanced content) :
    Yields Balanced (Render.withMetaTags tags content) :=
  sequence yields fun _ balanced => value (balanced.append (balanced_metaTagsText inert))

theorem shell {morph : Bool} {headContent children : Render String}
    (headYields : Yields Balanced headContent) (yields : Yields Balanced children) :
    Yields Balanced (Render.shell morph headContent children) := by
  have start : Inert "<html>" := inert_of_braceFree (by decide)
  have ending : Inert "</html>" := inert_of_braceFree (by decide)
  have tag : Inert "body" := inert_of_braceFree (by decide)
  have body := element tag (inert_bodyAttributes morph) yields
  refine sequence (collectMetaTags body) fun collected ⟨bodyBalanced, tags⟩ => ?_
  refine sequence (construct (head (withMetaTags tags headYields))) fun text balanced => ?_
  exact value (((start.balanced.append balanced).append bodyBalanced).append ending.balanced)

theorem metaTag {attributes : Attributes} (inert : attributes.Inert) :
    Yields Balanced (Render.metaTag attributes) := by
  refine sequence setting fun current _ => ?_
  split
  · exact sequence (addMetaTag inert) fun _ _ => nothing
  · exact misuse _ _

theorem stylesheet {name contents : String} {inlined : Bool}
    (tidy : inlined = true → Inert name ∧ Inert contents) :
    Yields Balanced (Render.stylesheet name contents inlined) := by
  have tag : Inert "style" := inert_of_braceFree (by decide)
  unfold Render.stylesheet
  dsimp only
  split
  · next isInlined =>
    obtain ⟨nameInert, contentsInert⟩ := tidy isInlined
    have opening : Inert "/* " := inert_of_braceFree (by decide)
    have closing : Inert " */\n" := inert_of_braceFree (by decide)
    have text : Inert (stylesheetText name contents) :=
      ((opening.append nameInert).append closing).append contentsInert
    exact value (balanced_elementText tag Attributes.inert_nil text.balanced)
  · refine sequence (storeAsset _ _ _) fun address free => ?_
    have attributes : Attributes.Inert
        [⟨"rel", .string "stylesheet"⟩,
         ⟨"href", .string address⟩,
         ⟨"type", .string "text/css"⟩,
         ⟨"media", .string "screen"⟩] :=
      .fixed (by decide) (by decide) <|
        .fixed (by decide) free <|
          .fixed (by decide) (by decide) <|
            .fixed (by decide) (by decide) Attributes.inert_nil
    exact value (balanced_elementText (inert_of_braceFree (by decide)) attributes
      (inert_of_braceFree braceFree_empty).balanced)

theorem script {source : ScriptSource} (tidy : source.Tidy) :
    Yields Balanced (Render.script source) := by
  unfold Render.script
  split
  · next contents given =>
    split
    · next isInlined =>
      have attributes : Attributes.Inert [scriptType source.asModule] :=
        Attributes.inert_nil.cons (inert_scriptType _)
      have text := tidy isInlined contents given
      exact value (balanced_elementText (inert_of_braceFree (by decide)) attributes text.balanced)
    · exact sequence (storeAsset _ _ _) fun address free => value (balanced_linkedScript _ free)
  · refine sequence (lookupAsset _) fun found addresses => ?_
    split
    · next address => exact value (balanced_linkedScript _ (addresses address rfl))
    · refine sequence setting fun current _ => ?_
      split
      · exact fault _
      · exact nothing

end Yields

end Render

/-! ## Views -/

mutual

/-- A tidy view is rendered to a text whose blocks are nested, in whatever surroundings
are tidy. -/
theorem View.render_yields : ∀ view : View, view.Tidy → view.render.Yields Balanced
  | .blank, _ => .nothing
  | .text _, tidy => .value (inert_escapeText tidy).balanced
  | .raw _, tidy => .value (Inert.balanced tidy)
  | .group children, tidy => View.renderAll_yields children tidy
  | .element _ _ children, tidy =>
      .element tidy.1 tidy.2.1 (View.renderAll_yields children tidy.2.2)
  | .conditional _ _ body none, tidy =>
      .construct (.conditional tidy.1 _ (View.renderAll_yields body tidy.2) (by simp))
  | .conditional _ _ body (some otherwise), tidy =>
      .construct (.conditional tidy.1 _ (View.renderAll_yields body tidy.2.1)
        (by simpa using View.render_yields otherwise tidy.2.2))
  | .alternative branch, tidy => .construct (.alternative (View.render_yields branch tidy))
  | .loop _ body, tidy =>
      .construct (.loop tidy.1 fun numbering =>
        View.render_yields (body ⟨numbering.elementName⟩ ⟨numbering.positionName⟩)
          (tidy.2 numbering))
  | .switch _ _ children, tidy =>
      .construct (.switch tidy.1 tidy.2.1 (View.renderAll_yields children tidy.2.2))
  | .route _ _ children, tidy =>
      .construct (.route tidy.1 (View.renderAll_yields children tidy.2))
  | .dataRoute _ _ resource body, tidy =>
      .construct (.route tidy.1
        (.withResource (View.render_yields (body (.ofResource resource)) tidy.2)))
  | .link _ _ _ children, tidy =>
      .construct (.link tidy.1 tidy.2.1 tidy.2.2.1 (View.renderAll_yields children tidy.2.2.2))
  | .redirect _, _ => .construct (.redirect _)
  | .shell _ headChildren children, tidy =>
      .construct (.shell (View.renderAll_yields headChildren tidy.1)
        (View.renderAll_yields children tidy.2))
  | .head children, tidy => .construct (.head (View.renderAll_yields children tidy))
  | .metaTag _, tidy => .construct (.metaTag tidy)
  | .stylesheet _ _ _, tidy => .construct (.stylesheet tidy)
  | .script _, tidy => .construct (.script tidy)
  | .remote _ template fallback, tidy =>
      .construct (.remote tidy.1 (View.render_yields (template .ofFragment) tidy.2.1)
        (View.render_yields fallback tidy.2.2))
  | .form _ _ _ children, tidy =>
      .construct (.form tidy.1 tidy.2.1 tidy.2.2.1 (View.renderAll_yields children tidy.2.2.2))
  | .submit _ _ children, tidy =>
      .construct (.submit tidy.1 tidy.2.1 (View.renderAll_yields children tidy.2.2))
  | .quickButton _ _ _ hidden _ children,
      ⟨tidy, refresh, formInert, hiddenTidy, inert, childrenTidy⟩ =>
      .construct (.quickButton tidy refresh formInert (View.renderAll_yields hidden hiddenTidy)
        inert (View.renderAll_yields children childrenTidy))
  | .component _ _, tidy => tidy.elim

theorem View.renderAll_yields : ∀ views : List View, View.AllTidy views →
    (View.renderAll views).Yields Balanced
  | [], _ => .nothing
  | first :: rest, tidy =>
      .sequence (View.render_yields first tidy.1) fun _ balanced =>
        .sequence (View.renderAll_yields rest tidy.2) fun _ others =>
          .value (balanced.append others)

end

end Sitewright
