import Sitewright.Proofs.Render.Tidy
import Sitewright.Proofs.View.Confined
import Sitewright.Render.Forms
import Sitewright.Render.Routes
import Sitewright.Render.Shell

/-!
Contract: what constructs write, and settings and states, with the variables of loops.

Owns:
- the attributes that constructs write around what they are given;
- settings, branches, ledgers and states whose texts may be written in a frame.

Does not own: renders.
-/

namespace Sitewright

open Text Template Markup Routing Catalog

variable {names : Names}

/-! ## Forms -/

theorem speaks_withId {attributes : Attributes} {id : String} (speaks : attributes.Speaks names)
    (idSpeaks : Speaks names id) : (attributes.set "id" (.string id)).Speaks names :=
  speaks.set (.of_braceFree (by decide)) (Value.speaks_string idSpeaks)

theorem speaks_refreshCall {route : String} {islands : List String} {items : List Value}
    (routeSpeaks : Speaks names route) (islandsSpeak : ∀ id ∈ islands, Speaks names id)
    (itemsSpeak : ∀ item ∈ items, item.Speaks names) :
    Speaks names (refreshCall route islands items) := by
  have call : Speaks names "__hardwire.formHeaders(" := .of_braceFree (by decide)
  have comma : Speaks names ", " := .of_braceFree (by decide)
  have keys : ∀ key ∈ items.filterMap Value.text?, Speaks names key := by
    intro key member
    obtain ⟨item, inItems, written⟩ := List.mem_filterMap.mp member
    exact itemsSpeak item inItems key written
  have arguments := ((call.append (Json.speaks_quoted routeSpeaks)).append comma).append
    (Json.speaks_stringsText islandsSpeak)
  exact ((arguments.append comma).append (Json.speaks_stringsText keys)).append
    (.of_braceFree braceFree_closing)

theorem speaks_buttonAttributes {action : Action} {formId route : String} {islands : List String}
    {items : List Value} {attributes : Attributes} (nameSpeaks : Speaks names action.name)
    (idSpeaks : Speaks names formId) (routeSpeaks : Speaks names route)
    (islandsSpeak : ∀ id ∈ islands, Speaks names id)
    (itemsSpeak : ∀ item ∈ items, item.Speaks names) (speaks : attributes.Speaks names) :
    (action.buttonAttributes formId route islands items attributes).Speaks names := by
  have hash : Speaks names "#" := .of_braceFree (by decide)
  have address : Speaks names action.address := by
    have base : Speaks names "/__actions/" := .of_braceFree (by decide)
    exact base.append nameSpeaks
  have method : BraceFree action.method.attributeName := by
    cases action.method <;> decide
  have code : Speaks names ("javascript: ..." ++ refreshCall route islands items) := by
    have start : Speaks names "javascript: ..." := .of_braceFree (by decide)
    exact start.append (speaks_refreshCall routeSpeaks islandsSpeak itemsSpeak)
  have headers : Attributes.Speaks names
      (if islands.isEmpty then []
        else [⟨"hx-headers", .string ("javascript: ..." ++ refreshCall route islands items)⟩]) := by
    split
    · exact Attributes.speaks_nil
    · exact .entry (by decide) (Value.speaks_string code) Attributes.speaks_nil
  unfold Action.buttonAttributes
  exact speaks.setAll <|
    .entry (by decide) (Value.speaks_string (hash.append idSpeaks)) <|
      .entry method (Value.speaks_string address) <|
        .fixed (by decide) (by decide) headers

/-! ## Placeholders -/

theorem speaks_headers {loading : Loading} {header route : String} (speaks : loading.Speaks names)
    (headerSpeaks : Speaks names header) (routeSpeaks : Speaks names route) :
    Speaks names (loading.headers header route).text := by
  have slash : Speaks names "/" := .of_braceFree braceFree_slash
  have language : Speaks names Loading.languageHeader := .of_braceFree (by decide)
  apply Json.speaks_object
  intro entry member
  rcases List.mem_cons.mp (Json.mem_sortMembers member) with rfl | inRest
  · exact ⟨headerSpeaks, Json.speaks_quoted (slash.append routeSpeaks)⟩
  · split at inRest
    · next locale given =>
      rw [List.mem_singleton.mp inRest]
      exact ⟨language, Json.speaks_quoted (speaks.locale locale given)⟩
    · cases inRest

theorem speaks_delayText {label : String} {delay : Option String} (labelFree : BraceFree label)
    (speaks : ∀ given ∈ delay, Speaks names given) :
    Speaks names (Loading.delayText label delay) := by
  cases delay with
  | none => exact .of_braceFree braceFree_empty
  | some given =>
      have colon : Speaks names ":" := .of_braceFree (by decide)
      have start : Speaks names (" " ++ label) := .of_braceFree (braceFree_space.append labelFree)
      exact (start.append colon).append (speaks given rfl)

theorem speaks_placeholderAttributes {loading : Loading} {header route url : String}
    (speaks : loading.Speaks names) (headerFree : BraceFree header)
    (routeSpeaks : Speaks names route) (urlSpeaks : Speaks names url) :
    (loading.placeholderAttributes header route url).Speaks names := by
  have trigger : BraceFree loading.trigger.text := by
    cases loading.trigger <;> decide
  have style : BraceFree (if loading.morph then "morph:outerHTML" else "outerHTML") := by
    cases loading.morph <;> decide
  have styleSpeaks : Speaks names (if loading.morph then "morph:outerHTML" else "outerHTML") :=
    .of_braceFree style
  have swap : Speaks names loading.swapText :=
    (styleSpeaks.append (speaks_delayText (by decide) speaks.swap)).append
      (speaks_delayText (by decide) speaks.settle)
  have headers := speaks_headers speaks (.of_braceFree headerFree) routeSpeaks
  unfold Loading.placeholderAttributes
  exact .fixed (by decide) trigger <|
    .entry (by decide) (Value.speaks_string urlSpeaks) <|
      .entry (by decide) (Value.speaks_string swap) <|
        .entry (by decide) (Value.speaks_string headers) Attributes.speaks_nil

/-! ## Routes, links and the document around a page -/

namespace Render

theorem speaks_switchAttributes {id : String} {attributes : Attributes}
    (idSpeaks : Speaks names id) (speaks : attributes.Speaks names) :
    (switchAttributes id attributes).Speaks names := by
  have marker : Speaks names switchClass := .of_braceFree (by decide)
  have classes : Speaks names (withSwitchClass attributes) := by
    unfold withSwitchClass
    split
    · next own found =>
      obtain ⟨value, given, written⟩ := Option.bind_eq_some_iff.mp found
      have ownSpeaks := speaks.get? value given own written
      split
      · exact marker
      · exact (ownSpeaks.append (.of_braceFree braceFree_space)).append marker
    · exact marker
  unfold switchAttributes
  exact speaks.setAll <|
    .entry (by decide) (Value.speaks_string idSpeaks) <|
      .entry (by decide) (Value.speaks_string classes) Attributes.speaks_nil

theorem speaks_languageHeaders {locale : Option String}
    (speaks : ∀ language ∈ locale, Speaks names language) :
    (languageHeaders locale).Speaks names := by
  apply Value.speaks_ofString?
  intro text member
  obtain ⟨language, given, rfl⟩ := Option.map_eq_some_iff.mp member
  have header : Speaks names Loading.languageHeader := .of_braceFree (by decide)
  apply Json.speaks_object
  intro entry inMembers
  rw [List.mem_singleton.mp inMembers]
  exact ⟨header, Json.speaks_quoted (speaks language given)⟩

theorem speaks_linkAttributes {target container : String} {locale : Option String}
    {attributes : Attributes} (targetSpeaks : Speaks names target)
    (containerSpeaks : Speaks names container)
    (localeSpeaks : ∀ language ∈ locale, Speaks names language)
    (speaks : attributes.Speaks names) :
    (linkAttributes target container locale attributes).Speaks names := by
  have hash : Speaks names "#" := .of_braceFree (by decide)
  unfold linkAttributes
  exact speaks.setAll <|
    .entry (by decide) (Value.speaks_string targetSpeaks) <|
      .entry (by decide) (speaks_languageHeaders localeSpeaks) <|
        .fixed (by decide) (by decide) <|
          .entry (by decide) (Value.speaks_string (hash.append containerSpeaks)) <|
            .fixed (by decide) (by decide) Attributes.speaks_nil

theorem speaks_loaderAttributes : loaderAttributes.Speaks names :=
  .fixed (by decide) (by decide) <|
    .fixed (by decide) (by decide +kernel) <|
      .fixed (by decide) (by decide) Attributes.speaks_nil

theorem speaks_bodyAttributes (morph : Bool) : (bodyAttributes morph).Speaks names := by
  have extension : BraceFree (if morph then "morph" else "") := by
    cases morph <;> decide
  exact .fixed (by decide) extension Attributes.speaks_nil

theorem enclosed_metaTagsText {tags : List Attributes}
    (speaks : ∀ attributes ∈ tags, attributes.Speaks names) (number : Nat) :
    Enclosed names number number (metaTagsText tags) := by
  have empty (number : Nat) : Enclosed names number number "" :=
    Speaks.enclosed (.of_braceFree braceFree_empty) number number
  unfold metaTagsText
  induction tags with
  | nil => exact empty number
  | cons first rest inductionHypothesis =>
      have firstEnclosed : Enclosed names number number (metaTagText first) :=
        enclosed_elementText (.of_braceFree (by decide)) (speaks first List.mem_cons_self)
          (empty number)
      have restEnclosed := inductionHypothesis fun attributes member =>
        speaks attributes (List.mem_cons_of_mem _ member)
      rw [List.map_cons, String.join_cons]
      exact (firstEnclosed.append restEnclosed (Or.inl (Nat.le_refl _))).widen (by omega) (by omega)

theorem speaks_scriptType (asModule : Bool) : (scriptType asModule).Speaks names := by
  have type : BraceFree (if asModule then "module" else "text/javascript") := by
    cases asModule <;> decide
  have name : Speaks names "type" := .of_braceFree (by decide)
  exact ⟨name, Value.speaks_string (.of_braceFree type)⟩

theorem enclosed_linkedScript (asModule : Bool) {address : String} (free : BraceFree address)
    (number : Nat) : Enclosed names number number (linkedScript asModule address) := by
  have attributes : Attributes.Speaks names [scriptType asModule, ⟨"src", .string address⟩] :=
    (Attributes.Speaks.fixed (by decide) free Attributes.speaks_nil).cons
      (speaks_scriptType asModule)
  exact enclosed_elementText (.of_braceFree (by decide)) attributes
    (Speaks.enclosed (.of_braceFree braceFree_empty) number number)

end Render

/-! ## Settings -/

structure OpenForm.Confined (names : Names) (form : OpenForm) : Prop where
  id : BraceFree form.id
  islands : ∀ island ∈ form.islands, Speaks names island
  items : ∀ item ∈ form.items, item.Speaks names

/-- What a scope hands to constructs may be written in the frame. -/
structure Scope.Confined (frame : Frame) (conditionals : List Frame) (scope : Scope) : Prop where
  current : ∀ segment ∈ scope.current.segments, BraceFree segment
  container : ∀ container ∈ scope.container, Speaks frame.routers container
  form : ∀ form ∈ scope.form, form.Confined frame.form
  conditional : scope.conditional = true → conditionals ≠ []

structure Setting.Confined (frame : Frame) (conditionals : List Frame) (setting : Setting) :
    Prop where
  config : setting.config.BraceFree
  scope : setting.scope.Confined frame conditionals

namespace Scope.Confined

variable {frame : Frame} {conditionals : List Frame} {scope : Scope}
  (confined : scope.Confined frame conditionals)

include confined

theorem inRouter {container : String} (speaks : Speaks frame.routers container) :
    (scope.inRouter container).Confined frame conditionals :=
  ⟨confined.current, by simpa [Scope.inRouter] using speaks, confined.form, confined.conditional⟩

theorem inForm {form : OpenForm} (formConfined : form.Confined names) :
    (scope.inForm form).Confined (frame.inForm names) conditionals :=
  ⟨confined.current, confined.container, by simpa [Scope.inForm, Frame.inForm] using formConfined,
    confined.conditional⟩

theorem enter {route : String} (free : BraceFree route) :
    (scope.enter route).Confined frame conditionals := by
  refine ⟨?_, confined.container, confined.form, confined.conditional⟩
  intro segment member
  rcases List.mem_append.mp member with above | own
  · exact confined.current segment above
  · exact free.of_mem_pieces own

theorem inConditional : scope.inConditional.Confined frame (frame :: conditionals) :=
  ⟨confined.current, confined.container, confined.form, by simp⟩

theorem outsideConditional : scope.outsideConditional.Confined frame conditionals :=
  ⟨confined.current, confined.container, confined.form, by simp [Scope.outsideConditional]⟩

theorem inShell : scope.inShell.Confined frame.inShell conditionals :=
  ⟨confined.current, confined.container, confined.form, confined.conditional⟩

theorem detached : scope.detached.Confined frame.detached conditionals :=
  ⟨confined.current, confined.container, confined.form, by simp [Scope.detached]⟩

theorem speaks_current : Speaks names scope.current.text :=
  .of_braceFree (Path.braceFree_text confined.current)

end Scope.Confined

/-! ## States -/

structure Routing.Table.Confined (routers : Names) (table : Table) : Prop where
  entries : ∀ entry ∈ table.entries, Speaks routers entry.container
  top : Speaks routers table.topContainer

/-- Templates are documents of their own; meta tags are written at the shell. -/
structure Ledger.Confined (shared routers shell : Names) (ledger : Ledger) : Prop where
  routes : ledger.routes.Confined routers
  assets : ledger.assets.Tidy
  fragments : ∀ fragment ∈ ledger.catalog.fragments,
    ∃ loops, Enclosed shared 0 loops fragment.template
  forms : BraceFree ledger.numbering.formPrefix
  metaTags : ∀ attributes ∈ ledger.metaTags, attributes.Speaks shell

/-- A waiting alternative that may be written in the frame of its conditional. -/
def Branch.Confined (frame : Frame) (conditionals : List Frame) (branch : Branch) : Prop :=
  ∀ (setting : Setting) (ledger : Ledger) (text : String) (after : Ledger),
    setting.Confined frame conditionals → ledger.Confined frame.shared frame.routers frame.shell →
      branch setting ledger = (.ok text, after) →
        ledger.numbering.loops ≤ after.numbering.loops ∧
          Enclosed frame.visible ledger.numbering.loops after.numbering.loops text ∧
          after.Confined frame.shared frame.routers frame.shell

/-- A branch that waits for the innermost of the conditionals. -/
def Branch.Waits (conditionals : List Frame) (branch : Branch) : Prop :=
  match conditionals with
  | [] => True
  | frame :: outer => branch.Confined frame outer

structure State.Confined (shared routers shell : Names) (conditionals : List Frame) (state : State) :
    Prop where
  ledger : state.ledger.Confined shared routers shell
  branch : ∀ branch ∈ state.branch, Branch.Waits conditionals branch

theorem State.confined_ofLedger {shared routers shell : Names} {ledger : Ledger}
    (confined : ledger.Confined shared routers shell) (conditionals : List Frame) :
    (ofLedger ledger).Confined shared routers shell conditionals :=
  ⟨confined, by simp [ofLedger]⟩

namespace Routing.Table.Confined

variable {routers : Names} {table : Table} (confined : table.Confined routers)

include confined

theorem add? {entry : Entry} (speaks : Speaks routers entry.container) {larger : Table}
    (added : table.add? entry = some larger) : larger.Confined routers := by
  unfold Table.add? at added
  split at added
  · cases added
  · obtain rfl := Option.some.inj added
    refine ⟨?_, confined.top⟩
    intro other member
    rcases List.mem_append.mp member with old | new
    · exact confined.entries other old
    · rw [List.mem_singleton.mp new]
      exact speaks

theorem seeContainer {container : String} (speaks : Speaks routers container) :
    (table.seeContainer container).Confined routers := by
  unfold Table.seeContainer
  split
  · exact ⟨confined.entries, speaks⟩
  · exact confined

theorem speaks_containerOf (route : Path) : Speaks routers (table.containerOf route) := by
  unfold Table.containerOf
  split
  · next entry found => exact confined.entries entry (List.mem_of_find?_eq_some found)
  · exact confined.top

end Routing.Table.Confined

/-! ## Ledgers -/

namespace Ledger.Confined

variable {shared routers shell : Names} {ledger : Ledger} (confined : ledger.Confined shared routers shell)

include confined

theorem addRoute (pass : Pass) {entry : Entry} (speaks : Speaks routers entry.container) :
    (ledger.addRoute pass entry).Confined shared routers shell := by
  unfold Ledger.addRoute
  split
  · next added => exact { confined with routes := confined.routes.add? speaks added }
  · exact confined

theorem seeContainer (pass : Pass) {container : String} (speaks : Speaks routers container) :
    (ledger.seeContainer pass container).Confined shared routers shell := by
  cases pass with
  | search => exact { confined with routes := confined.routes.seeContainer speaks }
  | build => exact confined

theorem recordIsland (pass : Pass) (record : IslandRecord) :
    (ledger.recordIsland pass record).Confined shared routers shell := by
  cases pass with
  | search => exact confined
  | build =>
      refine { confined with fragments := ?_ }
      intro fragment member
      simp only [Ledger.recordIsland, Catalog.addIsland] at member
      split at member <;> exact confined.fragments fragment member

theorem useUrl (url : String) : (ledger.useUrl url).Confined shared routers shell := by
  unfold Ledger.useUrl
  split
  · exact confined
  · exact { confined with }

theorem storeTemplate {setting : Setting} (config : setting.config.BraceFree)
    (resource : String) {template : String} {loops : Nat}
    (enclosed : Enclosed shared 0 loops template) :
    (ledger.storeTemplate setting resource template).1.Confined shared routers shell ∧
      BraceFree (ledger.storeTemplate setting resource template).2.url := by
  unfold Ledger.storeTemplate
  split
  · exact ⟨confined, braceFree_empty⟩
  · refine ⟨{ confined with fragments := ?_ },
      config.fragmentUrl _ (Digest.braceFree_fingerprint _ _)⟩
    intro fragment member
    simp only [Catalog.storeTemplate, Catalog.addFragment] at member
    split at member
    · exact confined.fragments fragment member
    · rcases List.mem_append.mp member with old | new
      · exact confined.fragments fragment old
      · rw [List.mem_singleton.mp new]
        exact ⟨loops, enclosed⟩

theorem storeAsset (pass : Pass) {contents name url : String} {kind : AssetKind} {after : Ledger}
    (stored : ledger.storeAsset pass contents name kind = .ok (after, url)) :
    after.Confined shared routers shell ∧ BraceFree url := by
  cases pass with
  | search =>
      obtain ⟨rfl, rfl⟩ := Prod.mk.inj (Except.ok.inj stored)
      exact ⟨confined, braceFree_empty⟩
  | build =>
      simp only [Ledger.storeAsset] at stored
      split at stored
      · next assets address registered =>
        obtain ⟨rfl, rfl⟩ := Prod.mk.inj (Except.ok.inj stored)
        obtain ⟨assetsTidy, free⟩ := confined.assets.register registered
        have filled : Ledger.Confined shared routers shell { ledger with assets } :=
          { confined with assets := assetsTidy }
        exact ⟨filled.useUrl _, free⟩
      · cases stored

theorem lookupAsset (pass : Pass) (name : String) :
    (ledger.lookupAsset pass name).1.Confined shared routers shell ∧
      ∀ url ∈ (ledger.lookupAsset pass name).2, BraceFree url := by
  cases pass with
  | search => exact ⟨confined, by simp [Ledger.lookupAsset]⟩
  | build =>
      simp only [Ledger.lookupAsset]
      split
      · next url found =>
        refine ⟨confined.useUrl url, ?_⟩
        intro other member
        obtain ⟨asset, inFiles, address⟩ := Asset.Store.serves_lookup found
        rw [← Option.mem_some.mp member, ← address]
        exact confined.assets.files asset inFiles
      · exact ⟨confined, by simp⟩

end Ledger.Confined

end Sitewright
