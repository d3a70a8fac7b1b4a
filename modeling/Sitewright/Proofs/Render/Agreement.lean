import Sitewright.Proofs.Render.Reference

/-!
Contract: what two renders of one view have in common.

A view is rendered twice in the course of a build, in two scopes and after different
changes of the ledger. If the view does not look at what differs, and both renders end
with a text, the texts are the same. Of the ledger, a view can see the numbering of its
document, the routes, the meta tags collected so far and the files of the store. The
files may differ, but whatever name is found in both is found at one address, since both
stores are at the end parts of one.

Owns:
- `Alike`, for scopes, ledgers and states;
- `Secluded`, the views that mention the place where they are rendered only if it is the
  same one;
- `Agrees`, the two-run property of renders, and one lemma for each construct;
- `View.render_agrees`, the induction over views.

Does not own: which renders of a build are compared.
-/

namespace Sitewright

open Markup Template Catalog Routing

/-! ## What two renders share -/

/-- Two scopes of pages that differ in nothing that the library reads, except for current
path, selection and container. These are the same ones if `here` holds, and it does if
the form around refreshes islands. Only under `joined` a conditional is open, and only
under `collecting` a shell. -/
structure Scope.Alike (here joined collecting : Prop) (left right : Scope) : Prop where
  building : left.building = true ∧ right.building = true
  conditional : left.conditional = right.conditional
  shell : left.shell = right.shell
  form : left.form = right.form
  joins : left.conditional = true → joined
  collects : left.shell = true → collecting
  refreshes : ∀ form ∈ left.form, form.islands.isEmpty = false → here
  place : here → left.current = right.current ∧ left.selected = right.selected ∧
    left.container = right.container

structure Ledger.Alike (collecting : Prop) (first second : Ledger) : Prop where
  numbering : first.numbering = second.numbering
  routes : first.routes = second.routes
  metaTags : collecting → first.metaTags = second.metaTags

/-- The setting of a build in a scope. -/
def Scope.built (config : Config) (scope : Scope) : Setting :=
  { config, pass := .build, scope }

variable (config : Config) (bound : Asset.Store) (here : Prop)

/-- A branch that ends alike wherever it is rendered: if it ends with texts twice, with
stores that are parts of `bound` by then, the texts are the same. -/
structure Branch.Agrees (branch : Branch) : Prop where
  stepwise : branch.Stepwise True
  alike : ∀ {joined collecting : Prop} {left right : Scope} {first second : Ledger}
    {value other : String} {firstAfter secondAfter : Ledger},
    left.Alike here joined collecting right → first.Alike collecting second →
      branch (left.built config) first = (.ok value, firstAfter) →
        branch (right.built config) second = (.ok other, secondAfter) →
          firstAfter.assets.PartOf bound → secondAfter.assets.PartOf bound →
            value = other ∧ firstAfter.Alike collecting secondAfter

/-- Two states with ledgers alike. Under `joined`, the same branch waits in both. -/
structure State.Alike (joined collecting : Prop) (first second : State) : Prop where
  ledger : first.ledger.Alike collecting second.ledger
  branch : joined → first.branch = second.branch
  agrees : joined → ∀ branch ∈ first.branch, branch.Agrees config bound here
  firstWaits : first.Stepwise True
  secondWaits : second.Stepwise True

/-- A render that ends alike wherever it takes place: if it ends with values twice, with
stores that are parts of `bound` by then, the values are the same. -/
structure Render.Agrees {α : Type} (render : Render α) : Prop where
  stepwise : render.Stepwise True
  alike : ∀ {joined collecting : Prop} {left right : Scope} {first second : State}
    {value other : α} {firstAfter secondAfter : State},
    left.Alike here joined collecting right →
      first.Alike config bound here joined collecting second →
        render (left.built config) first = (.ok value, firstAfter) →
          render (right.built config) second = (.ok other, secondAfter) →
            firstAfter.ledger.assets.PartOf bound → secondAfter.ledger.assets.PartOf bound →
              value = other ∧ firstAfter.Alike config bound here joined collecting secondAfter

/-! ## Views -/

mutual

/-- Nothing in the view is a component, and what mentions the place where it is rendered
occurs only if `here` holds: routes, links, placeholders of regions, and buttons that
refresh islands. -/
def View.Secluded (here : Prop) : View → Prop
  | .blank | .text _ | .raw _ | .redirect _ | .metaTag _ | .stylesheet .. | .script _ => True
  | .group children | .element _ _ children | .switch _ _ children | .head children
  | .submit _ _ children => View.AllSecluded here children
  | .conditional _ _ body none => View.AllSecluded here body
  | .conditional _ _ body (some otherwise) => View.AllSecluded here body ∧ otherwise.Secluded here
  | .alternative branch => branch.Secluded here
  | .loop _ body => ∀ element position, (body element position).Secluded here
  | .route _ _ children | .link _ _ _ children => here ∧ View.AllSecluded here children
  | .dataRoute _ _ _ body => here ∧ ∀ source, (body source).Secluded here
  | .shell _ tags children => View.AllSecluded here tags ∧ View.AllSecluded here children
  | .remote _ template fallback =>
      here ∧ (∀ root, (template root).Secluded here) ∧ fallback.Secluded here
  | .form action refresh _ children =>
      ((refresh.islandIds action).isEmpty = false → here) ∧ View.AllSecluded here children
  | .quickButton action refresh _ hidden _ children =>
      ((refresh.islandIds action).isEmpty = false → here) ∧ View.AllSecluded here hidden ∧
        View.AllSecluded here children
  | .component .. => False

def View.AllSecluded (here : Prop) : List View → Prop
  | [] => True
  | first :: rest => first.Secluded here ∧ View.AllSecluded here rest

end

/-! ## Scopes and ledgers -/

/-- A request that is answered in the same way in scopes and with ledgers alike. Islands
and fragments may be others, and a name may be that of an asset in one store only. -/
def Request.Shared : Request → Prop
  | .config | .fragmentCount | .islandFragment _ | .lookupAsset _ => False
  | _ => True

/-- A build stores an asset with a name, and marks its address as used. -/
theorem Ledger.storeAsset_named (ledger : Ledger) (contents : String) {name : String}
    (kind : AssetKind) (named : name.isEmpty = false) :
    ledger.storeAsset .build contents name kind =
      .ok ({ ledger with assets := ledger.assets.add (ledger.assets.place contents name kind) }.useUrl
        (ledger.assets.place contents name kind).url, (ledger.assets.place contents name kind).url) := by
  simp only [storeAsset, ledger.assets.register_of_named contents kind named]

/-- Stores and used addresses are not seen. -/
theorem Ledger.Alike.used {collecting : Prop} {first second : Ledger}
    (ledgers : first.Alike collecting second) (assets others : Asset.Store) (url other : String) :
    Ledger.Alike collecting ({ first with assets }.useUrl url)
      ({ second with assets := others }.useUrl other) := by
  unfold useUrl
  split <;> split <;> exact ⟨ledgers.numbering, ledgers.routes, ledgers.metaTags⟩

namespace Scope.Alike

variable {here joined collecting : Prop} {left right : Scope}

theorem inConditional (alike : left.Alike here joined collecting right) :
    left.inConditional.Alike here True collecting right.inConditional :=
  { alike with conditional := rfl, joins := fun _ => trivial }

theorem outsideConditional (alike : left.Alike here joined collecting right) :
    left.outsideConditional.Alike here joined collecting right.outsideConditional :=
  { alike with conditional := rfl, joins := by simp [Scope.outsideConditional] }

theorem inShell (alike : left.Alike here joined collecting right) :
    left.inShell.Alike here joined True right.inShell :=
  { alike with shell := rfl, collects := fun _ => trivial }

theorem detached (alike : left.Alike here joined collecting right) :
    left.detached.Alike here joined collecting right.detached :=
  { alike with
    conditional := rfl
    shell := rfl
    joins := by simp [Scope.detached]
    collects := by simp [Scope.detached] }

theorem inForm (alike : left.Alike here joined collecting right) {form : OpenForm}
    (refreshes : form.islands.isEmpty = false → here) :
    (left.inForm form).Alike here joined collecting (right.inForm form) :=
  { alike with
    form := rfl
    refreshes := by
      rintro _ ⟨⟩
      exact refreshes }

theorem inRouter (alike : left.Alike here joined collecting right) (id : String) :
    (left.inRouter id).Alike here joined collecting (right.inRouter id) :=
  { alike with
    place := fun same => ⟨(alike.place same).1, (alike.place same).2.1, rfl⟩ }

theorem enter (alike : left.Alike here joined collecting right) (path : String) :
    (left.enter path).Alike here joined collecting (right.enter path) :=
  { alike with
    place := by
      intro same
      obtain ⟨current, selected, container⟩ := alike.place same
      exact ⟨congrArg (·.extend path) current, congrArg (List.drop _) selected, container⟩ }

end Scope.Alike

namespace State.Alike

variable {config : Config} {bound : Asset.Store} {here joined collecting : Prop}
  {first second : State}

/-- The ledgers change, and no branch is left or taken. -/
theorem withLedger (alike : first.Alike config bound here joined collecting second)
    {inner : Prop} {firstLedger secondLedger : Ledger}
    (ledgers : firstLedger.Alike inner secondLedger) :
    State.Alike config bound here joined inner { first with ledger := firstLedger }
      { second with ledger := secondLedger } :=
  { ledger := ledgers, branch := alike.branch, agrees := alike.agrees
    firstWaits := alike.firstWaits, secondWaits := alike.secondWaits }

/-- No branch waits inside of a conditional that is entered. -/
theorem withoutBranch (alike : first.Alike config bound here joined collecting second) :
    State.Alike config bound here True collecting { first with branch := none }
      { second with branch := none } where
  ledger := alike.ledger
  branch := fun _ => rfl
  agrees := by simp
  firstWaits := by simp [State.Stepwise]
  secondWaits := by simp [State.Stepwise]

/-- Behind a conditional, what waited in front of it waits again. -/
theorem withBranches (alike : first.Alike config bound here joined collecting second)
    {inner : Prop} {firstInner secondInner : State}
    (ledgers : firstInner.Alike config bound here inner collecting secondInner) :
    State.Alike config bound here joined collecting { firstInner with branch := first.branch }
      { secondInner with branch := second.branch } where
  ledger := ledgers.ledger
  branch := alike.branch
  agrees := alike.agrees
  firstWaits := alike.firstWaits
  secondWaits := alike.secondWaits

theorem ofLedger {firstLedger secondLedger : Ledger}
    (ledgers : firstLedger.Alike collecting secondLedger) :
    State.Alike config bound here joined collecting (.ofLedger firstLedger)
      (.ofLedger secondLedger) where
  ledger := ledgers
  branch := fun _ => rfl
  agrees := by simp [State.ofLedger]
  firstWaits := State.stepwise_ofLedger True firstLedger
  secondWaits := State.stepwise_ofLedger True secondLedger

end State.Alike

/-! ## Operations -/

namespace Render.Agrees

variable {α β : Type} {config : Config} {bound : Asset.Store} {here : Prop}

theorem value (value : α) : (pure value : Render α).Agrees config bound here where
  stepwise := .pure value
  alike := by
    rintro _ _ _ _ _ _ _ _ _ _ - states ⟨⟩ ⟨⟩ - -
    exact ⟨rfl, states⟩

/-- Two faults are nothing to compare. -/
theorem fault (fault : Fault) : (Render.fail fault : Render α).Agrees config bound here where
  stepwise := .fail fault
  alike := by
    rintro _ _ _ _ _ _ _ _ _ _ - - ⟨⟩

theorem misuse (construct : Construct) (reason : String) :
    (Render.misuse construct reason : Render α).Agrees config bound here :=
  fault _

/-- What a render leaves of a store when it is over, it found there in part. -/
theorem partOf {render : Render α} (agrees : render.Agrees config bound here) {scope : Scope}
    {state after : State} {value : α} (waits : state.Stepwise True)
    (outcome : render (scope.built config) state = (.ok value, after))
    (part : after.ledger.assets.PartOf bound) : state.ledger.assets.PartOf bound := by
  have steps := (agrees.stepwise (scope.built config) state waits).1
  rw [outcome] at steps
  exact (Ledger.Steps.grows steps).assets.trans part

theorem sequence {first : Render α} {next : α → Render β}
    (firstAgrees : first.Agrees config bound here)
    (nextAgrees : ∀ value, (next value).Agrees config bound here) :
    (first >>= next).Agrees config bound here where
  stepwise := .bind firstAgrees.stepwise fun value => (nextAgrees value).stepwise
  alike := by
    intro joined collecting left right firstState secondState value other firstAfter secondAfter
      scopes states outcome otherOutcome part otherPart
    obtain ⟨early, middle, began, ended⟩ := ok_of_bind outcome
    obtain ⟨otherEarly, otherMiddle, otherBegan, otherEnded⟩ := ok_of_bind otherOutcome
    have waits := firstAgrees.stepwise.waits states.firstWaits began
    have otherWaits := firstAgrees.stepwise.waits states.secondWaits otherBegan
    obtain ⟨rfl, middles⟩ := firstAgrees.alike scopes states began otherBegan
      ((nextAgrees early).partOf waits ended part)
      ((nextAgrees otherEarly).partOf otherWaits otherEnded otherPart)
    exact (nextAgrees early).alike scopes middles ended otherEnded part otherPart

/-- A render that goes on in the same way in scopes alike. -/
theorem reading {next : Setting → Render α}
    (same : ∀ {joined collecting : Prop} {left right : Scope},
      left.Alike here joined collecting right →
        next (left.built config) = next (right.built config))
    (stepwise : (Render.setting >>= next).Stepwise True)
    (agrees : ∀ scope : Scope, scope.building = true →
      (next (scope.built config)).Agrees config bound here) :
    (Render.setting >>= next).Agrees config bound here where
  stepwise := stepwise
  alike := by
    intro joined collecting left right first second value other firstAfter secondAfter
      scopes states outcome otherOutcome
    rw [setting_bind] at outcome otherOutcome
    simp only at outcome otherOutcome
    rw [← same scopes] at otherOutcome
    exact (agrees left scopes.building.1).alike scopes states outcome otherOutcome

theorem modifyGet {change : Setting → Ledger → α × Ledger}
    (stepwise : (Render.modifyGet change).Stepwise True)
    (alike : ∀ {collecting : Prop} (left right : Scope) {first second : Ledger},
      first.Alike collecting second →
        (change (left.built config) first).2.assets.PartOf bound →
          (change (right.built config) second).2.assets.PartOf bound →
            (change (left.built config) first).1 = (change (right.built config) second).1 ∧
              (change (left.built config) first).2.Alike collecting
                (change (right.built config) second).2) :
    (Render.modifyGet change).Agrees config bound here where
  stepwise := stepwise
  alike := by
    rintro joined collecting left right first second _ _ _ _ - states ⟨⟩ ⟨⟩ part otherPart
    obtain ⟨same, ledgers⟩ := alike left right states.ledger part otherPart
    exact ⟨same, states.withLedger ledgers⟩

theorem inScope {change : Scope → Scope} {render : Render α}
    (keeps : ∀ {joined collecting : Prop} {left right : Scope},
      left.Alike here joined collecting right →
        (change left).Alike here joined collecting (change right))
    (agrees : render.Agrees config bound here) :
    (Render.inScope change render).Agrees config bound here where
  stepwise := .inScope change agrees.stepwise
  alike := fun scopes states outcome otherOutcome =>
    agrees.alike (keeps scopes) states outcome otherOutcome

theorem within (component : String) {render : Render α}
    (agrees : render.Agrees config bound here) :
    (Render.within component render).Agrees config bound here where
  stepwise := (Stepwise.closed True).within component agrees.stepwise
  alike := fun scopes states outcome otherOutcome =>
    agrees.alike scopes states (ok_of_within outcome) (ok_of_within otherOutcome)

theorem construct (construct : Construct) {render : Render α}
    (agrees : render.Agrees config bound here) :
    (Render.construct construct render).Agrees config bound here :=
  within _ agrees

theorem element (tag : String) (attributes : Attributes) {content : Render String}
    (agrees : content.Agrees config bound here) :
    (Render.element tag attributes content).Agrees config bound here :=
  sequence agrees fun _ => value _

theorem inDocument (numbering : Numbering) {render : Render α}
    (agrees : render.Agrees config bound here) :
    (Render.inDocument numbering render).Agrees config bound here where
  stepwise := .inDocument numbering agrees.stepwise
  alike := by
    intro joined collecting left right first second value other firstAfter secondAfter
      scopes states outcome otherOutcome part otherPart
    obtain ⟨began, rfl⟩ := Prod.mk.inj outcome
    obtain ⟨otherBegan, rfl⟩ := Prod.mk.inj otherOutcome
    have inside : State.Alike config bound here joined collecting
        { first with ledger := { first.ledger with numbering } }
        { second with ledger := { second.ledger with numbering } } :=
      states.withLedger
        { numbering := rfl, routes := states.ledger.routes, metaTags := states.ledger.metaTags }
    obtain ⟨same, after⟩ := agrees.alike scopes.detached inside (Prod.ext began rfl)
      (Prod.ext otherBegan rfl) part otherPart
    exact ⟨same, after.withLedger
      { numbering := states.ledger.numbering, routes := after.ledger.routes
        metaTags := after.ledger.metaTags }⟩

theorem collectMetaTags {render : Render α} (agrees : render.Agrees config bound here) :
    (Render.collectMetaTags render).Agrees config bound here where
  stepwise := .collectMetaTags agrees.stepwise
  alike := by
    intro joined collecting left right first second value other firstAfter secondAfter
      scopes states outcome otherOutcome part otherPart
    obtain ⟨text, inner, began, rfl, rfl⟩ := ok_of_collectMetaTags outcome
    obtain ⟨otherText, otherInner, otherBegan, rfl, rfl⟩ := ok_of_collectMetaTags otherOutcome
    have inside : State.Alike config bound here joined True
        { first with ledger := { first.ledger with metaTags := [] } }
        { second with ledger := { second.ledger with metaTags := [] } } :=
      states.withLedger
        { numbering := states.ledger.numbering, routes := states.ledger.routes
          metaTags := fun _ => rfl }
    obtain ⟨rfl, after⟩ := agrees.alike scopes.inShell inside began otherBegan part otherPart
    rw [after.ledger.metaTags trivial]
    exact ⟨rfl, after.withLedger
      { numbering := after.ledger.numbering, routes := after.ledger.routes
        metaTags := states.ledger.metaTags }⟩

theorem ofBranch {branch : Branch} (agrees : branch.Agrees config bound here) :
    (Render.ofBranch branch).Agrees config bound here where
  stepwise := .ofBranch agrees.stepwise
  alike := by
    intro joined collecting left right first second value other firstAfter secondAfter
      scopes states outcome otherOutcome part otherPart
    obtain ⟨ended, rfl⟩ := Prod.mk.inj outcome
    obtain ⟨otherEnded, rfl⟩ := Prod.mk.inj otherOutcome
    obtain ⟨same, ledgers⟩ := agrees.alike scopes states.ledger (Prod.ext ended rfl)
      (Prod.ext otherEnded rfl) part otherPart
    exact ⟨same, states.withLedger ledgers⟩

theorem toBranch {render : Render String} (agrees : render.Agrees config bound here) :
    render.toBranch.Agrees config bound here where
  stepwise := Stepwise.toBranch agrees.stepwise
  alike := by
    intro joined collecting left right first second value other firstAfter secondAfter
      scopes ledgers outcome otherOutcome part otherPart
    obtain ⟨ended, rfl⟩ := Prod.mk.inj outcome
    obtain ⟨otherEnded, rfl⟩ := Prod.mk.inj otherOutcome
    obtain ⟨same, states⟩ := agrees.alike scopes (.ofLedger ledgers) (Prod.ext ended rfl)
      (Prod.ext otherEnded rfl) part otherPart
    exact ⟨same, states.ledger⟩

/-- Two markers in conditionals alike leave their branch, or find one in the way. -/
theorem alternative {branch : Render String} (agrees : branch.Agrees config bound here) :
    (Render.alternative branch).Agrees config bound here where
  stepwise := (Stepwise.closed True).alternative agrees.stepwise
  alike := by
    intro joined collecting left right first second value other firstAfter secondAfter
      scopes states outcome otherOutcome part otherPart
    simp only [Render.alternative, setting_bind] at outcome otherOutcome
    have conditional : (right.built config).scope.conditional = (left.built config).scope.conditional :=
      scopes.conditional.symm
    rw [conditional] at otherOutcome
    cases inside : (left.built config).scope.conditional with
    | false =>
        rw [inside] at outcome
        cases outcome
    | true =>
        have joined := scopes.joins inside
        rw [inside] at outcome otherOutcome
        obtain ⟨accepted, middle, began, ended⟩ := ok_of_bind outcome
        obtain ⟨otherAccepted, otherMiddle, otherBegan, otherEnded⟩ := ok_of_bind otherOutcome
        unfold leaveBranch at began otherBegan
        rw [← states.branch joined] at otherBegan
        cases taken : first.branch with
        | some waiting =>
            simp only [taken] at began
            obtain ⟨⟨⟩, rfl⟩ := Prod.mk.inj began
            cases ended
        | none =>
            simp only [taken] at began otherBegan
            obtain ⟨⟨⟩, rfl⟩ := Prod.mk.inj began
            obtain ⟨⟨⟩, rfl⟩ := Prod.mk.inj otherBegan
            obtain ⟨⟨⟩, rfl⟩ := Prod.mk.inj ended
            obtain ⟨⟨⟩, rfl⟩ := Prod.mk.inj otherEnded
            refine ⟨rfl, states.ledger, fun _ => rfl, ?_, ?_, ?_⟩
            · rintro - _ ⟨⟩
              exact toBranch agrees
            · rintro _ ⟨⟩
              exact Stepwise.toBranch agrees.stepwise
            · rintro _ ⟨⟩
              exact Stepwise.toBranch agrees.stepwise

theorem ok_of_collectBranch {render : Render α} {setting : Setting} {state after : State}
    {result : α × Option Branch}
    (outcome : Render.collectBranch render setting state = (.ok result, after)) :
    ∃ value inner, Render.inScope Scope.inConditional render setting
        { state with branch := none } = (.ok value, inner) ∧
      result = (value, inner.branch) ∧ after = { inner with branch := state.branch } := by
  unfold Render.collectBranch at outcome
  split at outcome
  · next value inner ended =>
    obtain ⟨results, rfl⟩ := Prod.mk.inj outcome
    exact ⟨value, inner, ended, (Except.ok.inj results).symm, rfl⟩
  · cases outcome

/-- The branches that two conditionals collect are the same one. -/
theorem collectBranch {render : Render α} {next : α × Option Branch → Render β}
    (agrees : render.Agrees config bound here)
    (nextSteps : ∀ value left, (∀ branch ∈ left, (Render.ofBranch branch).Stepwise True) →
      (next (value, left)).Stepwise True)
    (nextAgrees : ∀ value left, (∀ branch ∈ left, branch.Agrees config bound here) →
      (next (value, left)).Agrees config bound here) :
    (Render.collectBranch render >>= next).Agrees config bound here where
  stepwise := .collectBranch agrees.stepwise nextSteps
  alike := by
    intro joined collecting left right first second value other firstAfter secondAfter
      scopes states outcome otherOutcome part otherPart
    obtain ⟨result, middle, began, ended⟩ := ok_of_bind outcome
    obtain ⟨otherResult, otherMiddle, otherBegan, otherEnded⟩ := ok_of_bind otherOutcome
    obtain ⟨text, inner, body, rfl, rfl⟩ := ok_of_collectBranch began
    obtain ⟨otherText, otherInner, otherBody, rfl, rfl⟩ := ok_of_collectBranch otherBegan
    have inside := states.withoutBranch
    -- The stores of the bodies are parts of the later ones, since what follows only adds.
    have parted : ∀ {scope : Scope} {state inner final : State} {text : α} {result : β},
        State.Stepwise True { state with branch := none } → state.Stepwise True →
          Render.inScope Scope.inConditional render (scope.built config)
              { state with branch := none } = (.ok text, inner) →
            next (text, inner.branch) (scope.built config) { inner with branch := state.branch } =
              (.ok result, final) →
              final.ledger.assets.PartOf bound → inner.ledger.assets.PartOf bound := by
      intro scope state inner final text result waits outerWaits body ended part
      have innerWaits := (Stepwise.inScope _ agrees.stepwise).waits waits body
      have steps := (nextSteps text inner.branch
        (fun branch left => .ofBranch (innerWaits branch left)) (scope.built config)
        { inner with branch := state.branch } outerWaits).1
      rw [ended] at steps
      exact (Ledger.Steps.grows steps).assets.trans part
    obtain ⟨rfl, bodies⟩ := agrees.alike scopes.inConditional inside body otherBody
      (parted inside.firstWaits states.firstWaits body ended part)
      (parted inside.secondWaits states.secondWaits otherBody otherEnded otherPart)
    rw [← bodies.branch trivial] at otherEnded
    exact (nextAgrees text inner.branch (bodies.agrees trivial)).alike scopes
      (states.withBranches bodies) ended otherEnded part otherPart

/-! ## Requests -/

/-- Whatever is replied to the request and changed for it, two ledgers alike stay so. -/
theorem reply (request : Request) (shared : request.Shared) :
    request.reply.Agrees config bound here := by
  cases request with
  | loopNames =>
      refine modifyGet (.anyReply .loopNames) ?_
      rintro collecting left right first second ledgers - -
      rw [ledgers.numbering]
      exact ⟨rfl, rfl, ledgers.routes, ledgers.metaTags⟩
  | formId =>
      refine modifyGet (.anyReply .formId) ?_
      rintro collecting left right first second ledgers - -
      rw [ledgers.numbering]
      exact ⟨rfl, rfl, ledgers.routes, ledgers.metaTags⟩
  | resource name =>
      refine modifyGet (.anyReply (.resource name)) ?_
      rintro collecting left right first second ledgers - -
      exact ⟨rfl, ledgers.numbering, ledgers.routes, ledgers.metaTags⟩
  | note key value =>
      refine modifyGet (.anyReply (.note key value)) ?_
      rintro collecting left right first second ledgers - -
      exact ⟨rfl, ledgers.numbering, ledgers.routes, ledgers.metaTags⟩
  | storeTemplate name template =>
      refine modifyGet (.anyReply (.storeTemplate name template)) ?_
      rintro collecting left right first second ledgers - -
      exact ⟨rfl, ledgers.numbering, ledgers.routes, ledgers.metaTags⟩
  | recordIsland record =>
      refine modifyGet (.anyReply (.recordIsland record)) ?_
      rintro collecting left right first second ledgers - -
      exact ⟨rfl, ledgers.numbering, ledgers.routes, ledgers.metaTags⟩
  | containerOf route =>
      refine modifyGet (.anyReply (.containerOf route)) ?_
      rintro collecting left right first second ledgers - -
      exact ⟨congrArg (·.containerOf route) ledgers.routes, ledgers⟩
  | addRoute route title container =>
      refine modifyGet (.anyReply (.addRoute route title container)) ?_
      rintro collecting left right first second ledgers - -
      simp only [Scope.built, Ledger.addRoute]
      exact ⟨trivial, ledgers⟩
  | seeContainer container =>
      refine modifyGet (.anyReply (.seeContainer container)) ?_
      rintro collecting left right first second ledgers - -
      exact ⟨rfl, ledgers⟩
  | storeAsset contents name kind =>
      refine modifyGet (.anyReply (.storeAsset contents name kind)) ?_
      intro collecting left right first second ledgers part otherPart
      cases named : name.isEmpty with
      | true =>
          simp only [Ledger.storeAsset, Asset.Store.register, named, Scope.built, if_true]
          exact ⟨trivial, ledgers⟩
      | false =>
          have shape := fun ledger : Ledger => ledger.storeAsset_named contents kind named
          simp only [Scope.built, shape, Ledger.assets_useUrl] at part otherPart ⊢
          -- Both stores place the content where the later one does.
          have places : first.assets.place contents name kind =
              second.assets.place contents name kind := by
            have early := (Asset.Store.partOf_add _ _).trans part
            have otherEarly := (Asset.Store.partOf_add _ _).trans otherPart
            rw [← Asset.Store.place_congr early.staticUrl early.directory,
              Asset.Store.place_congr otherEarly.staticUrl otherEarly.directory]
          rw [places]
          exact ⟨rfl, ledgers.used _ _ _ _⟩
  | fragmentCount => exact shared.elim
  | islandFragment id => exact shared.elim
  | lookupAsset name => exact shared.elim
  | config => exact shared.elim

/-! ## Conditionals and loops -/

theorem alternativeText {chosen : Option (Render String)}
    (agrees : ∀ render ∈ chosen, render.Agrees config bound here) :
    (Render.alternativeText chosen).Agrees config bound here := by
  cases chosen with
  | none => exact value none
  | some render =>
      exact sequence (inScope (·.outsideConditional) (agrees render rfl)) fun _ => value _

theorem conditional (condition : Expr) (negated : Bool) {body : Render String}
    {otherwise : Option (Render String)} (bodyAgrees : body.Agrees config bound here)
    (otherwiseAgrees : ∀ render ∈ otherwise, render.Agrees config bound here) :
    (Render.conditional condition negated body otherwise).Agrees config bound here := by
  unfold Render.conditional
  split
  · exact misuse _ _
  · refine collectBranch bodyAgrees ?_ ?_
    · intro text left leftSteps
      exact (Stepwise.closed True).afterBody condition negated text
        (fun render given => (otherwiseAgrees render given).stepwise) leftSteps
    · intro text left leftAgrees
      have written : ∀ chosen : Option (Render String),
          (∀ render ∈ chosen, render.Agrees config bound here) →
            (Render.alternativeText chosen >>= fun alternative =>
              pure (ifBlock (condition.header negated) negated text alternative)).Agrees config
                bound here :=
        fun _ agrees => sequence (alternativeText agrees) fun _ => value _
      cases otherwise with
      | none =>
          cases left with
          | none => exact written none (by simp)
          | some branch =>
              refine written (some (Render.ofBranch branch)) ?_
              rintro _ ⟨⟩
              exact ofBranch (leftAgrees branch rfl)
      | some given =>
          cases left with
          | none => exact written (some given) otherwiseAgrees
          | some branch => exact misuse _ _

theorem loop (source : DataRef) {body : (element position : DataRef) → Render String}
    (agrees : ∀ element position, (body element position).Agrees config bound here) :
    (Render.loop source body).Agrees config bound here :=
  sequence (reply .loopNames trivial) fun _ => sequence (agrees _ _) fun _ => value _

/-! ## Forms -/

theorem requireNoForm (construct : Construct) :
    (Render.requireNoForm construct).Agrees config bound here := by
  refine reading ?_ ((Stepwise.closed True).requireNoForm construct) ?_
  · intro joined collecting left right scopes
    have form : (left.built config).scope.form = (right.built config).scope.form := scopes.form
    rw [form]
  · intro scope building
    split
    · exact misuse _ _
    · exact value _

theorem form {action : Action} {refresh : Refresh} (attributes : Attributes)
    {children : Render String} (refreshes : (refresh.islandIds action).isEmpty = false → here)
    (agrees : children.Agrees config bound here) :
    (Render.form action refresh attributes children).Agrees config bound here :=
  sequence (requireNoForm _) fun _ => sequence (reply .formId trivial) fun _ =>
    inScope (·.inForm refreshes) (element _ _ agrees)

/-- A button mentions the current path only if islands are refreshed. -/
theorem buttonAttributes_congr {islands : List String} {left right : Path}
    (same : islands.isEmpty = false → left = right) (action : Action) (formId : String)
    (items : List Value) (attributes : Attributes) :
    action.buttonAttributes formId left.text islands items attributes =
      action.buttonAttributes formId right.text islands items attributes := by
  unfold Action.buttonAttributes
  cases refreshes : islands.isEmpty with
  | true => simp only [if_true]
  | false => rw [same refreshes]

theorem submit (action : Action) (attributes : Attributes) {children : Render String}
    (agrees : children.Agrees config bound here) :
    (Render.submit action attributes children).Agrees config bound here := by
  refine reading ?_ ((Stepwise.closed True).submit action attributes agrees.stepwise) ?_
  · intro joined collecting left right scopes
    have form : (right.built config).scope.form = (left.built config).scope.form :=
      scopes.form.symm
    rw [form]
    cases around : (left.built config).scope.form with
    | none => rfl
    | some form =>
        have same := buttonAttributes_congr
          (fun refreshes => (scopes.place (scopes.refreshes form around refreshes)).1)
          action form.id form.items attributes
        simp only [Scope.built, same]
  · intro scope building
    split
    · exact misuse _ _
    · split
      · exact element _ _ agrees
      · exact misuse _ _

theorem quickButton {action : Action} {refresh : Refresh} (formAttributes : Attributes)
    {hidden : Render String} (attributes : Attributes) {children : Render String}
    (refreshes : (refresh.islandIds action).isEmpty = false → here)
    (hiddenAgrees : hidden.Agrees config bound here)
    (childrenAgrees : children.Agrees config bound here) :
    (Render.quickButton action refresh formAttributes hidden attributes children).Agrees config
      bound here := by
  refine sequence (requireNoForm _) fun _ => sequence (reply .formId trivial) fun id => ?_
  refine reading ?_ ?_ ?_
  · intro joined collecting left right scopes
    have same := buttonAttributes_congr (fun asked => (scopes.place (refreshes asked)).1)
      action id refresh.items attributes
    simp only [Scope.built, same]
  · have closed := Stepwise.closed True
    exact closed.readingScope (fun _ => rfl) fun scope _ =>
      closed.element _ _ (closed.sequence hiddenAgrees.stepwise fun _ =>
        closed.sequence (closed.element _ _ childrenAgrees.stepwise) fun _ => closed.value _)
  · intro scope building
    exact element _ _ (sequence hiddenAgrees fun _ =>
      sequence (element _ _ childrenAgrees) fun _ => value _)

/-! ## Regions -/

theorem compileTemplate (resource : String) {template : Render String}
    (agrees : template.Agrees config bound here) :
    (Render.compileTemplate resource template).Agrees config bound here :=
  sequence (inDocument _ agrees) fun text => reply (.storeTemplate resource text) trivial

theorem recordRegion (region : Region) (handle : Handle) :
    (Render.recordRegion region handle).Agrees config bound here := by
  unfold Render.recordRegion
  split
  · exact reply (.recordIsland _) trivial
  · exact value ()

theorem remote (region : Region) {template : DataRef → Render String} {fallback : Render String}
    (same : here) (templateAgrees : ∀ root, (template root).Agrees config bound here)
    (fallbackAgrees : fallback.Agrees config bound here) :
    (Render.remote region template fallback).Agrees config bound here := by
  refine reading ?_ ((Stepwise.closed True).remote region
    (fun root => (templateAgrees root).stepwise) fallbackAgrees.stepwise) ?_
  · intro joined collecting left right scopes
    simp only [Scope.built, placeholder, (scopes.place same).1]
  · intro scope building
    refine sequence (compileTemplate _ (templateAgrees _)) fun handle => ?_
    refine sequence (recordRegion region handle) fun _ => ?_
    exact element _ _ fallbackAgrees

/-! ## Routes -/

theorem switch (id : String) (attributes : Attributes) {children : Render String}
    (agrees : children.Agrees config bound here) :
    (Render.switch id attributes children).Agrees config bound here :=
  sequence (reply (.seeContainer id) trivial) fun _ =>
    inScope (·.inRouter id) (element _ _ agrees)

theorem route (path title : String) {content : Render String} (same : here)
    (agrees : content.Agrees config bound here) :
    (Render.route path title content).Agrees config bound here := by
  refine reading ?_ ((Stepwise.closed True).route path title agrees.stepwise) ?_
  · intro joined collecting left right scopes
    obtain ⟨current, selected, container⟩ := scopes.place same
    have selects : (left.built config).scope.selects path =
        (right.built config).scope.selects path := by
      simp only [Scope.built, Scope.selects, selected]
    have inside : (left.built config).scope.container = (right.built config).scope.container :=
      container
    have stands : (left.built config).scope.current = (right.built config).scope.current := current
    rw [inside, selects, stands]
  · intro scope building
    split
    · exact misuse _ _
    · refine sequence (reply (.addRoute _ _ _) trivial) fun _ => ?_
      split
      · exact inScope (·.enter path) agrees
      · exact value _

theorem withResource (resource : String) {content : DataRef → Render String}
    (agrees : ∀ source, (content source).Agrees config bound here) :
    (Render.withResource resource content).Agrees config bound here :=
  sequence (reply (.resource resource) trivial) fun _ => agrees _

theorem link (target : String) (locale : Option String) (attributes : Attributes)
    {children : Render String} (same : here) (agrees : children.Agrees config bound here) :
    (Render.link target locale attributes children).Agrees config bound here := by
  refine reading ?_ ((Stepwise.closed True).link target locale attributes agrees.stepwise) ?_
  · intro joined collecting left right scopes
    simp only [Scope.built, (scopes.place same).1]
  · intro scope building
    exact sequence (reply (.containerOf _) trivial) fun _ => element _ _ agrees

theorem redirect (target : String) : (Render.redirect target).Agrees config bound here :=
  sequence (reply (.note _ _) trivial) fun _ =>
    sequence (reply (.note _ _) trivial) fun _ => value _

/-! ## The document around a page -/

theorem head {content : Render String} (agrees : content.Agrees config bound here) :
    (Render.head content).Agrees config bound here :=
  element _ _ (sequence agrees fun _ => value _)

theorem shell (morph : Bool) {headContent children : Render String}
    (headAgrees : headContent.Agrees config bound here)
    (childrenAgrees : children.Agrees config bound here) :
    (Render.shell morph headContent children).Agrees config bound here :=
  sequence (collectMetaTags (element _ _ childrenAgrees)) fun _ =>
    sequence (construct _ (head (sequence headAgrees fun _ => value _))) fun _ => value _

theorem addMetaTag (attributes : Attributes) :
    (Render.addMetaTag attributes).Agrees config bound here := by
  refine modifyGet ((Stepwise.closed True).addMetaTag attributes) ?_
  rintro collecting left right first second ledgers - -
  exact ⟨rfl, ledgers.numbering, ledgers.routes,
    fun collects => congrArg (· ++ [attributes]) (ledgers.metaTags collects)⟩

theorem metaTag (attributes : Attributes) :
    (Render.metaTag attributes).Agrees config bound here := by
  refine reading ?_ ((Stepwise.closed True).metaTag attributes) ?_
  · intro joined collecting left right scopes
    have shell : (left.built config).scope.shell = (right.built config).scope.shell :=
      scopes.shell
    rw [shell]
  · intro scope building
    split
    · exact sequence (addMetaTag _) fun _ => value _
    · exact misuse _ _

theorem storeAsset (contents name : String) (kind : AssetKind) :
    (Render.storeAsset contents name kind).Agrees config bound here := by
  refine sequence (reply (.storeAsset contents name kind) trivial) fun offered => ?_
  cases offered with
  | ok url => exact value url
  | error reason => exact fault reason

theorem stylesheet (name contents : String) (inlined : Bool) :
    (Render.stylesheet name contents inlined).Agrees config bound here := by
  unfold Render.stylesheet
  split
  · exact value _
  · exact sequence (storeAsset _ _ _) fun _ => value _

/-- A script that a page links by its name is found, and it has the same address in every
later store. -/
theorem found_of_script {source : ScriptSource} (byName : source.contents = none) {scope : Scope}
    (building : scope.building = true) {state after : State} {text : String}
    (outcome : Render.script source (scope.built config) state = (.ok text, after)) :
    ∃ url, state.ledger.assets.lookup? source.name = some url ∧
      text = linkedScript source.asModule url ∧
        after = { state with ledger := state.ledger.useUrl url } := by
  simp only [Render.script, byName] at outcome
  obtain ⟨found, middle, lookedUp, ended⟩ := ok_of_bind outcome
  obtain ⟨rfl, rfl⟩ : (state.ledger.lookupAsset .build source.name).2 = found ∧
      { state with ledger := (state.ledger.lookupAsset .build source.name).1 } = middle := by
    obtain ⟨value, changed⟩ := Prod.mk.inj lookedUp
    exact ⟨Except.ok.inj value, changed⟩
  simp only [Ledger.lookupAsset] at ended ⊢
  cases known : state.ledger.assets.lookup? source.name with
  | none =>
      simp only [known, setting_bind, Scope.built, building, if_true] at ended
      cases ended
  | some url =>
      simp only [known] at ended
      obtain ⟨⟨⟩, rfl⟩ := Prod.mk.inj ended
      exact ⟨url, rfl, rfl, rfl⟩

theorem linkedByName (source : ScriptSource) (byName : source.contents = none) :
    (Render.script source).Agrees config bound here where
  stepwise := (Stepwise.closed True).script source
  alike := by
    intro joined collecting left right first second value other firstAfter secondAfter
      scopes states outcome otherOutcome part otherPart
    obtain ⟨url, known, rfl, rfl⟩ := found_of_script byName scopes.building.1 outcome
    obtain ⟨otherUrl, otherKnown, rfl, rfl⟩ :=
      found_of_script byName scopes.building.2 otherOutcome
    rw [Ledger.assets_useUrl] at part otherPart
    have same : some url = some otherUrl :=
      (part.lookup? known).symm.trans (otherPart.lookup? otherKnown)
    obtain rfl := Option.some.inj same
    exact ⟨rfl, states.withLedger (states.ledger.used first.ledger.assets second.ledger.assets _ _)⟩

theorem script (source : ScriptSource) : (Render.script source).Agrees config bound here := by
  cases given : source.contents with
  | none => exact linkedByName source given
  | some contents =>
      simp only [Render.script, given]
      split
      · exact value _
      · exact sequence (storeAsset _ _ _) fun _ => value _

end Render.Agrees

section Induction

variable {config : Config} {bound : Asset.Store} {here : Prop}

mutual

/-- Two renders of a secluded view in one build give one text. -/
theorem View.render_agrees : ∀ view : View, view.Secluded here →
    view.render.Agrees config bound here
  | .blank, _ => .value _
  | .text _, _ => .value _
  | .raw _, _ => .value _
  | .group children, secluded => View.renderAll_agrees children secluded
  | .element _ _ children, secluded => .element _ _ (View.renderAll_agrees children secluded)
  | .conditional _ _ body none, secluded =>
      .construct _ (.conditional _ _ (View.renderAll_agrees body secluded) (by simp))
  | .conditional _ _ body (some otherwise), secluded =>
      .construct _ (.conditional _ _ (View.renderAll_agrees body secluded.1)
        (by simpa using View.render_agrees otherwise secluded.2))
  | .alternative branch, secluded => .construct _ (.alternative (View.render_agrees branch secluded))
  | .loop _ body, secluded =>
      .construct _ (.loop _ fun element position =>
        View.render_agrees (body element position) (secluded element position))
  | .switch _ _ children, secluded =>
      .construct _ (.switch _ _ (View.renderAll_agrees children secluded))
  | .route _ _ children, secluded =>
      .construct _ (.route _ _ secluded.1 (View.renderAll_agrees children secluded.2))
  | .dataRoute _ _ _ body, secluded =>
      .construct _ (.route _ _ secluded.1 (.withResource _ fun source =>
        View.render_agrees (body source) (secluded.2 source)))
  | .link _ _ _ children, secluded =>
      .construct _ (.link _ _ _ secluded.1 (View.renderAll_agrees children secluded.2))
  | .redirect _, _ => .construct _ (.redirect _)
  | .shell _ tags children, secluded =>
      .construct _ (.shell _ (View.renderAll_agrees tags secluded.1)
        (View.renderAll_agrees children secluded.2))
  | .head children, secluded => .construct _ (.head (View.renderAll_agrees children secluded))
  | .metaTag _, _ => .construct _ (.metaTag _)
  | .stylesheet .., _ => .construct _ (.stylesheet _ _ _)
  | .script _, _ => .construct _ (.script _)
  | .remote region template fallback, secluded =>
      .construct _ (.remote region secluded.1
        (fun root => View.render_agrees (template root) (secluded.2.1 root))
        (View.render_agrees fallback secluded.2.2))
  | .form _ _ _ children, secluded =>
      .construct _ (.form _ secluded.1 (View.renderAll_agrees children secluded.2))
  | .submit _ _ children, secluded =>
      .construct _ (.submit _ _ (View.renderAll_agrees children secluded))
  | .quickButton _ _ _ hidden _ children, secluded =>
      .construct _ (.quickButton _ _ secluded.1 (View.renderAll_agrees hidden secluded.2.1)
        (View.renderAll_agrees children secluded.2.2))
  | .component .., secluded => secluded.elim

theorem View.renderAll_agrees : ∀ views : List View, View.AllSecluded here views →
    (View.renderAll views).Agrees config bound here
  | [], _ => .value _
  | first :: rest, secluded =>
      .sequence (View.render_agrees first secluded.1) fun _ =>
        .sequence (View.renderAll_agrees rest secluded.2) fun _ => .value _

end

end Induction

end Sitewright
