import Sitewright.Proofs.Render.Stage

/-!
Contract: the renders that take place in one document, in the order in which they start.

A page is a document, and the template of each region is another one. A render of a document
starts its parts one after another; the part of a region in the document of its host is the
fallback only. So the renders of a document are met by going through an agenda on which every
render is replaced by its parts.

Owns:
- `Stage.Parts`, the renders that a render starts in its own document, in order;
- `Stage.Log`, all renders of a document in the order in which they start.

Does not own: what one of them hands on to the next.
-/

namespace Sitewright

open Markup Template Catalog Routing Relation

/-! ## Parts -/

/-- A task that starts one render at most. -/
def Task.isSingle : Task → Bool
  | .view (.group _) | .view (.conditional ..) | .view (.shell ..) | .view (.remote ..)
  | .view (.quickButton ..) | .program (.render ..) => false
  | _ => true

/-- A task whose markers, however deep they are, belong to the conditional around it. -/
def Task.keepsMarkers : Task → Bool
  | .view (.conditional ..) | .view (.remote ..) => false
  | _ => true

namespace Stage

/-- Views that are rendered one after another, until one of them fails. -/
inductive Siblings (setting : Setting) : List View → State → List Stage → Prop where
  | done (state : State) : Siblings setting [] state []
  | next {first : View} {rest : List View} {state after : State} {text : String}
      {later : List Stage} (rendered : first.render setting state = (.ok text, after))
      (siblings : Siblings setting rest after later) :
      Siblings setting (first :: rest) state (⟨.view first, setting, state⟩ :: later)
  | failed {first : View} {state after : State} {fault : Fault} (rest : List View)
      (failed : first.render setting state = (.error fault, after)) :
      Siblings setting (first :: rest) state [⟨.view first, setting, state⟩]

/-- A marker with the branch is rendered in the course of the render and in its document, and
no conditional is in between. -/
inductive Leaves : Stage → View → Prop where
  | marker (setting : Setting) (state : State) (branch : View) :
      Leaves ⟨.view (.alternative branch), setting, state⟩ branch
  | inside {outer inner : Stage} {branch : View} (kept : outer.task.keepsMarkers = true)
      (step : Inner outer inner) (leaves : Leaves inner branch) : Leaves outer branch
  | fallback {setting : Setting} {state after later : State} {region : Region} {handle : Handle}
      {template : DataRef → View} {fallback branch : View}
      (compiled : Render.compileTemplate region.resource (template .ofFragment).render setting
        state = (.ok handle, after))
      (recorded : Render.recordRegion region handle setting after = (.ok (), later))
      (leaves : Leaves ⟨.view fallback, setting, later⟩ branch) :
      Leaves ⟨.view (.remote region template fallback), setting, state⟩ branch

/-- The render of the body of a conditional. -/
def ofBody (setting : Setting) (state : State) (body : List View) : Stage :=
  ⟨.view (.group body), { setting with scope := setting.scope.inConditional },
    { state with branch := none }⟩

/-- The render of the body of a shell. -/
def ofShellBody (setting : Setting) (state : State) (children : List View) : Stage :=
  ⟨.view (.group children), { setting with scope := setting.scope.inShell },
    { state with ledger := { state.ledger with metaTags := [] } }⟩

/-- The renders that a render starts in its own document, in the order in which they start.
When one of them fails, it is the last one. -/
inductive Parts : Stage → List Stage → Prop where
  | group {setting : Setting} {state : State} {views : List View} {parts : List Stage}
      (siblings : Siblings setting views state parts) :
      Parts ⟨.view (.group views), setting, state⟩ parts
  | nothing {stage : Stage} (alone : ∀ inner, ¬ stage.Inner inner) : Parts stage []
  | single {stage inner : Stage} (single : stage.task.isSingle = true) (step : stage.Inner inner) :
      Parts stage [inner]
  /-- No alternative is rendered: the body fails, or there is none, or there are two. -/
  | body {condition : Expr} {setting : Setting} {state after : State} {body : List View}
      {otherwise : Option View} {result : Except Fault (String × Option Branch)} (negated : Bool)
      (writable : condition.defect? = none)
      (rendered : Render.collectBranch (View.renderAll body) setting state = (result, after))
      (last : ∀ text left, result = .ok (text, left) → left.isSome = otherwise.isSome) :
      Parts ⟨.view (.conditional condition negated body otherwise), setting, state⟩
        [ofBody setting state body]
  | otherwise {condition : Expr} {setting : Setting} {state after : State} {body : List View}
      {text : String} (negated : Bool) (otherwise : View) (writable : condition.defect? = none)
      (rendered : Render.collectBranch (View.renderAll body) setting state =
        (.ok (text, none), after)) :
      Parts ⟨.view (.conditional condition negated body (some otherwise)), setting, state⟩
        [ofBody setting state body,
          ⟨.view otherwise, { setting with scope := setting.scope.outsideConditional }, after⟩]
  | left {condition : Expr} {setting : Setting} {state after : State} {body : List View}
      {text : String} {branch : View} (negated : Bool) (writable : condition.defect? = none)
      (rendered : Render.collectBranch (View.renderAll body) setting state =
        (.ok (text, some branch.render.toBranch), after))
      (leaves : Leaves (ofBody setting state body) branch) :
      Parts ⟨.view (.conditional condition negated body none), setting, state⟩
        [ofBody setting state body,
          ⟨.view branch, { setting with scope := setting.scope.outsideConditional },
            .ofLedger after.ledger⟩]
  | shellBody {setting : Setting} {state after : State} {morph : Bool} {children : List View}
      {fault : Fault} (head : List View)
      (failed : Render.collectMetaTags
        (Render.element "body" (Render.bodyAttributes morph) (View.renderAll children))
        setting state = (.error fault, after)) :
      Parts ⟨.view (.shell morph head children), setting, state⟩
        [ofShellBody setting state children]
  | shellHead {setting : Setting} {state after : State} {morph : Bool} {children : List View}
      {collected : String × List Attributes} (head : List View)
      (rendered : Render.collectMetaTags
        (Render.element "body" (Render.bodyAttributes morph) (View.renderAll children))
        setting state = (.ok collected, after)) :
      Parts ⟨.view (.shell morph head children), setting, state⟩
        [ofShellBody setting state children, ⟨.view (.group head), setting, after⟩]
  | template {setting : Setting} {state after : State} {region : Region}
      {template : DataRef → View} {fault : Fault} (fallback : View)
      (failed : Render.compileTemplate region.resource (template .ofFragment).render setting
        state = (.error fault, after)) :
      Parts ⟨.view (.remote region template fallback), setting, state⟩ []
  | fallback {setting : Setting} {state after later : State} {region : Region} {handle : Handle}
      {template : DataRef → View} (fallback : View)
      (compiled : Render.compileTemplate region.resource (template .ofFragment).render setting
        state = (.ok handle, after))
      (recorded : Render.recordRegion region handle setting after = (.ok (), later)) :
      Parts ⟨.view (.remote region template fallback), setting, state⟩
        [⟨.view fallback, setting, later⟩]
  | hidden {setting : Setting} {state after later : State} {id : String} {hidden : List View}
      {fault : Fault} (action : Action) (refresh : Refresh) (formAttributes attributes : Attributes)
      (children : List View) (alone : setting.scope.form = none)
      (fresh : Render.nextFormId setting state = (.ok id, after))
      (failed : View.renderAll hidden setting after = (.error fault, later)) :
      Parts ⟨.view (.quickButton action refresh formAttributes hidden attributes children),
          setting, state⟩
        [⟨.view (.group hidden), setting, after⟩]
  | button {setting : Setting} {state after later : State} {id inputs : String}
      {hidden : List View} (action : Action) (refresh : Refresh)
      (formAttributes attributes : Attributes) (children : List View)
      (alone : setting.scope.form = none)
      (fresh : Render.nextFormId setting state = (.ok id, after))
      (rendered : View.renderAll hidden setting after = (.ok inputs, later)) :
      Parts ⟨.view (.quickButton action refresh formAttributes hidden attributes children),
          setting, state⟩
        [⟨.view (.group hidden), setting, after⟩, ⟨.view (.group children), setting, later⟩]
  | rendering {setting : Setting} {state after : State} {steps : List Scope.Step} {view : View}
      {fault : Fault} (next : String → Program)
      (failed : view.render { setting with scope := setting.scope.steps steps } state =
        (.error fault, after)) :
      Parts ⟨.program (.render steps view next), setting, state⟩
        [⟨.view view, { setting with scope := setting.scope.steps steps }, state⟩]
  | rendered {setting : Setting} {state after : State} {steps : List Scope.Step} {view : View}
      {text : String} (next : String → Program)
      (rendered : view.render { setting with scope := setting.scope.steps steps } state =
        (.ok text, after)) :
      Parts ⟨.program (.render steps view next), setting, state⟩
        [⟨.view view, { setting with scope := setting.scope.steps steps }, state⟩,
          ⟨.program (next text), setting, after⟩]

/-- All renders that take place in the documents of the agenda, in the order in which they
start: the first one, then its parts with all that they start, then the rest. -/
inductive Log : (agenda log : List Stage) → Prop where
  | done : Log [] []
  | next {stage : Stage} {parts rest log : List Stage} (parted : stage.Parts parts)
      (later : Log (parts ++ rest) log) : Log (stage :: rest) (stage :: log)

theorem Siblings.sibling {setting : Setting} {views : List View} {state : State}
    {parts : List Stage} (siblings : Siblings setting views state parts) :
    ∀ part ∈ parts, ∃ view inner, part = ⟨.view view, setting, inner⟩ ∧
      Sibling setting views state view inner := by
  induction siblings with
  | done state => simp
  | next rendered _ inductionHypothesis =>
      rintro part (_ | ⟨_, member⟩)
      · exact ⟨_, _, rfl, .here _ _ _⟩
      · obtain ⟨view, inner, rfl, sibling⟩ := inductionHypothesis part member
        exact ⟨view, inner, rfl, .later rendered sibling⟩
  | failed rest failed =>
      rintro part (_ | ⟨_, ⟨⟩⟩)
      exact ⟨_, _, rfl, .here _ _ _⟩

/-- The parts of a render are among the renders that it starts. -/
theorem Parts.inner {outer part : Stage} {parts : List Stage} (parted : outer.Parts parts)
    (member : part ∈ parts) : outer.Inner part := by
  cases parted with
  | group siblings =>
      obtain ⟨view, inner, rfl, sibling⟩ := siblings.sibling part member
      exact .child sibling
  | nothing alone => cases member
  | single single step =>
      obtain rfl := List.mem_singleton.mp member
      exact step
  | body negated writable rendered last =>
      obtain rfl := List.mem_singleton.mp member
      exact .body _ _ negated _ _ writable
  | otherwise negated view writable rendered =>
      rcases member with _ | ⟨_, _ | ⟨_, ⟨⟩⟩⟩
      · exact .body _ _ negated _ _ writable
      · exact .otherwise negated view writable rendered
  | left negated writable rendered leaves =>
      rcases member with _ | ⟨_, _ | ⟨_, ⟨⟩⟩⟩
      · exact .body _ _ negated _ _ writable
      · exact .left negated writable rendered
  | shellBody head failed =>
      obtain rfl := List.mem_singleton.mp member
      exact .shellBody _ _ _ head _
  | shellHead head rendered =>
      rcases member with _ | ⟨_, _ | ⟨_, ⟨⟩⟩⟩
      · exact .shellBody _ _ _ head _
      · exact .shellHead head rendered
  | template fallback failed => cases member
  | fallback view compiled recorded =>
      obtain rfl := List.mem_singleton.mp member
      exact .fallback view compiled recorded
  | hidden action refresh formAttributes attributes children alone fresh failed =>
      obtain rfl := List.mem_singleton.mp member
      exact .hidden action refresh formAttributes attributes _ children alone fresh
  | button action refresh formAttributes attributes children alone fresh rendered =>
      rcases member with _ | ⟨_, _ | ⟨_, ⟨⟩⟩⟩
      · exact .hidden action refresh formAttributes attributes _ children alone fresh
      · exact .button action refresh formAttributes attributes children alone fresh rendered
  | rendering next failed =>
      obtain rfl := List.mem_singleton.mp member
      exact .rendering _ _ _ _ next
  | rendered next rendered =>
      rcases member with _ | ⟨_, _ | ⟨_, ⟨⟩⟩⟩
      · exact .rendering _ _ _ _ next
      · exact .rendered next rendered

theorem Siblings.mem_of_sibling {setting : Setting} {views : List View} {state inner : State}
    {view : View} {parts : List Stage} (siblings : Siblings setting views state parts)
    (sibling : Sibling setting views state view inner) : ⟨.view view, setting, inner⟩ ∈ parts := by
  induction sibling generalizing parts with
  | here => cases siblings <;> exact List.mem_cons_self
  | later rendered _ inductionHypothesis =>
      cases siblings with
      | next renderedToo siblings =>
          obtain ⟨-, rfl⟩ := Prod.mk.inj (rendered.symm.trans renderedToo)
          exact List.mem_cons_of_mem _ (inductionHypothesis siblings)
      | failed rest failed => cases (Prod.mk.inj (rendered.symm.trans failed)).1

/-- A task that starts one render at most starts no other one in the same state. -/
theorem Inner.eq_of_single {outer first second : Stage} (single : outer.task.isSingle = true)
    (step : Inner outer first) (other : Inner outer second) : first = second := by
  cases step with
  | loop source body fresh =>
      cases other with
      | loop source body freshToo =>
          obtain ⟨named, rfl⟩ := Prod.mk.inj (fresh.symm.trans freshToo)
          obtain rfl := Except.ok.inj named
          rfl
  | switch attributes children seen =>
      cases other with
      | switch attributes children seenToo =>
          obtain ⟨-, rfl⟩ := Prod.mk.inj (seen.symm.trans seenToo)
          rfl
  | route children inside added selected =>
      cases other with
      | route children insideToo addedToo selectedToo =>
          obtain rfl := Option.some.inj (inside.symm.trans insideToo)
          obtain ⟨-, rfl⟩ := Prod.mk.inj (added.symm.trans addedToo)
          rfl
  | dataRoute body inside added selected required =>
      cases other with
      | dataRoute body insideToo addedToo selectedToo requiredToo =>
          obtain rfl := Option.some.inj (inside.symm.trans insideToo)
          obtain ⟨-, rfl⟩ := Prod.mk.inj (added.symm.trans addedToo)
          obtain ⟨keyed, rfl⟩ := Prod.mk.inj (required.symm.trans requiredToo)
          obtain rfl := Except.ok.inj keyed
          rfl
  | form action refresh attributes children alone fresh =>
      cases other with
      | form action refresh attributes children aloneToo freshToo =>
          obtain ⟨named, rfl⟩ := Prod.mk.inj (fresh.symm.trans freshToo)
          obtain rfl := Except.ok.inj named
          rfl
  | ask next replied =>
      cases other with
      | ask next repliedToo =>
          obtain ⟨answered, rfl⟩ := Prod.mk.inj (replied.symm.trans repliedToo)
          obtain rfl := Except.ok.inj answered
          rfl
  | element | link | head | submit | component | output | readScope =>
      cases other
      rfl
  | _ => cases single

/-- All that a render starts is among its parts, if it is neither a conditional nor a region. -/
theorem Parts.mem_of_inner {outer inner : Stage} {parts : List Stage} (parted : outer.Parts parts)
    (step : Inner outer inner) (kept : outer.task.keepsMarkers = true) : inner ∈ parts := by
  cases parted with
  | nothing alone => exact absurd step (alone inner)
  | single single only =>
      obtain rfl := Inner.eq_of_single single step only
      exact List.mem_cons_self
  | group siblings =>
      cases step with
      | child sibling => exact siblings.mem_of_sibling sibling
  | shellBody head failed =>
      cases step with
      | shellBody => exact List.mem_cons_self
      | shellHead head rendered => cases (Prod.mk.inj (rendered.symm.trans failed)).1
  | shellHead head rendered =>
      cases step with
      | shellBody => exact List.mem_cons_self
      | shellHead head renderedToo =>
          obtain ⟨-, rfl⟩ := Prod.mk.inj (rendered.symm.trans renderedToo)
          exact List.mem_cons_of_mem _ List.mem_cons_self
  | hidden action refresh formAttributes attributes children alone fresh failed =>
      cases step with
      | hidden action refresh formAttributes attributes hidden children aloneToo freshToo =>
          obtain ⟨-, rfl⟩ := Prod.mk.inj (fresh.symm.trans freshToo)
          exact List.mem_cons_self
      | button action refresh formAttributes attributes children aloneToo freshToo rendered =>
          obtain ⟨-, rfl⟩ := Prod.mk.inj (fresh.symm.trans freshToo)
          cases (Prod.mk.inj (rendered.symm.trans failed)).1
  | button action refresh formAttributes attributes children alone fresh rendered =>
      cases step with
      | hidden action refresh formAttributes attributes hidden children aloneToo freshToo =>
          obtain ⟨-, rfl⟩ := Prod.mk.inj (fresh.symm.trans freshToo)
          exact List.mem_cons_self
      | button action refresh formAttributes attributes children aloneToo freshToo renderedToo =>
          obtain ⟨-, rfl⟩ := Prod.mk.inj (fresh.symm.trans freshToo)
          obtain ⟨-, rfl⟩ := Prod.mk.inj (rendered.symm.trans renderedToo)
          exact List.mem_cons_of_mem _ List.mem_cons_self
  | rendering next failed =>
      cases step with
      | rendering => exact List.mem_cons_self
      | rendered next rendered => cases (Prod.mk.inj (rendered.symm.trans failed)).1
  | rendered next rendered =>
      cases step with
      | rendering => exact List.mem_cons_self
      | rendered next renderedToo =>
          obtain ⟨written, rfl⟩ := Prod.mk.inj (rendered.symm.trans renderedToo)
          obtain rfl := Except.ok.inj written
          exact List.mem_cons_of_mem _ List.mem_cons_self
  | body | otherwise | left | template | fallback => cases kept

theorem Log.mem_of_mem {agenda log : List Stage} (logged : Log agenda log) :
    ∀ stage ∈ agenda, stage ∈ log := by
  induction logged with
  | done => exact fun _ member => member
  | @next first parts rest log parted _ inductionHypothesis =>
      refine List.forall_mem_cons.mpr ⟨List.mem_cons_self, fun stage member => ?_⟩
      exact List.mem_cons_of_mem _ (inductionHypothesis stage (List.mem_append_right parts member))

/-- All that a listed render starts is listed, if it is neither a conditional nor a region. -/
theorem Log.mem_of_inner {agenda log : List Stage} (logged : Log agenda log)
    {outer inner : Stage} (member : outer ∈ log) (step : Inner outer inner)
    (kept : outer.task.keepsMarkers = true) : inner ∈ log := by
  induction logged with
  | done => cases member
  | @next first parts rest log parted later inductionHypothesis =>
      rcases List.mem_cons.mp member with rfl | behind
      · exact List.mem_cons_of_mem _
          (later.mem_of_mem _ (List.mem_append_left _ (parted.mem_of_inner step kept)))
      · exact List.mem_cons_of_mem _ (inductionHypothesis behind)

/-- What a log lists takes place in the course of a render on the agenda. -/
theorem Log.course {agenda log : List Stage} (logged : Log agenda log) :
    ∀ stage ∈ log, ∃ start ∈ agenda, ReflTransGen Inner start stage := by
  induction logged with
  | done => simp
  | @next first parts rest log parted _ inductionHypothesis =>
      rintro stage (_ | ⟨_, member⟩)
      · exact ⟨first, List.mem_cons_self, .refl⟩
      · obtain ⟨start, onAgenda, course⟩ := inductionHypothesis stage member
        rcases List.mem_append.mp onAgenda with isPart | behind
        · exact ⟨first, List.mem_cons_self, .head (parted.inner isPart) course⟩
        · exact ⟨start, List.mem_cons_of_mem _ behind, course⟩

theorem Log.append {agenda log others more : List Stage} (logged : Log agenda log)
    (moreLogged : Log others more) : Log (agenda ++ others) (log ++ more) := by
  induction logged with
  | done => exact moreLogged
  | next parted _ inductionHypothesis =>
      rw [List.append_assoc] at inductionHypothesis
      exact .next parted inductionHypothesis

end Stage

end Sitewright
