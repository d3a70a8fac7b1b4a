import Sitewright.Proofs.Render.Document

/-!
Contract: what views and programs are made of, and that there is an end to it.

What a render starts is part of what it renders, even the branch that a marker hands to its
conditional. So what holds of every task all of whose parts it holds of, holds of all tasks.

Owns:
- `Task.Contains`, the next parts of a task;
- `Task.contains_wellFounded`: parts of parts come to an end;
- what is rendered in the course of a render is contained in it.

Does not own: in which order parts are rendered.
-/

namespace Sitewright

open Markup Template Catalog Routing Relation

/-! ## Parts of tasks -/

/-- What may be the answer to a request. -/
def Request.Answers (request : Request) (reply : request.Reply) : Prop :=
  ∃ setting state, (request.reply setting state).1 = .ok reply

/-- The second task is the next part of the first one. A program goes on in any way that its
answers allow. -/
inductive Task.Contains : Task → Task → Prop where
  | child {views : List View} {view : View} (member : view ∈ views) :
      Contains (.view (.group views)) (.view view)
  | element (tag : String) (attributes : Attributes) (children : List View) :
      Contains (.view (.element tag attributes children)) (.view (.group children))
  | body (condition : Expr) (negated : Bool) (body : List View) (otherwise : Option View) :
      Contains (.view (.conditional condition negated body otherwise)) (.view (.group body))
  | otherwise (condition : Expr) (negated : Bool) (body : List View) (otherwise : View) :
      Contains (.view (.conditional condition negated body (some otherwise))) (.view otherwise)
  | branch (branch : View) : Contains (.view (.alternative branch)) (.view branch)
  | loop (source : DataRef) (body : (element position : DataRef) → View)
      (element position : DataRef) :
      Contains (.view (.loop source body)) (.view (body element position))
  | switch (id : String) (attributes : Attributes) (children : List View) :
      Contains (.view (.switch id attributes children)) (.view (.group children))
  | route (path title : String) (children : List View) :
      Contains (.view (.route path title children)) (.view (.group children))
  | dataRoute (path title resource : String) (body : DataRef → View) (source : DataRef) :
      Contains (.view (.dataRoute path title resource body)) (.view (body source))
  | link (target : String) (locale : Option String) (attributes : Attributes)
      (children : List View) :
      Contains (.view (.link target locale attributes children)) (.view (.group children))
  | shellBody (morph : Bool) (head children : List View) :
      Contains (.view (.shell morph head children)) (.view (.group children))
  | shellHead (morph : Bool) (head children : List View) :
      Contains (.view (.shell morph head children)) (.view (.group head))
  | head (children : List View) : Contains (.view (.head children)) (.view (.group children))
  | template (region : Region) (template : DataRef → View) (fallback : View) :
      Contains (.view (.remote region template fallback)) (.view (template .ofFragment))
  | fallback (region : Region) (template : DataRef → View) (fallback : View) :
      Contains (.view (.remote region template fallback)) (.view fallback)
  | form (action : Action) (refresh : Refresh) (attributes : Attributes) (children : List View) :
      Contains (.view (.form action refresh attributes children)) (.view (.group children))
  | submit (action : Action) (attributes : Attributes) (children : List View) :
      Contains (.view (.submit action attributes children)) (.view (.group children))
  | hidden (action : Action) (refresh : Refresh) (formAttributes attributes : Attributes)
      (hidden children : List View) :
      Contains (.view (.quickButton action refresh formAttributes hidden attributes children))
        (.view (.group hidden))
  | button (action : Action) (refresh : Refresh) (formAttributes attributes : Attributes)
      (hidden children : List View) :
      Contains (.view (.quickButton action refresh formAttributes hidden attributes children))
        (.view (.group children))
  | component (name : String) (program : Program) :
      Contains (.view (.component name program)) (.program program)
  | output (output : View) : Contains (.program (.done output)) (.view output)
  | readScope (next : Scope → Program) (scope : Scope) :
      Contains (.program (.readScope next)) (.program (next scope))
  | ask {request : Request} {reply : request.Reply} (next : request.Reply → Program)
      (answers : request.Answers reply) :
      Contains (.program (.ask request next)) (.program (next reply))
  | rendering (steps : List Scope.Step) (view : View) (next : String → Program) :
      Contains (.program (.render steps view next)) (.view view)
  | rendered (steps : List Scope.Step) (view : View) (next : String → Program) (text : String) :
      Contains (.program (.render steps view next)) (.program (next text))

namespace Task

/-- What a task contains comes to an end, however one goes into it. -/
def Grounded (task : Task) : Prop :=
  Acc (fun inner outer => Contains outer inner) task

theorem Grounded.group {views : List View} (grounded : ∀ view ∈ views, (Task.view view).Grounded) :
    (Task.view (.group views)).Grounded :=
  ⟨_, fun _ contains => by cases contains with | child member => exact grounded _ member⟩

theorem Grounded.conditional {condition : Expr} {negated : Bool} {body : List View}
    {otherwise : Option View} (bodyGrounded : (Task.view (.group body)).Grounded)
    (otherwiseGrounded : ∀ view ∈ otherwise, (Task.view view).Grounded) :
    (Task.view (.conditional condition negated body otherwise)).Grounded :=
  ⟨_, fun _ contains => by
    cases contains with
    | body => exact bodyGrounded
    | otherwise => exact otherwiseGrounded _ rfl⟩

end Task

mutual

theorem View.grounded : ∀ view : View, (Task.view view).Grounded
  | .blank | .text _ | .raw _ | .redirect _ | .metaTag _ | .stylesheet .. | .script _ =>
      ⟨_, fun _ contains => by cases contains⟩
  | .group views => .group (View.allGrounded views)
  | .element _ _ children | .switch _ _ children | .route _ _ children | .link _ _ _ children
  | .head children | .form _ _ _ children | .submit _ _ children =>
      have inside := Task.Grounded.group (View.allGrounded children)
      ⟨_, fun _ contains => by cases contains; exact inside⟩
  | .conditional _ _ body none => .conditional (.group (View.allGrounded body)) (by simp)
  | .conditional _ _ body (some otherwise) =>
      .conditional (.group (View.allGrounded body)) (by simpa using View.grounded otherwise)
  | .alternative branch =>
      have inside := View.grounded branch
      ⟨_, fun _ contains => by cases contains; exact inside⟩
  | .loop _ body =>
      have inside := fun element position => View.grounded (body element position)
      ⟨_, fun _ contains => by cases contains; exact inside _ _⟩
  | .dataRoute _ _ _ body =>
      have inside := fun source => View.grounded (body source)
      ⟨_, fun _ contains => by cases contains; exact inside _⟩
  | .shell _ head children =>
      have early := Task.Grounded.group (View.allGrounded children)
      have late := Task.Grounded.group (View.allGrounded head)
      ⟨_, fun _ contains => by
        cases contains with
        | shellBody => exact early
        | shellHead => exact late⟩
  | .remote _ template fallback =>
      have early := View.grounded (template .ofFragment)
      have late := View.grounded fallback
      ⟨_, fun _ contains => by
        cases contains with
        | template => exact early
        | fallback => exact late⟩
  | .quickButton _ _ _ hidden _ children =>
      have early := Task.Grounded.group (View.allGrounded hidden)
      have late := Task.Grounded.group (View.allGrounded children)
      ⟨_, fun _ contains => by
        cases contains with
        | hidden => exact early
        | button => exact late⟩
  | .component _ program =>
      have inside := Program.grounded program
      ⟨_, fun _ contains => by cases contains; exact inside⟩

theorem View.allGrounded : ∀ views : List View, ∀ view ∈ views, (Task.view view).Grounded
  | [] => by simp
  | first :: rest => List.forall_mem_cons.mpr ⟨View.grounded first, View.allGrounded rest⟩

theorem Program.grounded : ∀ program : Program, (Task.program program).Grounded
  | .done output =>
      have inside := View.grounded output
      ⟨_, fun _ contains => by cases contains; exact inside⟩
  | .fail _ => ⟨_, fun _ contains => by cases contains⟩
  | .readScope next =>
      have inside := fun scope => Program.grounded (next scope)
      ⟨_, fun _ contains => by cases contains; exact inside _⟩
  | .ask _ next =>
      have inside := fun reply => Program.grounded (next reply)
      ⟨_, fun _ contains => by cases contains; exact inside _⟩
  | .render _ view next =>
      have early := View.grounded view
      have late := fun text => Program.grounded (next text)
      ⟨_, fun _ contains => by
        cases contains with
        | rendering => exact early
        | rendered => exact late _⟩

end

theorem Task.contains_wellFounded : WellFounded fun inner outer => Task.Contains outer inner :=
  ⟨fun
    | .view shown => shown.grounded
    | .program running => running.grounded⟩

/-! ## Parts that are rendered -/

theorem Request.answers_of_reply {request : Request} {reply : request.Reply} {setting : Setting}
    {state after : State} (replied : request.reply setting state = (.ok reply, after)) :
    request.Answers reply :=
  ⟨setting, state, congrArg Prod.fst replied⟩

namespace Stage

/-- What a render starts is contained in what it renders. -/
theorem Inner.contains {outer inner : Stage} (step : Inner outer inner)
    (kept : outer.task.keepsMarkers = true) : Task.Contains outer.task inner.task := by
  cases step with
  | child sibling => exact .child sibling.mem
  | body | otherwise | left | template | fallback => cases kept
  | ask next replied => exact .ask next (Request.answers_of_reply replied)
  | _ => constructor

/-- The branch of a marker is contained in what leaves it. -/
theorem Leaves.contained {stage : Stage} {branch : View} (leaves : Leaves stage branch) :
    TransGen Task.Contains stage.task (.view branch) := by
  induction leaves with
  | marker setting state branch => exact .single (.branch branch)
  | inside kept step _ inductionHypothesis => exact .head (step.contains kept) inductionHypothesis
  | fallback _ _ _ inductionHypothesis => exact .head (.fallback _ _ _) inductionHypothesis

end Stage

end Sitewright
