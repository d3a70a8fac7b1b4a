import Sitewright.Proofs.Render.Forms
import Sitewright.Proofs.Render.Heads

/-!
Contract: where meta tags are accepted, and which head each of them ends up in.

A shell collects the tags of everything that is rendered in its body, however deep. Its head is
not part of its body: a tag there needs a shell further out. Neither is the branch of a marker,
which is rendered where the conditional around it stands. The template of a region is a document
of its own, which no shell of the host reaches into, and so is the view of another page.

Owns:
- `Stage.InShellBody`, the renders that take place in the body of a shell of their document;
- `Stage.inShellBody_iff`: these are the renders in whose scope a shell collects tags;
- what becomes of a meta tag in the body of a shell, and of all others.

Does not own: the rest of the text of a shell.
-/

namespace Sitewright

open Markup Template Relation

namespace Stage

open Render

/-! ## Renders in the body of a shell -/

/-- What the second render is in does not matter for it: it is the template of a region, or the
view that a component renders for another page or for a search. -/
inductive LeavesDocument : Stage → Stage → Prop where
  | template (setting : Setting) (state : State) (region : Region) (template : DataRef → View)
      (fallback : View) :
      LeavesDocument ⟨.view (.remote region template fallback), setting, state⟩
        ⟨.view (template .ofFragment), { setting with scope := setting.scope.detached },
          { state with ledger := { state.ledger with numbering := .ofTemplate region.resource } }⟩
  | departs {outer inner : Stage} (departs : Task.Departs outer.task inner.task) :
      LeavesDocument outer inner

/-- In the course of the first render, the second one takes place in the body of a shell that
belongs to the same document. -/
inductive InShellBody (start : Stage) : Stage → Prop where
  | opened {shell body : Stage} (course : ReflTransGen Starts start shell)
      (starts : shell.Starts body) (opens : OpensHead shell body) : InShellBody start body
  | kept {outer inner : Stage} (inside : InShellBody start outer) (starts : outer.Starts inner)
      (stays : ¬ LeavesDocument outer inner) : InShellBody start inner

theorem OpensHead.collects {shell body : Stage} (opens : OpensHead shell body) :
    body.setting.scope.shell = true := by
  cases opens
  rfl

theorem LeavesDocument.outside_or_departs {outer inner : Stage}
    (leaves : LeavesDocument outer inner) :
    inner.setting.scope.shell = false ∨ Task.Departs outer.task inner.task := by
  cases leaves with
  | template => exact .inl rfl
  | departs departs => exact .inr departs

/-- A shell collects tags from what is in its body, and from what is in anything else that is in
the body and does not leave the document. -/
theorem Inner.shell_iff {outer inner : Stage} (step : Inner outer inner) :
    inner.setting.scope.shell = true ↔
      OpensHead outer inner ∨
        (outer.setting.scope.shell = true ∧ ¬ LeavesDocument outer inner) := by
  -- Only three constructs change where tags are collected; with all others it stays the same.
  have unchanged (same : inner.setting.scope.shell = outer.setting.scope.shell)
      (stays : ¬ Task.Departs outer.task inner.task) :
      inner.setting.scope.shell = true ↔
        OpensHead outer inner ∨
          (outer.setting.scope.shell = true ∧ ¬ LeavesDocument outer inner) := by
    refine ⟨fun around => .inr ⟨same ▸ around, fun leaves => ?_⟩, ?_⟩
    · rcases leaves.outside_or_departs with outside | departs
      · exact Bool.false_ne_true (outside.symm.trans around)
      · exact stays departs
    · rintro (opens | ⟨around, -⟩)
      · exact opens.collects
      · exact same.trans around
  cases step with
  | shellBody setting state morph head children =>
      exact iff_of_true rfl (.inl (.body setting state morph head children))
  | template setting state region template fallback =>
      refine iff_of_false Bool.false_ne_true ?_
      rintro (⟨⟨⟩⟩ | ⟨-, stays⟩)
      exact stays (.template setting state region template fallback)
  | rendering setting state steps view next =>
      have collects := setting.scope.shell_steps steps
      by_cases anew : steps.any Scope.Step.startsAnew = true
      · rw [if_pos anew] at collects
        refine iff_of_false (by simp [collects]) ?_
        rintro (⟨⟨⟩⟩ | ⟨-, stays⟩)
        exact stays (.departs (.departs view next anew))
      · rw [if_neg anew] at collects
        refine unchanged collects ?_
        rintro ⟨_, _, departs⟩
        exact anew departs
  | _ => exact unchanged rfl (by rintro ⟨⟩)

/-- The renders in the body of a shell are those in whose scope a shell collects tags. -/
theorem inShellBody_iff {start inner : Stage} (outside : start.setting.scope.shell = false)
    (course : ReflTransGen Starts start inner) :
    InShellBody start inner ↔ inner.setting.scope.shell = true := by
  constructor
  · intro inBody
    clear course
    induction inBody with
    | opened _ starts opens => exact opens.collects
    | kept _ starts stays inductionHypothesis =>
        exact starts.inner.shell_iff.mpr (.inr ⟨inductionHypothesis, stays⟩)
  · intro collects
    induction course with
    | refl => exact absurd (outside.symm.trans collects) Bool.false_ne_true
    | tail before starts inductionHypothesis =>
        rcases starts.inner.shell_iff.mp collects with opens | ⟨around, stays⟩
        · exact .opened before starts opens
        · exact .kept (inductionHypothesis around) starts stays

/-! ## The shell that a tag is written into -/

/-- The first render starts the second one, which writes into the same head: it is neither the
body of a shell nor part of another document. -/
def SharesHead (outer inner : Stage) : Prop :=
  outer.Starts inner ∧ ¬ OpensHead outer inner ∧ ¬ LeavesDocument outer inner

/-- What takes place in the body of a shell shares the head of the innermost one. -/
theorem InShellBody.innermost {start inner : Stage} (inBody : InShellBody start inner) :
    ∃ shell body, ReflTransGen Starts start shell ∧ shell.Starts body ∧ OpensHead shell body ∧
      ReflTransGen SharesHead body inner := by
  induction inBody with
  | @opened shell body course starts opens => exact ⟨shell, body, course, starts, opens, .refl⟩
  | @kept outer inner _ starts stays inductionHypothesis =>
      obtain ⟨shell, body, course, bodyStarts, opens, within⟩ := inductionHypothesis
      by_cases further : OpensHead outer inner
      · have inside : ReflTransGen Starts body outer :=
          ReflTransGen.mono (fun _ _ shares => shares.1) _ _ within
        exact ⟨outer, inner, (course.tail bodyStarts).trans inside, starts, further, .refl⟩
      · exact ⟨shell, body, course, bodyStarts, opens, within.tail ⟨starts, further, stays⟩⟩

/-- Whatever shares a head with a render is among the renders listed for that head. -/
theorem exists_headTrace_of_course {first inner : Stage}
    (course : ReflTransGen SharesHead first inner) :
    ∃ sharing bodies, HeadTrace [first] sharing bodies ∧ inner ∈ sharing := by
  induction course using ReflTransGen.head_induction_on with
  | refl =>
      obtain ⟨sharing, bodies, headed⟩ := exists_headTrace [inner]
      exact ⟨sharing, bodies, headed, headed.mem_of_mem List.mem_cons_self⟩
  | @head outer next step _ inductionHypothesis =>
      obtain ⟨⟨phases, phased, member⟩, sameHead, -⟩ := step
      obtain ⟨sharing, bodies, headed, listed⟩ := inductionHypothesis
      obtain ⟨shared, left, shares⟩ := phased.exists_shares
      obtain ⟨early, late, rfl⟩ :=
        List.append_of_mem ((shares.mem_or_opens member).resolve_right sameHead)
      -- The phases before and after the next one are listed as well, in their places.
      obtain ⟨before, beforeBodies, beforeHeaded⟩ := exists_headTrace early
      obtain ⟨after, afterBodies, afterHeaded⟩ := exists_headTrace late
      have together := beforeHeaded.append (headed.append afterHeaded)
      rw [List.singleton_append, ← List.append_nil (early ++ next :: late)] at together
      refine ⟨_, _, .next phased shares together, List.mem_cons_of_mem _ ?_⟩
      exact List.mem_append_right before (List.mem_append_left after listed)

/-- A render that adds a tag takes place once: the second time more tags would wait. -/
theorem Waiting.not_twice {first second third : List Stage} {stage : Stage}
    {given final : List Attributes} (adds : stage.metaTag?.isSome = true) :
    ¬ Waiting given (first ++ stage :: (second ++ stage :: third)) final := by
  intro waiting
  obtain ⟨attributes, added⟩ := Option.isSome_iff_exists.mp adds
  have early : stage.state.metaTags = given ++ first.filterMap metaTag? := waiting.behind.1
  rw [← List.cons_append, ← List.append_assoc] at waiting
  have late : stage.state.metaTags = given ++ (first ++ stage :: second).filterMap metaTag? :=
    waiting.behind.1
  have lengths := congrArg List.length (early.symm.trans late)
  rw [List.filterMap_append, List.filterMap_cons_some added] at lengths
  simp only [List.length_append, List.length_cons] at lengths
  omega

theorem Waiting.once {before after : List Stage} {stage : Stage} {given final : List Attributes}
    (waiting : Waiting given (before ++ stage :: after) final)
    (adds : stage.metaTag?.isSome = true) : stage ∉ before ∧ stage ∉ after := by
  constructor
  · intro member
    obtain ⟨first, second, rfl⟩ := List.append_of_mem member
    rw [List.append_assoc, List.cons_append] at waiting
    exact Waiting.not_twice adds waiting
  · intro member
    obtain ⟨second, third, rfl⟩ := List.append_of_mem member
    exact Waiting.not_twice adds waiting

/-- Among the renders that share the head of this shell, the tag takes place once, and whenever
the shell is written its element stands in the head, between those of the tags that are rendered
before it and after it. -/
def WrittenOnce (tag : Stage) (attributes : Attributes) (setting : Setting) (state : State)
    (morph : Bool) (head children : List View) : Prop :=
  ∃ before after bodies,
    HeadTrace [ofShellBody setting state children] (before ++ tag :: after) bodies ∧
    tag ∉ before ∧ tag ∉ after ∧
    ∀ text, (outcome ⟨.view (.shell morph head children), setting, state⟩).1 = .ok text →
      ∃ headText content, text = shellText morph headText
        (before.filterMap (fun stage => stage.task.metaTag?) ++ attributes ::
          after.filterMap fun stage => stage.task.metaTag?) content

theorem writtenOnce_of_course {tag : Stage} {attributes : Attributes} {setting : Setting}
    {state : State} {children : List View}
    (course : ReflTransGen SharesHead (ofShellBody setting state children) tag)
    (shown : tag.task = .view (.metaTag attributes)) (collects : tag.setting.scope.shell = true)
    (morph : Bool) (head : List View) :
    WrittenOnce tag attributes setting state morph head children := by
  obtain ⟨sharing, bodies, headed, member⟩ := exists_headTrace_of_course course
  obtain ⟨before, after, rfl⟩ := List.append_of_mem member
  have isTag : tag.task.metaTag? = some attributes := by rw [shown]; rfl
  have adds : tag.metaTag?.isSome = true := by simp [metaTag?, isTag, collects]
  obtain ⟨notBefore, notAfter⟩ := (headed.waiting ⟨rfl, rfl⟩).once adds
  refine ⟨before, after, bodies, headed, notBefore, notAfter, fun text ended => ?_⟩
  obtain ⟨content, -, -, headText, -, inBody, -, rfl⟩ := text_of_shell ended
  refine ⟨headText, content, ?_⟩
  rw [headed.tags_of_body (ends_iff.mpr ⟨content, inBody⟩)]
  simp only [List.filterMap_append, List.filterMap_cons, isTag]

/-- Outside of the bodies of shells a meta tag fails as misuse, and then everything around it
fails with the same fault. In the body of a shell it is written as nothing where it stands, and
once into the head of the innermost such shell. -/
theorem metaTags_accepted_exactly_in_shell_bodies {start tag : Stage} {attributes : Attributes}
    (outside : start.setting.scope.shell = false) (course : ReflTransGen Starts start tag)
    (shown : tag.task = .view (.metaTag attributes)) :
    (¬ InShellBody start tag →
      tag.outcome = (.error misplacedMetaTag, tag.state) ∧
        start.outcome.1 = .error misplacedMetaTag) ∧
    (InShellBody start tag →
      tag.outcome.1 = .ok "" ∧
      ∃ setting state morph head children,
        ReflTransGen Starts start ⟨.view (.shell morph head children), setting, state⟩ ∧
        ReflTransGen SharesHead (ofShellBody setting state children) tag ∧
        WrittenOnce tag attributes setting state morph head children) := by
  have decided := outcome_of_metaTag shown
  refine ⟨fun outsideBodies => ?_, fun inBody => ?_⟩
  · rw [inShellBody_iff outside course] at outsideBodies
    rw [if_neg outsideBodies] at decided
    have around : ReflTransGen Inner start tag :=
      ReflTransGen.mono (fun _ _ starts => starts.inner) _ _ course
    exact ⟨decided, Inner.fails_of_course around (congrArg Prod.fst decided)⟩
  · have collects := (inShellBody_iff outside course).mp inBody
    rw [if_pos collects] at decided
    obtain ⟨shell, body, shellCourse, -, opens, within⟩ := inBody.innermost
    cases opens with
    | body setting state morph head children =>
        exact ⟨congrArg Prod.fst decided, setting, state, morph, head, children, shellCourse,
          within, writtenOnce_of_course within shown collects morph head⟩

/-! ## Tags in a body, in a head and in a branch -/

theorem Inner.starts {outer inner : Stage} (step : Inner outer inner)
    (kept : outer.task.keepsMarkers = true) (inDocument : outer.task.isRegion = false) :
    outer.Starts inner := by
  obtain ⟨phases, phased⟩ := exists_phases outer
  refine ⟨phases, phased, ?_⟩
  cases phased with
  | parts _ parted => exact parted.mem_of_inner step kept
  | template | fallback => cases inDocument

/-- A shell with a tag in an element of its body. -/
def productPage : Stage :=
  onPage (.shell true [] [.element "main" [] [namedTag "product"]])

theorem productPage_collects_tag :
    ∃ tag setting state morph head children,
      ReflTransGen Starts productPage ⟨.view (.shell morph head children), setting, state⟩ ∧
      InShellBody productPage tag ∧ tag.outcome.1 = .ok "" ∧
      WrittenOnce tag [⟨"name", .string "product"⟩] setting state morph head children := by
  have starts : productPage.Starts _ := Inner.starts (.shellBody _ _ true [] _) rfl rfl
  have inBody := ReflTransGen.single starts
  have atMain := inBody.tail (Inner.starts (.child (.here _ _ _)) rfl rfl)
  have inMain := atMain.tail (Inner.starts (.element _ _ "main" [] _) rfl rfl)
  have atTag := inMain.tail (Inner.starts (.child (.here _ _ _)) rfl rfl)
  have inShell := (inShellBody_iff rfl atTag).mpr rfl
  obtain ⟨-, accepted⟩ := metaTags_accepted_exactly_in_shell_bodies rfl atTag rfl
  obtain ⟨nothing, setting, state, morph, head, children, course, -, written⟩ := accepted inShell
  exact ⟨_, setting, state, morph, head, children, course, inShell, nothing, written⟩

/-- A shell with a tag in its head. -/
def viewportPage : View :=
  .shell true [namedTag "viewport"] []

/-- A shell in a conditional, and in the shell the marker with the branch of the conditional. -/
def branchPage : View :=
  .conditional (.literal (.bool true)) false [.shell true [] [.alternative (namedTag "viewport")]]
    none

/-- To be inside of a shell is not enough: the head of a shell is not in its body, and a branch is
rendered outside of the shell that its marker stands in. -/
theorem enclosed_tags_refused :
    TransGen Task.Contains (.view viewportPage) (.view (namedTag "viewport")) ∧
      (onPage viewportPage).outcome.1 = .error misplacedMetaTag ∧
    TransGen Task.Contains (.view (.shell true [] [.alternative (namedTag "viewport")]))
        (.view (namedTag "viewport")) ∧
      (onPage branchPage).outcome.1 = .error misplacedMetaTag := by
  refine ⟨?_, rfl, ?_, rfl⟩
  · exact (TransGen.single (.shellHead true _ _)).tail (.child List.mem_cons_self)
  · exact ((TransGen.single (.shellBody true _ _)).tail (.child List.mem_cons_self)).tail
      (.branch _)

end Stage

end Sitewright
