import Sitewright.Proofs.Render.Trace

/-!
Contract: which meta tags are written into which head.

A meta tag waits for the head of the innermost shell that it is in the body of. The head of a
shell does not belong to its body: what is rendered in it waits for the head further out. So the
renders that take place in the body of a shell are divided: those that share its head, and those
in the bodies of shells further in, which have heads of their own.

Owns:
- `Stage.HeadTrace`, the renders that share a head, and the bodies among them that do not;
- `Stage.Waiting.final_eq`: the tags that wait in the end are those of the renders that share the
  head, in their order;
- `Stage.Trace.divided`: a trace consists of the renders that share a head and of those in the
  bodies further in;
- `Stage.shell_collects_metaTags`: the text of a shell, with the tags in its head.

Does not own: where a meta tag is refused.
-/

namespace Sitewright

open Markup Template Catalog Routing Relation

namespace Stage

open Render

/-! ## Bodies -/

/-- The second render is that of the body of the first one, which is a shell. -/
inductive OpensHead : Stage → Stage → Prop where
  | body (setting : Setting) (state : State) (morph : Bool) (head children : List View) :
      OpensHead ⟨.view (.shell morph head children), setting, state⟩
        (ofShellBody setting state children)

theorem OpensHead.isShell {shell body : Stage} (opens : OpensHead shell body) :
    shell.task.isShell = true := by
  cases opens
  rfl

/-- Of the phases of a render, these share its head, and these do not: the body of a shell has a
head of its own. -/
inductive Shares (stage : Stage) : (phases shared bodies : List Stage) → Prop where
  | all (phases : List Stage) (same : stage.task.isShell = false) : Shares stage phases phases []
  | heads {body : Stage} (heads : List Stage) (opens : OpensHead stage body) :
      Shares stage (body :: heads) heads [body]

/-- The first phase of a shell is its body. -/
theorem Phases.exists_shares {stage : Stage} {phases : List Stage} (phased : stage.Phases phases) :
    ∃ shared bodies, Shares stage phases shared bodies := by
  cases shell : stage.task.isShell with
  | false => exact ⟨phases, [], .all phases shell⟩
  | true =>
      cases phased with
      | template | fallback => cases shell
      | parts inDocument parted =>
          cases parted with
          | shellBody head failed => exact ⟨_, _, .heads [] (.body _ _ _ head _)⟩
          | shellHead head rendered => exact ⟨_, _, .heads _ (.body _ _ _ head _)⟩
          | nothing alone => exact absurd (exists_inner_of_isShell shell) (not_exists.mpr alone)
          | single single step => exact absurd (not_isShell_of_single single) (by simp [shell])
          | _ => cases shell

theorem Shares.subset {stage : Stage} {phases shared bodies : List Stage}
    (shares : Shares stage phases shared bodies) : shared ⊆ phases := by
  cases shares with
  | all => exact List.Subset.refl phases
  | heads heads opens => exact List.subset_cons_self _ _

/-- A phase that does not share the head is a body. -/
theorem Shares.mem_or_opens {stage phase : Stage} {phases shared bodies : List Stage}
    (shares : Shares stage phases shared bodies) (member : phase ∈ phases) :
    phase ∈ shared ∨ OpensHead stage phase := by
  cases shares with
  | all => exact .inl member
  | heads heads opens =>
      rcases List.mem_cons.mp member with rfl | inHeads
      · exact .inr opens
      · exact .inl inHeads

theorem Shares.opened {stage : Stage} {phases shared bodies : List Stage}
    (shares : Shares stage phases shared bodies) : ∀ body ∈ bodies, OpensHead stage body := by
  cases shares with
  | all => simp
  | heads heads opens => simpa using opens

/-- The renders of the agenda, and all in their course that share a head with them, in the order
in which they start; and the bodies of the shells among those, which have heads of their own. -/
inductive HeadTrace : (agenda sharing bodies : List Stage) → Prop where
  | done : HeadTrace [] [] []
  | next {stage : Stage} {phases shared left rest sharing bodies : List Stage}
      (phased : stage.Phases phases) (shares : Shares stage phases shared left)
      (later : HeadTrace (shared ++ rest) sharing bodies) :
      HeadTrace (stage :: rest) (stage :: sharing) (left ++ bodies)

theorem HeadTrace.append {first second early late bodies others : List Stage}
    (before : HeadTrace first early bodies) (after : HeadTrace second late others) :
    HeadTrace (first ++ second) (early ++ late) (bodies ++ others) := by
  induction before with
  | done => exact after
  | next phased shares _ inductionHypothesis =>
      rw [List.append_assoc] at inductionHypothesis ⊢
      exact .next phased shares inductionHypothesis

theorem HeadTrace.mem_of_mem {agenda sharing bodies : List Stage}
    (traced : HeadTrace agenda sharing bodies) : agenda ⊆ sharing := by
  induction traced with
  | done => exact List.Subset.refl []
  | next _ _ _ inductionHypothesis =>
      exact List.cons_subset_cons _
        (List.Subset.trans (List.subset_append_right _ _) inductionHypothesis)

/-- What shares a head takes place in the course of a render on the agenda. -/
theorem HeadTrace.course {agenda sharing bodies : List Stage}
    (traced : HeadTrace agenda sharing bodies) :
    ∀ stage ∈ sharing, ∃ first ∈ agenda, ReflTransGen Starts first stage := by
  induction traced with
  | done => simp
  | @next first phases shared left rest sharing bodies phased shares _ inductionHypothesis =>
      refine List.forall_mem_cons.mpr ⟨⟨first, List.mem_cons_self, .refl⟩, fun stage member => ?_⟩
      obtain ⟨start, onAgenda, course⟩ := inductionHypothesis stage member
      rcases List.mem_append.mp onAgenda with isShared | behind
      · exact ⟨first, List.mem_cons_self, .head ⟨phases, phased, shares.subset isShared⟩ course⟩
      · exact ⟨start, List.mem_cons_of_mem _ behind, course⟩

/-- Every body that is left out is that of a shell that shares the head. -/
theorem HeadTrace.opened {agenda sharing bodies : List Stage}
    (traced : HeadTrace agenda sharing bodies) :
    ∀ body ∈ bodies, ∃ shell ∈ sharing, OpensHead shell body := by
  induction traced with
  | done => simp
  | next _ shares _ inductionHypothesis =>
      intro body member
      rcases List.mem_append.mp member with isLeft | behind
      · exact ⟨_, List.mem_cons_self, shares.opened body isLeft⟩
      · obtain ⟨shell, inSharing, opens⟩ := inductionHypothesis body behind
        exact ⟨shell, List.mem_cons_of_mem _ inSharing, opens⟩

/-! ## Traces are divided -/

/-- What several renders start, each of them starts by itself. -/
theorem Trace.split {first second trace : List Stage} (traced : Trace (first ++ second) trace) :
    ∃ early late, trace = early ++ late ∧ Trace first early ∧ Trace second late := by
  generalize together : first ++ second = agenda at traced
  induction traced generalizing first with
  | done =>
      obtain ⟨rfl, rfl⟩ := List.append_eq_nil_iff.mp together
      exact ⟨[], [], rfl, .done, .done⟩
  | @next stage phases rest trace phased later inductionHypothesis =>
      cases first with
      | nil =>
          obtain rfl : second = stage :: rest := together
          exact ⟨[], _, rfl, .done, .next phased later⟩
      | cons head tail =>
          obtain ⟨rfl, rfl⟩ := List.cons.inj together
          obtain ⟨early, late, rfl, before, after⟩ :=
            inductionHypothesis (List.append_assoc phases tail second)
          exact ⟨head :: early, late, rfl, .next phased before, after⟩

/-- The bodies among the phases come first. -/
theorem Shares.split {stage : Stage} {phases shared left rest trace : List Stage}
    (shares : Shares stage phases shared left) (traced : Trace (phases ++ rest) trace) :
    ∃ early late, trace = early ++ late ∧ Trace left early ∧ Trace (shared ++ rest) late := by
  cases shares with
  | all => exact ⟨[], trace, rfl, .done, traced⟩
  | @heads body heads opens =>
      have apart : Trace ([body] ++ (shared ++ rest)) trace := traced
      exact apart.split

/-- Of all that takes place in the course of the agenda, these renders share its head, in this
order. Everything else takes place in the bodies of shells among them, and nothing does both. -/
def Divides (agenda trace sharing : List Stage) : Prop :=
  ∃ bodies inside, HeadTrace agenda sharing bodies ∧
    (∀ body ∈ bodies, ∃ shell ∈ sharing, OpensHead shell body) ∧ Trace bodies inside ∧
    sharing.Sublist trace ∧ trace.Perm (sharing ++ inside)

theorem Trace.divided {agenda trace : List Stage} (traced : Trace agenda trace) :
    ∃ sharing, Divides agenda trace sharing := by
  induction size : trace.length using Nat.strongRecOn generalizing agenda trace with
  | _ size shorter =>
    subst size
    cases traced with
    | done => exact ⟨[], [], [], .done, by simp, .done, .slnil, .nil⟩
    | @next stage phases rest trace phased later =>
        obtain ⟨shared, left, shares⟩ := phased.exists_shares
        obtain ⟨inBodies, others, rfl, bodiesTraced, othersTraced⟩ := shares.split later
        have fewer : others.length < (stage :: (inBodies ++ others)).length := by
          rw [List.length_cons, List.length_append]
          omega
        obtain ⟨sharing, bodies, inside, headed, -, within, listed, divided⟩ :=
          shorter others.length fewer othersTraced rfl
        have whole := HeadTrace.next phased shares headed
        refine ⟨stage :: sharing, left ++ bodies, inBodies ++ inside, whole, whole.opened,
          bodiesTraced.append within, ?_, ?_⟩
        · exact (listed.trans (List.sublist_append_right inBodies others)).cons_cons stage
        · exact .cons stage ((divided.append_left inBodies).trans
            (List.perm_append_comm_assoc inBodies sharing inside))

theorem exists_headTrace (agenda : List Stage) :
    ∃ sharing bodies, HeadTrace agenda sharing bodies := by
  obtain ⟨trace, traced⟩ := exists_trace agenda
  obtain ⟨sharing, bodies, inside, headed, -⟩ := traced.divided
  exact ⟨sharing, bodies, headed⟩

/-! ## Tags that wait -/

theorem gathered_eq (stage : Stage) :
    stage.gathered = stage.state.metaTags ++ stage.metaTag?.toList := by
  unfold gathered
  cases stage.metaTag? with
  | none => exact (List.append_nil _).symm
  | some attributes => rfl

theorem metaTags_collectMetaTags {α : Type} (content : Render α) (setting : Setting)
    (state : State) : (collectMetaTags content setting state).2.metaTags = state.metaTags := by
  unfold collectMetaTags
  dsimp only
  split <;> rfl

/-- From one phase to the next the tags that wait are handed on, be it into the template of a
region and out of it. -/
theorem Phases.follow_all {stage : Stage} {phases : List Stage} (phased : stage.Phases phases)
    (same : stage.task.isShell = false) :
    Follow State.metaTags stage.gathered phases stage.outcome.2.metaTags := by
  cases phased with
  | parts inDocument parted => exact (parted.follow_document same inDocument).map Prod.snd
  | @template setting state after region template fault fallback failed =>
      have restored := carried_compileTemplate region.resource (template .ofFragment).render
        setting state rfl
      rw [failed] at restored
      have ended : State.metaTags _ = State.metaTags _ :=
        congrArg (fun carried => carried.1.2) restored
      refine ⟨rfl, ended.symm.trans ?_⟩
      refine congrArg State.metaTags (Eq.trans ?_ (state_within _ _ _ _).symm)
      exact (state_remote_of_error failed).symm
  | @fallback setting state after later region handle template fallback compiled recorded =>
      have restored := carried_compileTemplate region.resource (template .ofFragment).render
        setting state rfl
      have kept := carried_recordRegion region handle setting after
      rw [compiled] at restored
      rw [recorded] at kept
      refine ⟨rfl, congrArg (fun carried => carried.1.2) (kept.trans restored), ?_⟩
      refine congrArg State.metaTags (Eq.trans ?_ (state_within _ _ _ _).symm)
      exact (state_remote compiled recorded).symm

/-- The body of a shell takes nothing from the tags that wait outside, and adds nothing to
them. -/
theorem Phases.follow_heads {stage body : Stage} {heads : List Stage}
    (phased : stage.Phases (body :: heads)) (opens : OpensHead stage body) :
    Follow State.metaTags stage.gathered heads stage.outcome.2.metaTags := by
  cases opens with
  | body setting state morph head children =>
      have kept := metaTags_collectMetaTags
        (Render.element "body" (bodyAttributes morph) (View.renderAll children)) setting state
      cases phased with
      | parts inDocument parted =>
          cases parted with
          | shellBody head failed =>
              rw [failed] at kept
              refine kept.symm.trans (congrArg State.metaTags ?_)
              refine Eq.trans ?_ (state_within _ _ _ _).symm
              exact (state_shell_of_error failed).symm
          | shellHead head rendered =>
              rw [rendered] at kept
              refine ⟨kept, congrArg State.metaTags ?_⟩
              refine Eq.trans ?_ (state_within _ _ _ _).symm
              exact (state_shell_of_ok rendered).symm
          | single single => cases single

theorem Phases.follow_metaTags {stage : Stage} {phases shared left : List Stage}
    (phased : stage.Phases phases) (shares : Shares stage phases shared left) :
    Follow State.metaTags stage.gathered shared stage.outcome.2.metaTags := by
  cases shares with
  | all phases same => exact phased.follow_all same
  | heads heads opens => exact phased.follow_heads opens

/-- Every render finds those tags waiting that the ones before it leave. -/
def Waiting : List Attributes → List Stage → List Attributes → Prop
  | given, [], final => given = final
  | given, stage :: rest, final => stage.state.metaTags = given ∧ Waiting stage.gathered rest final

/-- What shares a head hands the tags that wait on from one render to the next. -/
theorem HeadTrace.waiting {agenda sharing bodies : List Stage} {given final : List Attributes}
    (traced : HeadTrace agenda sharing bodies) (follow : Follow State.metaTags given agenda final) :
    Waiting given sharing final := by
  induction traced generalizing given with
  | done => exact follow
  | next phased shares _ inductionHypothesis =>
      obtain ⟨begins, behind⟩ := follow
      exact ⟨begins, inductionHypothesis ((phased.follow_metaTags shares).append behind)⟩

theorem Waiting.behind {before after : List Stage} {given final : List Attributes}
    (waiting : Waiting given (before ++ after) final) :
    Waiting (given ++ before.filterMap metaTag?) after final := by
  induction before generalizing given with
  | nil => exact (List.append_nil given).symm ▸ waiting
  | cons first rest inductionHypothesis =>
      obtain ⟨begins, behind⟩ := waiting
      have later := inductionHypothesis behind
      rw [gathered_eq, begins, List.append_assoc] at later
      rw [List.filterMap_cons]
      cases added : first.metaTag? <;> rw [added] at later <;> exact later

/-- The tags that wait in the end are those from before, and then those of the renders that share
the head, in the order in which these start. -/
theorem Waiting.final_eq {sharing : List Stage} {given final : List Attributes}
    (waiting : Waiting given sharing final) : final = given ++ sharing.filterMap metaTag? := by
  rw [← List.append_nil sharing] at waiting
  exact waiting.behind.symm

/-! ## The text of a shell -/

/-- Views that are all rendered are written one after another. -/
theorem exists_texts {setting : Setting} {views : List View} {state final : State} {text : String}
    (ended : View.renderAll views setting state = (.ok text, final)) :
    ∃ parts texts, Siblings setting views state parts ∧
      parts.map Stage.task = views.map Task.view ∧
      List.Forall₂ (fun part text => part.outcome.1 = .ok text) parts texts ∧
      text = String.join texts := by
  induction views generalizing state text with
  | nil =>
      obtain rfl := Except.ok.inj (Prod.mk.inj ended).1
      exact ⟨[], [], .done state, rfl, .nil, rfl⟩
  | cons first rest inductionHypothesis =>
      obtain ⟨text, after, rendered, behind⟩ := ok_of_bind ended
      obtain ⟨others, restRendered, rfl⟩ := ok_of_last behind
      obtain ⟨parts, texts, siblings, tasks, shown, rfl⟩ := inductionHypothesis restRendered
      refine ⟨_, text :: texts, .next rendered siblings, congrArg _ tasks,
        .cons (congrArg Prod.fst rendered) shown, ?_⟩
      rw [String.join_cons]

theorem elementText_head (content : String) :
    elementText "head" [] content = "<head>" ++ content ++ "</head>" := by
  have plain : isVoidTag "head" = false := by decide
  have bare : Attributes.text [] = "" := rfl
  rw [← String.toList_inj]
  simp [elementText, plain, bare]

/-- The text of a shell: the loader, what else is in the head, one element for each of the tags,
and the body. -/
def shellText (morph : Bool) (headText : String) (tags : List Attributes) (content : String) :
    String :=
  "<html><head>" ++ elementText "script" loaderAttributes "" ++ headText ++
    String.join (tags.map metaTagText) ++ "</head>" ++
    elementText "body" (bodyAttributes morph) content ++ "</html>"

/-- The tags in the head are those that wait when the body is over. -/
theorem text_of_shell {setting : Setting} {state : State} {morph : Bool}
    {head children : List View} {text : String}
    (ended : (outcome ⟨.view (.shell morph head children), setting, state⟩).1 = .ok text) :
    ∃ content after final headText,
      Phases ⟨.view (.shell morph head children), setting, state⟩
        [ofShellBody setting state children, ⟨.view (.group head), setting, after⟩] ∧
      (ofShellBody setting state children).outcome.1 = .ok content ∧
      View.renderAll head setting after = (.ok headText, final) ∧
      text = shellText morph headText (ofShellBody setting state children).outcome.2.metaTags
        content := by
  have shown : View.render (.shell morph head children) setting state = (.ok text, _) :=
    Prod.ext ended rfl
  obtain ⟨collected, after, rendered, behind⟩ := ok_of_bind (ok_of_within shown)
  have phased := Phases.parts rfl (.shellHead head rendered)
  obtain ⟨body, inner, inBody, rfl, rfl⟩ := ok_of_collectMetaTags rendered
  obtain ⟨content, inside, rfl⟩ := ok_of_last inBody
  obtain ⟨element, headed, rfl⟩ := ok_of_last behind
  obtain ⟨loaded, inHead, rfl⟩ := ok_of_last (ok_of_within headed)
  obtain ⟨tagged, withTags, rfl⟩ := ok_of_last inHead
  obtain ⟨headText, headRendered, rfl⟩ := ok_of_last withTags
  have tags : (ofShellBody setting state children).outcome.2 = inner := congrArg Prod.snd inside
  refine ⟨content, _, _, headText, phased, congrArg Prod.fst inside, headRendered, ?_⟩
  rw [tags, elementText_head]
  delta shellText
  simp only [String.append_assoc]
  rfl

end Stage

/-! ## Shells that are rendered -/

/-- How a meta tag fails where no shell collects it. -/
def misplacedMetaTag : Fault :=
  .within Construct.metaTag.label
    (.misuse Construct.metaTag.label "meta tags need an enclosing Html")

namespace Stage

open Render

variable {stage : Stage} {attributes : Attributes}

/-- Where a shell collects it, a meta tag is written as nothing. Elsewhere it fails, and nothing
else happens. -/
theorem outcome_of_metaTag (shown : stage.task = .view (.metaTag attributes)) :
    stage.outcome =
      if stage.setting.scope.shell then
        (.ok "", (addMetaTag attributes stage.setting stage.state).2)
      else (.error misplacedMetaTag, stage.state) := by
  obtain ⟨task, setting, state⟩ := stage
  obtain rfl : task = .view (.metaTag attributes) := shown
  simp only [outcome, Task.render, View.render, construct, within, Render.metaTag, setting_bind]
  cases setting.scope.shell <;> rfl

theorem task_of_metaTag? {task : Task} (shown : task.metaTag? = some attributes) :
    task = .view (.metaTag attributes) := by
  unfold Task.metaTag? at shown
  split at shown
  · rw [Option.some.inj shown]
  · cases shown

/-- A meta tag that does not fail waits for the head. -/
theorem metaTag?_of_ends (ends : stage.Ends) : stage.metaTag? = stage.task.metaTag? := by
  unfold metaTag?
  cases shown : stage.task.metaTag? with
  | none => rfl
  | some attributes =>
      cases around : stage.setting.scope.shell with
      | true => rfl
      | false =>
          have refused := outcome_of_metaTag (task_of_metaTag? shown)
          rw [around] at refused
          exact absurd (congrArg Prod.fst refused) (ends.ne_error _)

/-- With the body of a shell, all renders that share its head end with a text. -/
theorem HeadTrace.ends {agenda sharing bodies : List Stage}
    (headed : HeadTrace agenda sharing bodies) (ends : ∀ stage ∈ agenda, stage.Ends) :
    ∀ stage ∈ sharing, stage.Ends := by
  intro stage member
  obtain ⟨first, onAgenda, course⟩ := headed.course stage member
  exact Ends.of_course course (ends first onAgenda)

/-- When the body of a shell is over, the tags of all renders that share its head wait. -/
theorem HeadTrace.tags_of_body {setting : Setting} {state : State} {children : List View}
    {sharing bodies : List Stage}
    (headed : HeadTrace [ofShellBody setting state children] sharing bodies)
    (ends : (ofShellBody setting state children).Ends) :
    (ofShellBody setting state children).outcome.2.metaTags =
      sharing.filterMap fun stage => stage.task.metaTag? := by
  rw [(headed.waiting ⟨rfl, rfl⟩).final_eq]
  exact List.filterMap_congr fun stage member =>
    metaTag?_of_ends (headed.ends (List.forall_mem_singleton.mpr ends) stage member)

/-- A shell that is rendered collects the meta tags of its body. All renders in the body are
divided into those that share its head and those in the bodies of shells further in. The head has
the loader, the content given for it in order, and one element for each meta tag among the renders
that share it, in the order in which these take place; the meta tags themselves are written as
nothing. -/
theorem shell_collects_metaTags {shell : Stage} {morph : Bool} {head children : List View}
    {text : String} {trace : List Stage} (shown : shell.task = .view (.shell morph head children))
    (ended : shell.outcome.1 = .ok text)
    (traced : Trace [ofShellBody shell.setting shell.state children] trace) :
    ∃ sharing content after heads headTexts,
      Divides [ofShellBody shell.setting shell.state children] trace sharing ∧
      (∀ tag ∈ sharing, tag.task.metaTag?.isSome → tag.outcome.1 = .ok "") ∧
      shell.Phases [ofShellBody shell.setting shell.state children,
        ⟨.view (.group head), shell.setting, after⟩] ∧
      (ofShellBody shell.setting shell.state children).outcome.1 = .ok content ∧
      Siblings shell.setting head after heads ∧ heads.map Stage.task = head.map Task.view ∧
      List.Forall₂ (fun part text => part.outcome.1 = .ok text) heads headTexts ∧
      text = shellText morph (String.join headTexts)
        (sharing.filterMap fun stage => stage.task.metaTag?) content := by
  obtain ⟨task, setting, state⟩ := shell
  obtain rfl : task = .view (.shell morph head children) := shown
  obtain ⟨content, after, final, headText, phased, inBody, inHead, rfl⟩ := text_of_shell ended
  obtain ⟨heads, headTexts, siblings, tasks, texts, rfl⟩ := exists_texts inHead
  obtain ⟨sharing, bodies, inside, headed, opened, within, listed, divided⟩ := traced.divided
  have ends : (ofShellBody setting state children).Ends := ends_iff.mpr ⟨content, inBody⟩
  refine ⟨sharing, content, after, heads, headTexts, ⟨bodies, inside, headed, opened, within,
    listed, divided⟩, fun tag member isTag => ?_, phased, inBody, siblings, tasks, texts,
    by rw [headed.tags_of_body ends]⟩
  obtain ⟨attributes, isTag⟩ := Option.isSome_iff_exists.mp isTag
  have done := outcome_of_metaTag (task_of_metaTag? isTag)
  split at done
  · rw [done]
  · have tagEnds := headed.ends (List.forall_mem_singleton.mpr ends) tag member
    exact absurd (congrArg Prod.fst done) (tagEnds.ne_error _)

/-- The meta tag with this name. -/
def namedTag (name : String) : View :=
  .metaTag [⟨"name", .string name⟩]

/-- A tag in an element, in an alternative and in a loop, and a shell that has one tag in its head
and one in its body. -/
def storefrontContent : List View :=
  [.element "main" [] [namedTag "main"],
    .conditional (.literal (.bool true)) false [.alternative (namedTag "otherwise")] none,
    .loop ⟨".Items"⟩ fun _ _ => namedTag "item",
    .shell false [namedTag "head"] [namedTag "inside"]]

def storefront : Stage :=
  { task := .view (.shell true [.element "title" [] [.text "Shop"]] storefrontContent)
    setting := { config := .standard, pass := .build, scope := .page (.ofText "shop") "Shop" }
    state := .ofLedger (.ofBuild .empty (.ofConfig .standard)) }

def storefrontBody : Stage :=
  ofShellBody storefront.setting storefront.state storefrontContent

/-- The tag in the head of the inner shell belongs to the outer one. -/
example : storefrontBody.outcome.2.metaTags =
    ["main", "otherwise", "item", "head"].map fun name => [⟨"name", .string name⟩] := by
  decide +kernel

theorem storefront_collects_metaTags :
    ∃ text trace sharing content headTexts, storefront.outcome.1 = .ok text ∧
      Trace [storefrontBody] trace ∧ Divides [storefrontBody] trace sharing ∧
      text = shellText true (String.join headTexts)
        (sharing.filterMap fun stage => stage.task.metaTag?) content := by
  have succeeds : storefront.outcome.1.toOption.isSome = true := by decide +kernel
  obtain ⟨text, ended⟩ : ∃ text, storefront.outcome.1 = .ok text := by
    cases ended : storefront.outcome.1 with
    | ok text => exact ⟨text, rfl⟩
    | error fault =>
        rw [ended] at succeeds
        cases succeeds
  obtain ⟨trace, traced⟩ := exists_trace [storefrontBody]
  obtain ⟨sharing, content, after, heads, headTexts, divides, -, -, -, -, -, -, written⟩ :=
    shell_collects_metaTags rfl ended traced
  exact ⟨text, trace, sharing, content, headTexts, ended, traced, divides, written⟩

end Stage

end Sitewright
