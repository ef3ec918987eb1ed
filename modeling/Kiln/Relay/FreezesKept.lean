import Kiln.Relay.ResourceFreezes

/-!
# Freezes keep their owner and their first undo

What may be found of a resource at each point of a call on it is `FreezeStage`. It says that what is
stored and what is in memory agree but between the two statements of a freeze and while an undo is
being stored, and that a container whose policy isn't what it was before the freeze has that policy
stored. So where no call fails at those two points, a Relay keeps every freeze as it was taken.
-/

namespace Kiln.Relay
open Kiln.Lib FreezeCall OrderedMap FreezeStep List Option

/-- What is recorded of containers is what they had. -/
def Records (kind : FrozenKind) (before undo : RestartPolicies) : Prop :=
  ∀ container policy, undo.get container = some policy → kind = .app ∧ before.get container = some policy

/-- What a container doesn't have any more is recorded. -/
def Covers (undo before containers : RestartPolicies) : Prop :=
  ∀ container policy, containers.get container = some policy →
    ∃ had, before.get container = some had ∧ (policy = had ∨ undo.get container = some had)

/-- What is left has every container's policy as it was, but for what is still to be given back. -/
def GivesBack (pending : List (String × RestartPolicy)) (before containers : RestartPolicies) :
    Prop :=
  ∀ container policy, containers.get container = some policy →
    ∃ had, before.get container = some had ∧ (policy = had ∨ (container, had) ∈ pending)

/-- A freeze that is stored holds what it takes to let its resource go. -/
structure Undoable (kind : FrozenKind) (resource : Freezable) (held : Frozen) : Prop where
  records : Records kind resource.before held.undo
  covers : Covers held.undo resource.before resource.containers

/-- The steps of a quieting that record nothing. -/
inductive FreezeStep.Looks (deletionId : String) : FreezeStep → Prop
  | listContainers : Looks deletionId (.listContainers deletionId)
  | inspect (container : String) : Looks deletionId (.inspect deletionId container)
  | stop : Looks deletionId .stop

/-- The calls that quiet a resource for a deletion. -/
inductive FreezeOrder.Quiets (deletionId : String) : FreezeOrder → Prop
  | freeze : Quiets deletionId (.freeze deletionId)
  | reapply : Quiets deletionId .reapply

/-- How far a call is, and what is found of its resource then. -/
inductive FreezeStage (kind : FrozenKind) (resource : Freezable) : FreezeCall → Prop
  | inserting (deletionId : String) (agree : resource.frozen = resource.row) :
      FreezeStage kind resource ⟨.freeze deletionId,
        .insert deletionId :: .readHolder deletionId :: quietFrozenResource kind deletionId⟩
  | reading (deletionId : String) (held : Frozen) (stored : resource.row = some held)
      (known : resource.frozen = some held ∨ resource.frozen = none ∧ held = ⟨deletionId, .empty⟩) :
      FreezeStage kind resource ⟨.freeze deletionId, .readHolder deletionId :: quietFrozenResource kind deletionId⟩
  | looking (order : FreezeOrder) (rest : List FreezeStep) (held : Frozen)
      (quiets : order.Quiets held.deletionId) (stored : resource.row = some held)
      (known : resource.frozen = some held)
      (looks : ∀ step ∈ rest, step.Looks held.deletionId)
      (other : kind ≠ .app → ∀ step ∈ rest, step = .stop) :
      FreezeStage kind resource ⟨order, rest⟩
  | recording (order : FreezeOrder) (rest : List FreezeStep) (held : Frozen)
      (undo : RestartPolicies) (container : String) (had : RestartPolicy)
      (quiets : order.Quiets held.deletionId) (stored : resource.row = some held)
      (known : resource.frozen = some { held with undo })
      (app : kind = .app) (records : Records kind resource.before undo)
      (first : ∀ c p, held.undo.get c = some p → undo.get c = some p)
      (noted : undo.get container = some had)
      (looks : ∀ step ∈ rest, step.Looks held.deletionId) :
      FreezeStage kind resource ⟨order, .setResourceFreezeUndo held.deletionId :: .turnOff container :: rest⟩
  | turningOff (order : FreezeOrder) (rest : List FreezeStep) (held : Frozen) (container : String) (had : RestartPolicy)
      (quiets : order.Quiets held.deletionId) (stored : resource.row = some held)
      (known : resource.frozen = some held) (app : kind = .app)
      (noted : held.undo.get container = some had)
      (looks : ∀ step ∈ rest, step.Looks held.deletionId) :
      FreezeStage kind resource ⟨order, .turnOff container :: rest⟩
  | givingBack (held : Frozen) (pending : List (String × RestartPolicy))
      (stored : resource.row = some held) (known : resource.frozen = some held)
      (listed : ∀ entry ∈ pending, held.undo.get entry.1 = some entry.2)
      (left : GivesBack pending resource.before resource.containers) :
      FreezeStage kind resource ⟨.unfreeze held.deletionId, pending.map (fun entry => .giveBack entry.1 entry.2) ++
          [.unfreezeResource held.deletionId]⟩
  | forgetting (agree : resource.frozen = resource.row) : FreezeStage kind resource ⟨.forget, [.forgetResourceFreeze]⟩
  | done (order : FreezeOrder) (agree : resource.frozen = resource.row) : FreezeStage kind resource ⟨order, []⟩

/-- What is found of a resource, and of the call on it, if there is one. -/
structure FreezeSound (kind : FrozenKind) (resource : Freezable) (call : Option FreezeCall) :
    Prop where
  undoable : ∀ held, resource.row = some held → Undoable kind resource held
  idle : call = none → resource.frozen = resource.row
  stage : ∀ under ∈ call, FreezeStage kind resource under

/-- A failure would leave what is stored apart from what is in memory: it comes between the two statements of a freeze,
with nothing in memory yet, or where an undo is being stored that isn't the stored one. -/
def ResourceFreezes.failsApart (s : ResourceFreezes) (key : ResourceKey) : Bool :=
  match s.calls key with
  | some ⟨_, .readHolder _ :: _⟩ => s.frozen.get key = none
  | some ⟨_, .setResourceFreezeUndo _ :: _⟩ =>
      (s.frozen.get key).map Frozen.undo ≠ (s.rows.get key).map Frozen.undo
  | _ => false

/-- A run in which nothing fails there. -/
def FailsTogether (s : ResourceFreezes) : FreezeEvent → Prop
  | .fail key => s.failsApart key = false
  | _ => True

instance (s : ResourceFreezes) (event : FreezeEvent) : Decidable (FailsTogether s event) := by
  cases event <;> unfold FailsTogether <;> infer_instance

/-! ## What a step leaves -/

variable {kind : FrozenKind} {resource after : Freezable} {call : FreezeCall}

theorem updated_given (policy : RestartPolicy) : RestartPolicy.updated policy.name
      (if policy.name = "on-failure" then some policy.maximumRetryCount else none) = policy := by
  obtain ⟨name, count, counted⟩ := policy
  by_cases named : name = "on-failure"
  · simp [RestartPolicy.updated, named]
  · simp [RestartPolicy.updated, named, counted named]

variable {deletionId : String}

theorem looks_quietFrozenResource : ∀ step ∈ quietFrozenResource kind deletionId, step.Looks deletionId := by
  intro step listed
  cases kind <;> simp only [quietFrozenResource, mem_cons, not_mem_nil, or_false] at listed
  · exact listed ▸ .listContainers
  · exact listed ▸ .stop
  · exact listed ▸ .stop

theorem stop_of_mem_quietFrozenResource (other : kind ≠ .app) :
    ∀ step ∈ quietFrozenResource kind deletionId, step = .stop := by
  intro step listed
  cases kind <;> simp_all [quietFrozenResource]

variable {held : Frozen}

theorem Undoable.withRow (undoable : Undoable kind resource held)
    (same : after.before = resource.before ∧ after.containers = resource.containers) :
    Undoable kind after held := by
  refine ⟨?_, ?_⟩
  · rw [same.1]
    exact undoable.records
  · rw [same.1, same.2]
    exact undoable.covers

/-- A resource that is frozen anew has nothing to undo. -/
theorem undoable_fresh (deletionId : String) (same : resource.before = resource.containers) :
    Undoable kind resource ⟨deletionId, .empty⟩ := by
  refine ⟨fun container policy recorded => by simp at recorded, fun container policy there => ?_⟩
  exact ⟨policy, same ▸ there, .inl rfl⟩

variable {container : String} {containers before undo : RestartPolicies} {policy had : RestartPolicy}

theorem covers_set (covers : Covers undo before containers) (was : before.get container = some had)
    (kept : policy = had ∨ undo.get container = some had) :
    Covers undo before (containers.set container policy) := by
  intro c p there
  rw [get_set] at there
  split at there
  · rename_i same
    subst same
    cases there
    exact ⟨had, was, kept⟩
  · exact covers c p there

theorem covers_delete (container : String) (covers : Covers undo before containers) :
    Covers undo before (containers.delete container) := by
  intro c p there
  rw [get_delete] at there
  split at there
  · cases there
  · exact covers c p there

variable {pending : List (String × RestartPolicy)}

theorem givesBack_delete (container : String) (left : GivesBack pending before containers) :
    GivesBack pending before (containers.delete container) := by
  intro c p there
  rw [get_delete] at there
  split at there
  · cases there
  · exact left c p there

theorem givesBack_tail (left : GivesBack ((container, policy) :: pending) before containers)
    (was : before.get container = some policy) :
    GivesBack pending before (containers.set container policy) := by
  intro c p there
  rw [get_set] at there
  split at there
  · rename_i same
    subst same
    exact ⟨policy, was, .inl (Option.some.inj there).symm⟩
  rename_i other
  obtain ⟨had, was', equal | listed⟩ := left c p there
  · exact ⟨had, was', .inl equal⟩
  · rcases mem_cons.mp listed with same | listed
    · exact absurd (Prod.mk.inj same).1.symm other
    · exact ⟨had, was', .inr listed⟩

theorem givesBack_gone (left : GivesBack ((container, policy) :: pending) before containers)
    (gone : containers.get container = none) : GivesBack pending before containers := by
  intro c p there
  obtain ⟨had, was, equal | listed⟩ := left c p there
  · exact ⟨had, was, .inl equal⟩
  · rcases mem_cons.mp listed with same | listed
    · cases same
      rw [gone] at there
      cases there
    · exact ⟨had, was, .inr listed⟩

variable {rest : List FreezeStep}

theorem looks_append {steps : List FreezeStep} (looks : ∀ step ∈ steps, step.Looks deletionId)
    (later : ∀ step ∈ rest, step.Looks deletionId) :
    ∀ step ∈ steps ++ rest, step.Looks deletionId := by
  intro step listed
  rcases mem_append.mp listed with listed | listed
  · exact looks step listed
  · exact later step listed

theorem FreezeSound.of_stage (undoable : ∀ held, resource.row = some held → Undoable kind resource held)
    (stage : FreezeStage kind resource call) : FreezeSound kind resource (some call) :=
  ⟨undoable, (nomatch ·), fun _ same => Option.some.inj same ▸ stage⟩

theorem FreezeSound.of_idle (undoable : ∀ held, resource.row = some held → Undoable kind resource held)
    (agree : resource.frozen = resource.row) : FreezeSound kind resource none :=
  ⟨undoable, fun _ => agree, fun _ under => nomatch under⟩

variable {more : List FreezeStep}

theorem insert_sound (undoable : ∀ held, resource.row = some held → Undoable kind resource held)
    (agree : resource.frozen = resource.row)
    (made : (insert deletionId).run resource = some (after, more)) :
    FreezeSound kind after (some ⟨.freeze deletionId,
      more ++ .readHolder deletionId :: quietFrozenResource kind deletionId⟩) := by
  simp only [run] at made
  split at made
  · rename_i held stored
    cases made
    exact .of_stage undoable (.reading deletionId held stored (.inl (agree.trans stored)))
  rename_i absent
  cases made
  refine .of_stage ?_ (.reading deletionId _ rfl (.inr ⟨agree.trans absent, rfl⟩))
  intro held stored
  cases stored
  exact undoable_fresh deletionId rfl

theorem readHolder_sound (undoable : Undoable kind resource held) (stored : resource.row = some held)
    (known : resource.frozen = some held ∨ resource.frozen = none ∧ held = ⟨deletionId, .empty⟩)
    (made : (readHolder deletionId).run resource = some (after, more)) :
    FreezeSound kind after (some ⟨.freeze deletionId, more ++ quietFrozenResource kind deletionId⟩) := by
  simp only [run, stored, map_some, getD_some] at made
  split at made
  · cases made
  rename_i same
  cases made
  have holds : held.deletionId = deletionId := not_not.mp same
  have now : resource.frozen.getD ⟨deletionId, .empty⟩ = held := by
    rcases known with known | ⟨absent, fresh⟩
    · rw [known, getD_some]
    · rw [absent, getD_none, fresh]
  refine .of_stage ?_ (.looking _ _ held (holds ▸ .freeze) rfl (congrArg some now) ?_ ?_)
  · intro held' stored'
    cases stored'
    exact undoable.withRow ⟨rfl, rfl⟩
  · exact holds ▸ looks_quietFrozenResource
  · exact fun other => stop_of_mem_quietFrozenResource other

variable {order : FreezeOrder}

theorem inspect_sound (undoable : Undoable kind resource held)
    (quiets : order.Quiets held.deletionId) (stored : resource.row = some held)
    (known : resource.frozen = some held) (looks : ∀ step ∈ rest, step.Looks held.deletionId)
    (app : kind = .app)
    (made : (FreezeStep.inspect held.deletionId container).run resource = some (after, more)) :
    FreezeSound kind after (some ⟨order, more ++ rest⟩) := by
  obtain ⟨policy, there, made⟩ := map_eq_some_iff.mp made
  split at made
  · cases made
    refine .of_stage ?_ (.looking order rest held quiets stored known looks fun other => absurd app other)
    intro held' stored'
    exact Option.some.inj (stored.symm.trans stored') ▸ undoable
  cases made
  rw [known]
  -- What was recorded first wins; what is recorded now wasn't changed yet.
  obtain ⟨had, was, kept⟩ := undoable.covers container policy there
  have noted : ((empty.set container policy).spread held.undo).get container = some had := by
    cases recorded : held.undo.get container with
    | some first =>
      have same := (undoable.records container first recorded).2
      rw [was] at same
      rw [get_spread, recorded, some_or, Option.some.inj same]
    | none =>
      rcases kept with rfl | recorded'
      · simp [recorded]
      · rw [recorded] at recorded'
        exact nomatch recorded'
  refine .of_stage ?_ (.recording order rest held _ container had quiets stored rfl app ?_ ?_ noted looks)
  · intro held' stored'
    cases stored.symm.trans stored'
    exact undoable.withRow ⟨rfl, rfl⟩
  · intro c p recorded
    rcases eq_or_ne container c with rfl | other
    · rw [noted] at recorded
      exact ⟨app, was.trans recorded⟩
    · rw [get_spread, get_set, if_neg other, get_empty, or_none] at recorded
      exact undoable.records c p recorded
  · intro c p recorded
    rw [get_spread, recorded, some_or]

variable {step : FreezeStep}

theorem look_sound (undoable : Undoable kind resource held) (quiets : order.Quiets held.deletionId)
    (stored : resource.row = some held) (known : resource.frozen = some held)
    (looks : ∀ s ∈ step :: rest, s.Looks held.deletionId)
    (other : kind ≠ .app → ∀ s ∈ step :: rest, s = .stop)
    (made : step.run resource = some (after, more)) :
    FreezeSound kind after (some ⟨order, more ++ rest⟩) := by
  have kept : ∀ held', resource.row = some held' → Undoable kind resource held' := fun held' is =>
    Option.some.inj (stored.symm.trans is) ▸ undoable
  have later : ∀ s ∈ rest, s.Looks held.deletionId := fun s listed =>
    looks s (mem_cons_of_mem _ listed)
  have app : step ≠ .stop → kind = .app := fun notStop =>
    by_contra fun isOther => notStop (other isOther step mem_cons_self)
  cases looks step mem_cons_self with
  | listContainers =>
    cases made
    have isApp := app (by simp)
    refine .of_stage kept (.looking order _ held quiets stored known ?_ fun isOther =>
      absurd isApp isOther)
    refine looks_append (looks_append ?_ ?_) later
    · intro s listed
      obtain ⟨entry, -, rfl⟩ := mem_map.mp listed
      exact .inspect entry.1
    · intro s listed
      exact mem_singleton.mp listed ▸ .stop
  | inspect container =>
    exact inspect_sound undoable quiets stored known later (app (by simp)) made
  | stop =>
    cases made
    exact .of_stage kept (.looking order rest held quiets stored known later fun isOther s listed =>
      other isOther s (mem_cons_of_mem _ listed))

theorem record_sound (undoable : Undoable kind resource held)
    (quiets : order.Quiets held.deletionId) (stored : resource.row = some held)
    (known : resource.frozen = some { held with undo }) (app : kind = .app)
    (records : Records kind resource.before undo)
    (first : ∀ c p, held.undo.get c = some p → undo.get c = some p)
    (noted : undo.get container = some had) (looks : ∀ s ∈ rest, s.Looks held.deletionId)
    (made : (setResourceFreezeUndo held.deletionId).run resource = some (after, more)) :
    FreezeSound kind after (some ⟨order, more ++ .turnOff container :: rest⟩) := by
  cases made
  have now : (resource.row.map fun row => if row.deletionId = held.deletionId then
      { row with undo := (resource.frozen.map Frozen.undo).getD row.undo } else row) =
      some { held with undo } := by
    rw [stored, known, map_some, if_pos rfl]
    rfl
  refine .of_stage ?_ (.turningOff order rest { held with undo } container had quiets now known app noted looks)
  intro held' is
  cases now.symm.trans is
  refine ⟨records, fun c p there => ?_⟩
  obtain ⟨was, before, same | recorded⟩ := undoable.covers c p there
  · exact ⟨was, before, .inl same⟩
  · exact ⟨was, before, .inr (first c was recorded)⟩

/-- A container is kept from starting on its own, its policy being stored. -/
theorem turnOff_undoable (undoable : Undoable kind resource held) (noted : held.undo.get container = some had)
    (made : (turnOff container).run resource = some (after, more)) :
    (after.row = resource.row ∧ after.frozen = resource.frozen ∧ more = []) ∧ Undoable kind after held := by
  obtain ⟨policy, -, made⟩ := map_eq_some_iff.mp made
  cases made
  refine ⟨⟨rfl, rfl, rfl⟩, undoable.records, ?_⟩
  exact covers_set undoable.covers (undoable.records container had noted).2 (.inr noted)

theorem giveBack_undoable (undoable : Undoable kind resource held) (noted : held.undo.get container = some policy)
    (left : GivesBack ((container, policy) :: pending) resource.before resource.containers)
    (made : (giveBack container policy).run resource = some (after, more)) :
    (after.row = resource.row ∧ after.frozen = resource.frozen ∧ more = []) ∧
      Undoable kind after held ∧ GivesBack pending after.before after.containers := by
  have was := (undoable.records container policy noted).2
  simp only [run, updated_given] at made
  split at made
  · rename_i gone
    cases made
    exact ⟨⟨rfl, rfl, rfl⟩, undoable, givesBack_gone left gone⟩
  · cases made
    refine ⟨⟨rfl, rfl, rfl⟩, ⟨undoable.records, ?_⟩, givesBack_tail left was⟩
    exact covers_set undoable.covers was (.inl rfl)

/-- One step of a call leaves a resource as it is to be found after it. -/
theorem step_sound (sound : FreezeSound kind resource (some ⟨order, step :: rest⟩))
    (made : step.run resource = some (after, more)) :
    FreezeSound kind after (some ⟨order, more ++ rest⟩) := by
  have undoable := sound.undoable
  have stage := sound.stage _ rfl
  generalize under : (⟨order, step :: rest⟩ : FreezeCall) = call at stage
  cases stage with
  | inserting deletionId agree =>
    obtain ⟨rfl, same⟩ := mk.inj under
    cases same
    exact insert_sound undoable agree made
  | reading deletionId held stored known =>
    obtain ⟨rfl, same⟩ := mk.inj under
    cases same
    exact readHolder_sound (undoable held stored) stored known made
  | looking order' rest' held quiets stored known looks other =>
    obtain ⟨rfl, rfl⟩ := mk.inj under
    exact look_sound (undoable held stored) quiets stored known looks other made
  | recording order' rest' held undo container had quiets stored known app records first noted looks =>
    obtain ⟨rfl, same⟩ := mk.inj under
    cases same
    exact record_sound (undoable held stored) quiets stored known app records first noted looks made
  | turningOff order' rest' held container had quiets stored known app noted looks =>
    obtain ⟨rfl, same⟩ := mk.inj under
    cases same
    obtain ⟨⟨row, frozen, rfl⟩, kept⟩ := turnOff_undoable (undoable held stored) noted made
    refine .of_stage ?_ (.looking order rest held quiets (row.trans stored) (frozen.trans known)
      looks fun isOther => absurd app isOther)
    intro held' is
    cases (row.trans stored).symm.trans is
    exact kept
  | givingBack held pending stored known listed left =>
    obtain ⟨rfl, same⟩ := mk.inj under
    cases pending with
    | nil =>
      cases same
      cases made
      have gone : resource.row.filter (fun row => row.deletionId ≠ held.deletionId) = none := by
        rw [stored]
        simp [Option.filter]
      refine .of_stage ?_ (.done _ gone.symm)
      exact fun held' is => nomatch gone.symm.trans is
    | cons entry pending =>
      cases same
      obtain ⟨⟨row, frozen, rfl⟩, kept, left⟩ := giveBack_undoable (undoable held stored)
        (listed entry mem_cons_self) left made
      refine .of_stage ?_ (.givingBack held pending (row.trans stored) (frozen.trans known)
        (fun entry member => listed entry (mem_cons_of_mem _ member)) left)
      intro held' is
      cases (row.trans stored).symm.trans is
      exact kept
  | forgetting agree =>
    obtain ⟨rfl, same⟩ := mk.inj under
    cases same
    cases made
    exact .of_stage (fun held' is => nomatch is) (.done _ rfl)
  | done order' agree => exact nomatch (mk.inj under).2

/-! ## Where a call ends -/

/-- Memory and row agree but where a failure would leave them apart. -/
theorem agrees_of_stage (stage : FreezeStage kind resource call)
    (reads : ∀ deletionId rest, call.rest = .readHolder deletionId :: rest → resource.frozen ≠ none)
    (records : ∀ deletionId rest, call.rest = .setResourceFreezeUndo deletionId :: rest →
      resource.frozen.map Frozen.undo = resource.row.map Frozen.undo) :
    resource.frozen = resource.row := by
  cases stage with
  | inserting deletionId agree => exact agree
  | reading deletionId held stored known =>
    rcases known with known | ⟨absent, -⟩
    · exact known.trans stored.symm
    · exact absurd absent (reads _ _ rfl)
  | looking order rest held quiets stored known looks other => exact known.trans stored.symm
  | recording order rest held undo container had quiets stored known app recorded first noted looks =>
    have same := records _ _ rfl
    rw [known, stored] at same
    cases same
    exact known.trans stored.symm
  | turningOff order rest held container had quiets stored known app noted looks =>
    exact known.trans stored.symm
  | givingBack held pending stored known listed left => exact known.trans stored.symm
  | forgetting agree => exact agree
  | done order agree => exact agree

/-- A call that is through. -/
theorem finish_sound (sound : FreezeSound kind resource (some ⟨order, []⟩)) :
    FreezeSound kind resource none := by
  refine .of_idle sound.undoable (agrees_of_stage (sound.stage _ rfl) ?_ ?_)
  · exact fun _ _ starts => nomatch starts
  · exact fun _ _ starts => nomatch starts

/-- A change Docker made, though its answer was lost. -/
theorem lose_sound (sound : FreezeSound kind resource (some ⟨order, step :: rest⟩))
    (loses : step.loses = true) (made : step.run resource = some (after, more)) :
    FreezeSound kind after none := by
  have undoable := sound.undoable
  have stage := sound.stage _ rfl
  generalize under : (⟨order, step :: rest⟩ : FreezeCall) = call at stage
  cases stage with
  | turningOff order' rest' held container had quiets stored known app noted looks =>
    obtain ⟨rfl, same⟩ := mk.inj under
    cases same
    obtain ⟨⟨row, frozen, rfl⟩, kept⟩ := turnOff_undoable (undoable held stored) noted made
    refine .of_idle ?_ ((frozen.trans known).trans (row.trans stored).symm)
    intro held' is
    cases (row.trans stored).symm.trans is
    exact kept
  | givingBack held pending stored known listed left =>
    obtain ⟨rfl, same⟩ := mk.inj under
    cases pending with
    | nil =>
      cases same
      cases loses
    | cons entry pending =>
      cases same
      obtain ⟨⟨row, frozen, rfl⟩, kept, -⟩ := giveBack_undoable (undoable held stored)
        (listed entry mem_cons_self) left made
      refine .of_idle ?_ ((frozen.trans known).trans (row.trans stored).symm)
      intro held' is
      cases (row.trans stored).symm.trans is
      exact kept
  | looking order' rest' held quiets stored known looks other =>
    obtain ⟨rfl, rfl⟩ := mk.inj under
    cases looks step mem_cons_self <;> exact nomatch loses
  | inserting deletionId agree =>
    obtain ⟨rfl, rfl⟩ := List.cons.inj (mk.inj under).2
    cases loses
  | reading deletionId held stored known =>
    obtain ⟨rfl, rfl⟩ := List.cons.inj (mk.inj under).2
    cases loses
  | recording order' rest' held undo container had quiets stored known app records first noted looks =>
    obtain ⟨rfl, rfl⟩ := List.cons.inj (mk.inj under).2
    cases loses
  | forgetting agree =>
    obtain ⟨rfl, rfl⟩ := List.cons.inj (mk.inj under).2
    cases loses
  | done order' agree => exact nomatch (mk.inj under).2

/-- A call begins on what it finds. -/
theorem start_sound (order : FreezeOrder) (sound : FreezeSound kind resource none) :
    FreezeSound kind resource (some ⟨order, order.plan kind resource⟩) := by
  have agree := sound.idle rfl
  cases order with
  | freeze deletionId => exact .of_stage sound.undoable (.inserting deletionId agree)
  | forget => exact .of_stage sound.undoable (.forgetting agree)
  | reapply =>
    simp only [FreezeOrder.plan]
    cases known : resource.frozen with
    | none => exact .of_stage sound.undoable (.done _ agree)
    | some held =>
      refine .of_stage sound.undoable (.looking _ _ held .reapply (agree.symm.trans known) known ?_
        fun other => stop_of_mem_quietFrozenResource other)
      exact looks_quietFrozenResource
  | unfreeze deletionId =>
    simp only [FreezeOrder.plan]
    cases known : resource.frozen with
    | none => exact .of_stage sound.undoable (.done _ agree)
    | some held =>
      dsimp only
      split
      · exact .of_stage sound.undoable (.done _ agree)
      rename_i same
      obtain rfl := not_not.mp same
      have stored := agree.symm.trans known
      have undoable := sound.undoable held stored
      by_cases app : kind = .app
      · subst app
        refine .of_stage sound.undoable (.givingBack held held.undo.entries stored known ?_ ?_)
        · exact fun entry listed => get_eq_some.mpr listed
        · intro c p there
          obtain ⟨had, was, same | recorded⟩ := undoable.covers c p there
          · exact ⟨had, was, .inl same⟩
          · exact ⟨had, was, .inr (get_eq_some.mp recorded)⟩
      -- Nothing is recorded of another kind of resource.
      have plain : restoreFrozenResource kind held.undo = [] := by
        cases kind with
        | app => exact absurd rfl app
        | _ => rfl
      rw [plain]
      refine .of_stage sound.undoable (.givingBack held [] stored known ?_ ?_)
      · exact fun entry listed => nomatch listed
      · intro c p there
        obtain ⟨had, was, same | recorded⟩ := undoable.covers c p there
        · exact ⟨had, was, .inl same⟩
        · exact absurd (undoable.records c had recorded).1 app

/-- A restart has in memory what is stored. -/
theorem load_sound {call : Option FreezeCall} (sound : FreezeSound kind resource call) :
    FreezeSound kind { resource with frozen := resource.row } none :=
  .of_idle (fun held stored => (sound.undoable held stored).withRow ⟨rfl, rfl⟩) rfl

theorem change_sound (containers : RestartPolicies) (sound : FreezeSound kind resource none)
    (absent : resource.frozen = none) : FreezeSound kind { resource with containers } none := by
  have agree := sound.idle rfl
  refine .of_idle (fun held stored => ?_) agree
  exact nomatch (agree.symm.trans absent).symm.trans stored

theorem remove_sound (container : String) {call : Option FreezeCall} (sound : FreezeSound kind resource call) :
    FreezeSound kind { resource with containers := resource.containers.delete container } call := by
  refine ⟨fun held stored => ?_, sound.idle, fun under is => ?_⟩
  · have undoable := sound.undoable held stored
    exact ⟨undoable.records, covers_delete container undoable.covers⟩
  cases sound.stage under is with
  | inserting deletionId agree => exact .inserting deletionId agree
  | reading deletionId held stored known => exact .reading deletionId held stored known
  | looking order rest held quiets stored known looks other =>
    exact .looking order rest held quiets stored known looks other
  | recording order rest held undo c had quiets stored known app records first noted looks =>
    exact .recording order rest held undo c had quiets stored known app records first noted looks
  | turningOff order rest held c had quiets stored known app noted looks =>
    exact .turningOff order rest held c had quiets stored known app noted looks
  | givingBack held pending stored known listed left =>
    exact .givingBack held pending stored known listed (givesBack_delete container left)
  | forgetting agree => exact .forgetting agree
  | done order agree => exact .done order agree

/-! ## Who may change what -/

/-- The undo in memory, too, is what it takes to let a resource go. -/
theorem undoable_frozen {call : Option FreezeCall} (sound : FreezeSound kind resource call)
    (known : resource.frozen = some held) : Undoable kind resource held := by
  cases under : call with
  | none => exact sound.undoable held ((sound.idle under).symm.trans known)
  | some call =>
    cases sound.stage call under with
    | inserting deletionId agree => exact sound.undoable held (agree.symm.trans known)
    | reading deletionId stored is known' =>
      rcases known' with known' | ⟨absent, -⟩
      · exact sound.undoable held (is.trans (known'.symm.trans known))
      · exact nomatch absent.symm.trans known
    | looking order rest stored quiets is known' looks other =>
      exact sound.undoable held (is.trans (known'.symm.trans known))
    | recording order rest stored undo c had quiets is known' app records first noted looks =>
      cases known'.symm.trans known
      refine ⟨records, fun c p there => ?_⟩
      obtain ⟨had, was, same | recorded⟩ := (sound.undoable stored is).covers c p there
      · exact ⟨had, was, .inl same⟩
      · exact ⟨had, was, .inr (first c had recorded)⟩
    | turningOff order rest stored c had quiets is known' app noted looks =>
      exact sound.undoable held (is.trans (known'.symm.trans known))
    | givingBack stored pending is known' listed left =>
      exact sound.undoable held (is.trans (known'.symm.trans known))
    | forgetting agree => exact sound.undoable held (agree.symm.trans known)
    | done order agree => exact sound.undoable held (agree.symm.trans known)

theorem restored_of_sound (sound : FreezeSound kind resource
      (some ⟨.unfreeze deletionId, .unfreezeResource deletionId :: rest⟩)) :
    ∀ container policy, resource.containers.get container = some policy →
      resource.before.get container = some policy := by
  have stage := sound.stage _ rfl
  generalize under : (⟨.unfreeze deletionId, .unfreezeResource deletionId :: rest⟩ : FreezeCall) = call at stage
  intro container policy there
  cases stage with
  | givingBack held pending stored known listed left =>
    obtain ⟨-, same⟩ := mk.inj under
    cases pending with
    | nil =>
      obtain ⟨had, was, rfl | listed⟩ := left container policy there
      · exact was
      · cases listed
    | cons entry pending => exact nomatch (List.cons.inj same).1
  | looking order rest held quiets stored known looks other =>
    obtain ⟨rfl, rfl⟩ := mk.inj under
    cases quiets
  | inserting deletionId agree => exact nomatch (mk.inj under).1
  | reading deletionId held stored known => exact nomatch (mk.inj under).1
  | recording order rest held undo c had quiets stored known app records first noted looks =>
    exact nomatch (List.cons.inj (mk.inj under).2).1
  | turningOff order rest held c had quiets stored known app noted looks =>
    exact nomatch (List.cons.inj (mk.inj under).2).1
  | forgetting agree => exact nomatch (mk.inj under).1
  | done order agree => exact nomatch (mk.inj under).2

/-- The freeze is still the same deletion's, and its undo has what it had. -/
def Frozen.Stays (held : Frozen) (row : Option Frozen) : Prop :=
  ∃ held', row = some held' ∧ held'.deletionId = held.deletionId ∧
    ∀ container policy, held.undo.get container = some policy → held'.undo.get container = some policy

theorem Frozen.Stays.same {row : Option Frozen} (stored : row = some held) :
    held.Stays row :=
  ⟨held, stored, rfl, fun _ _ recorded => recorded⟩

/-- A step leaves a freeze its holder's, but for the holder's own unfreezing and a forgetting. -/
theorem step_stays (sound : FreezeSound kind resource (some ⟨order, step :: rest⟩))
    (made : step.run resource = some (after, more)) (stored : resource.row = some held) :
    held.Stays after.row ∨ order = .unfreeze held.deletionId ∨ order = .forget := by
  have stage := sound.stage _ rfl
  generalize under : (⟨order, step :: rest⟩ : FreezeCall) = call at stage
  cases stage with
  | inserting deletionId agree =>
    obtain ⟨rfl, rfl⟩ := List.cons.inj (mk.inj under).2
    simp only [run, stored] at made
    cases made
    exact .inl (.same stored)
  | reading deletionId held' is known =>
    obtain ⟨rfl, rfl⟩ := List.cons.inj (mk.inj under).2
    simp only [run] at made
    split at made
    · cases made
    · cases made
      exact .inl (.same stored)
  | looking order' rest' held' quiets is known looks other =>
    obtain ⟨rfl, rfl⟩ := mk.inj under
    cases looks step mem_cons_self with
    | inspect container =>
      obtain ⟨policy, there, made⟩ := map_eq_some_iff.mp made
      split at made
      · cases made
        exact .inl (.same stored)
      · cases made
        exact .inl (.same stored)
    | listContainers =>
      cases made
      exact .inl (.same stored)
    | stop =>
      cases made
      exact .inl (.same stored)
  | recording order' rest' held' undo container had quiets is known app records first noted looks =>
    obtain ⟨rfl, rfl⟩ := List.cons.inj (mk.inj under).2
    cases made
    obtain rfl := Option.some.inj (is.symm.trans stored)
    refine .inl ⟨{ held' with undo }, ?_, rfl, first⟩
    simp [is, known]
  | turningOff order' rest' held' container had quiets is known app noted looks =>
    obtain ⟨rfl, rfl⟩ := List.cons.inj (mk.inj under).2
    obtain ⟨⟨row, -, -⟩, -⟩ := turnOff_undoable (sound.undoable held' is) noted made
    exact .inl (.same (row.trans stored))
  | givingBack held' pending is known listed left =>
    obtain ⟨rfl, -⟩ := mk.inj under
    cases is.symm.trans stored
    exact .inr (.inl rfl)
  | forgetting agree => exact .inr (.inr (mk.inj under).1)
  | done order' agree => exact nomatch (mk.inj under).2

/-- A call of another deletion: it freezes what it doesn't hold, or lets that go. -/
inductive FreezeOrder.OfAnother (held : Frozen) : FreezeOrder → Prop
  | freeze {deletionId : String} (other : deletionId ≠ held.deletionId) : OfAnother held (.freeze deletionId)
  | unfreeze {deletionId : String} (other : deletionId ≠ held.deletionId) : OfAnother held (.unfreeze deletionId)

/-- A call of another deletion changes nothing. -/
theorem step_ofAnother (sound : FreezeSound kind resource (some ⟨order, step :: rest⟩))
    (made : step.run resource = some (after, more)) (stored : resource.row = some held)
    (another : order.OfAnother held) : after = resource := by
  have stage := sound.stage _ rfl
  generalize under : (⟨order, step :: rest⟩ : FreezeCall) = call at stage
  have own : ∀ {held'}, resource.row = some held' → ¬ order.Quiets held'.deletionId := by
    intro held' is quiets
    cases is.symm.trans stored
    cases another with
    | freeze other =>
      cases quiets with
      | freeze => exact other rfl
    | unfreeze other => cases quiets
  cases stage with
  | inserting deletionId agree =>
    obtain ⟨rfl, rfl⟩ := List.cons.inj (mk.inj under).2
    simp only [run, stored] at made
    exact (Prod.mk.inj (Option.some.inj made)).1.symm
  | reading deletionId held' is known =>
    obtain ⟨rfl, same⟩ := mk.inj under
    cases same
    cases another with
    | freeze other =>
      simp only [run, stored, map_some, getD_some] at made
      rw [if_pos (Ne.symm other)] at made
      cases made
  | looking order' rest' held' quiets is known looks other =>
    obtain ⟨rfl, rfl⟩ := mk.inj under
    exact absurd quiets (own is)
  | recording order' rest' held' undo c had quiets is known app records first noted looks =>
    obtain ⟨rfl, -⟩ := mk.inj under
    exact absurd quiets (own is)
  | turningOff order' rest' held' c had quiets is known app noted looks =>
    obtain ⟨rfl, -⟩ := mk.inj under
    exact absurd quiets (own is)
  | givingBack held' pending is known listed left =>
    obtain ⟨rfl, -⟩ := mk.inj under
    cases is.symm.trans stored
    cases another with
    | unfreeze other => exact absurd rfl other
  | forgetting agree =>
    obtain ⟨rfl, -⟩ := mk.inj under
    cases another
  | done order' agree => exact nomatch (mk.inj under).2

/-! ## Every resource, over a run -/

namespace ResourceFreezes

variable {s s' : ResourceFreezes} {key k : ResourceKey}

theorem resource_setResource (resource : Freezable) :
    (s.setResource key resource).resource k = if key = k then resource else s.resource k := by
  by_cases same : key = k
  · subst same
    simp [ResourceFreezes.resource, setResource]
  · simp [ResourceFreezes.resource, setResource, same, Function.update_of_ne (Ne.symm same)]

theorem calls_setCall (call : Option FreezeCall) :
    (s.setCall key call).calls k = if key = k then call else s.calls k := by
  by_cases same : key = k
  · subst same
    simp [setCall]
  · simp [setCall, same, Function.update_of_ne (Ne.symm same)]

/-- Every resource is as it is to be found. -/
def Sound (s : ResourceFreezes) : Prop :=
  ∀ key, FreezeSound key.kind (s.resource key) (s.calls key)

/-- What is done about one resource is sound, and leaves the rest alone. -/
theorem Sound.update (sound : s.Sound) (key : ResourceKey)
    (here : FreezeSound key.kind (s'.resource key) (s'.calls key))
    (elsewhere : ∀ k, key ≠ k → s'.resource k = s.resource k ∧ s'.calls k = s.calls k) :
    s'.Sound := by
  intro k
  by_cases same : key = k
  · exact same ▸ here
  · rw [(elsewhere k same).1, (elsewhere k same).2]
    exact sound k

theorem Sound.setCall (sound : s.Sound) {call : Option FreezeCall}
    (here : FreezeSound key.kind (s.resource key) call) : (s.setCall key call).Sound := by
  refine sound.update key ?_ fun k other => ?_
  · rw [calls_setCall, if_pos rfl]
    exact here
  · exact ⟨rfl, by rw [calls_setCall, if_neg other]⟩

theorem Sound.setResource (sound : s.Sound) {resource : Freezable} {call : Option FreezeCall}
    (here : FreezeSound key.kind resource call) :
    ((s.setResource key resource).setCall key call).Sound := by
  refine sound.update key ?_ fun k other => ?_
  · have same : ((s.setResource key resource).setCall key call).resource key = resource :=
      (resource_setResource resource).trans (if_pos rfl)
    rw [calls_setCall, if_pos rfl, same]
    exact here
  · refine ⟨(resource_setResource resource).trans (if_neg other), ?_⟩
    rw [calls_setCall, if_neg other]
    rfl

theorem Sound.setContainers (sound : s.Sound) {containers : RestartPolicies}
    (here : FreezeSound key.kind { s.resource key with containers } (s.calls key)) :
    Sound { s with containers := Function.update s.containers key containers } := by
  refine sound.update key ?_ fun k other => ⟨?_, rfl⟩
  · simpa [ResourceFreezes.resource] using here
  · simp [ResourceFreezes.resource, Function.update_of_ne (Ne.symm other)]

theorem sound_of_nothingFrozen (nothing : NothingFrozen s) : s.Sound := by
  intro key
  have row : (s.resource key).row = none := by rw [resource, nothing.1, get_empty]
  have frozen : (s.resource key).frozen = none := by rw [resource, nothing.2.1, get_empty]
  rw [nothing.2.2.1 key]
  exact .of_idle (fun held stored => nomatch row.symm.trans stored) (frozen.trans row.symm)

theorem fail_sound {call : FreezeCall} (sound : FreezeSound key.kind (s.resource key) (some call))
    (under : s.calls key = some call) (together : s.failsApart key = false) :
    FreezeSound key.kind (s.resource key) none := by
  refine .of_idle sound.undoable (agrees_of_stage (sound.stage call rfl) ?_ ?_)
  · intro deletionId rest starts absent
    obtain ⟨order, steps⟩ := call
    subst starts
    rw [failsApart, under] at together
    exact absurd absent (of_decide_eq_false together)
  · intro deletionId rest starts
    obtain ⟨order, steps⟩ := call
    subst starts
    rw [failsApart, under] at together
    exact not_not.mp (of_decide_eq_false together)

/-- Each event keeps every resource as it is to be found. -/
theorem next_sound {event : FreezeEvent} (sound : s.Sound) (together : FailsTogether s event)
    (step : s.next event = some s') : s'.Sound := by
  cases event with
  | call key order =>
    simp only [next] at step
    split at step
    · rename_i free
      cases step
      exact sound.setCall (start_sound order (free.1 ▸ sound key))
    · cases step
  | reapply =>
    simp only [next] at step
    split at step
    · cases step
    rename_i key rest _
    split at step
    · rename_i free
      cases step
      exact sound.setCall (start_sound .reapply (free ▸ sound key))
    · cases step
  | step key =>
    simp only [next] at step
    split at step
    · cases step
    · cases step
    · rename_i order first rest under
      obtain ⟨⟨after, more⟩, made, rfl⟩ := map_eq_some_iff.mp step
      exact sound.setResource (step_sound (under ▸ sound key) made)
  | fail key =>
    simp only [next] at step
    split at step
    · cases step
    · cases step
    · rename_i call _ under
      cases step
      exact sound.setCall (fail_sound (under ▸ sound key) under together)
  | lose key =>
    simp only [next] at step
    split at step
    · cases step
    · cases step
    rename_i order first rest under
    split at step
    · rename_i loses
      obtain ⟨⟨after, more⟩, made, rfl⟩ := map_eq_some_iff.mp step
      exact sound.setResource (lose_sound (under ▸ sound key) loses made)
    · cases step
  | finish key =>
    simp only [next] at step
    split at step
    · rename_i order under
      cases step
      exact sound.setCall (finish_sound (under ▸ sound key))
    · cases step
  | restart =>
    cases step
    exact fun key => load_sound (sound key)
  | change key containers =>
    simp only [next] at step
    split at step
    · rename_i free
      cases step
      refine sound.setContainers ?_
      rw [free.1]
      exact change_sound containers (free.1 ▸ sound key) free.2
    · cases step
  | remove key container =>
    cases step
    exact sound.setContainers (remove_sound container (sound key))

/-- What an event does about one resource: nothing, a step of the call on it, a restart, or a change
    of its containers. -/
theorem resource_next {event : FreezeEvent} (step : s.next event = some s') (key : ResourceKey) :
    s'.resource key = s.resource key ∨
    (∃ order first rest more, s.calls key = some ⟨order, first :: rest⟩ ∧
      first.run (s.resource key) = some (s'.resource key, more) ∧
      (event = .step key ∨ event = .lose key)) ∨
    (event = .restart ∧ s'.resource key = { s.resource key with frozen := s.rows.get key }) ∨
    (∃ containers, s'.resource key = { s.resource key with containers } ∧
      (event = .change key containers ∨ ∃ container, event = .remove key container)) := by
  cases event with
  | call k order =>
    simp only [next] at step
    split at step
    · cases step
      exact .inl rfl
    · cases step
  | reapply =>
    simp only [next] at step
    split at step
    · cases step
    · split at step
      · cases step
        exact .inl rfl
      · cases step
  | step k =>
    simp only [next] at step
    split at step
    · cases step
    · cases step
    rename_i order first rest under
    obtain ⟨⟨after, more⟩, made, rfl⟩ := map_eq_some_iff.mp step
    have now := @resource_setResource s k key after
    by_cases same : k = key
    · subst same
      rw [if_pos rfl] at now
      exact .inr (.inl ⟨order, first, rest, more, under, now.symm ▸ made, .inl rfl⟩)
    · rw [if_neg same] at now
      exact .inl now
  | fail k =>
    simp only [next] at step
    split at step
    · cases step
    · cases step
    · cases step
      exact .inl rfl
  | lose k =>
    simp only [next] at step
    split at step
    · cases step
    · cases step
    rename_i order first rest under
    split at step
    · obtain ⟨⟨after, more⟩, made, rfl⟩ := map_eq_some_iff.mp step
      have now := @resource_setResource s k key after
      by_cases same : k = key
      · subst same
        rw [if_pos rfl] at now
        exact .inr (.inl ⟨order, first, rest, more, under, now.symm ▸ made, .inr rfl⟩)
      · rw [if_neg same] at now
        exact .inl now
    · cases step
  | finish k =>
    simp only [next] at step
    split at step
    · cases step
      exact .inl rfl
    · cases step
  | restart =>
    cases step
    exact .inr (.inr (.inl ⟨rfl, rfl⟩))
  | change k containers =>
    simp only [next] at step
    split at step
    · cases step
      by_cases same : k = key
      · subst same
        refine .inr (.inr (.inr ⟨containers, ?_, .inl rfl⟩))
        simp [resource]
      · left
        simp [resource, Function.update_of_ne (Ne.symm same)]
    · cases step
  | remove k container =>
    cases step
    by_cases same : k = key
    · subst same
      refine .inr (.inr (.inr ⟨(s.containers k).delete container, ?_, .inr ⟨container, rfl⟩⟩))
      simp [resource]
    · left
      simp [resource, Function.update_of_ne (Ne.symm same)]

end ResourceFreezes

/-- A call on a resource goes on, fails or is through. -/
inductive FreezeEvent.Of (key : ResourceKey) : FreezeEvent → Prop
  | step : Of key (.step key)
  | fail : Of key (.fail key)
  | lose : Of key (.lose key)
  | finish : Of key (.finish key)

/-- What an event keeps of a resource's freeze. -/
structure FreezeKept (s s' : ResourceFreezes) (event : FreezeEvent) (key : ResourceKey) : Prop where
  /-- Once there is no call on it, what is in memory is what is stored. -/
  agrees : s'.calls key = none → s'.frozen.get key = s'.rows.get key
  /-- What an unfreezing applies is the policies its containers had before the freeze, and has every container that
  doesn't have its own any more. -/
  records : ∀ held, s.frozen.get key = some held → Records key.kind (s.before key) held.undo ∧
      Covers held.undo (s.before key) (s.containers key)
  /-- It lets go of a resource whose containers all have the policy they had. -/
  restores : ∀ deletionId rest, s.calls key = some ⟨.unfreeze deletionId, .unfreezeResource deletionId :: rest⟩ →
    ∀ container policy, (s.containers key).get container = some policy → (s.before key).get container = some policy
  /-- The freeze is its deletion's until that lets it go, or the resource is forgotten. -/
  stays : ∀ held, s.rows.get key = some held → held.Stays (s'.rows.get key) ∨
    (event = .step key ∨ event = .lose key) ∧ ∃ order rest, s.calls key = some ⟨order, rest⟩ ∧
      (order = .unfreeze held.deletionId ∨ order = .forget)
  /-- Another deletion's call changes nothing. -/
  untouched : ∀ held call, s.rows.get key = some held → s.calls key = some call →
    call.order.OfAnother held → event.Of key → s'.resource key = s.resource key

theorem freezes_sound {s : ResourceFreezes}
    (reached : (freezeSystem.restrict FailsTogether).Reachable s) : s.Sound := by
  refine System.Reachable.invariant ?_ ?_ reached
  · exact fun s nothing => ResourceFreezes.sound_of_nothingFrozen nothing
  · exact fun s event s' sound step => ResourceFreezes.next_sound sound step.1 step.2

/-- In every run in which no call fails between the two statements of a freeze, with nothing in
    memory yet, nor while an undo is stored that isn't the stored one, every resource keeps its
    freeze. -/
theorem freezes_kept {s s' : ResourceFreezes} {event : FreezeEvent}
    (reached : (freezeSystem.restrict FailsTogether).Reachable s) (together : FailsTogether s event)
    (step : freezeSystem.step s event s') (key : ResourceKey) : FreezeKept s s' event key := by
  have sound := freezes_sound reached
  have sound' := ResourceFreezes.next_sound sound together step
  have what := ResourceFreezes.resource_next step key
  refine ⟨(sound' key).idle, fun held known => ?_, fun deletionId rest under => ?_,
    fun held stored => ?_, fun held call stored under another on => ?_⟩
  · have undoable := undoable_frozen (sound key) known
    exact ⟨undoable.records, undoable.covers⟩
  · exact restored_of_sound (under ▸ sound key)
  · have stored' : (s.resource key).row = some held := stored
    rcases what with same | ⟨order, first, rest, more, under, made, on⟩ | ⟨-, now⟩ | ⟨_, now, -⟩
    · exact .inl (.same ((congrArg Freezable.row same).trans stored))
    · rcases step_stays (under ▸ sound key) made stored' with stays | own
      · exact .inl stays
      · exact .inr ⟨on, order, _, under, own⟩
    · exact .inl (.same ((congrArg Freezable.row now).trans stored))
    · exact .inl (.same ((congrArg Freezable.row now).trans stored))
  · rcases what with same | ⟨order, first, rest, more, under', made, -⟩ | ⟨restart, -⟩ |
      ⟨_, -, change | ⟨_, remove⟩⟩
    · exact same
    · cases under.symm.trans under'
      exact step_ofAnother (under ▸ sound key) made stored another
    · subst restart
      cases on
    · subst change
      cases on
    · subst remove
      cases on

/-- An App of two containers, the second of which Docker doesn't start on its own. -/
def frozenApp : ResourceKey := ⟨.app, "5e2b1c9d04f7a3865e2b1c9d04f7a3865e2b1c9d"⟩

def frozenAppContainers : RestartPolicies :=
  (empty.set "web" ⟨"unless-stopped", 0, by decide⟩).set "job" ⟨"no", 0, by decide⟩

def nothingFrozen : ResourceFreezes :=
  ⟨.empty, .empty, fun _ => frozenAppContainers, fun _ => .empty, fun _ => none, []⟩

def cancelledDeletion : String := "11111111-1111-4111-8111-111111111111"

/-- A freeze fails once the first container is kept from starting, and runs again as the Relay starts; then the deletion
lets the App go, up to dropping its row. -/
def restoredEvents : List FreezeEvent :=
  [.call frozenApp (.freeze cancelledDeletion), .step frozenApp, .step frozenApp, .step frozenApp,
    .step frozenApp, .step frozenApp, .lose frozenApp, .restart, .reapply, .step frozenApp,
    .step frozenApp, .step frozenApp, .step frozenApp, .finish frozenApp,
    .call frozenApp (.unfreeze cancelledDeletion), .step frozenApp]

theorem restored_runs : (runAll (fun s e => if FailsTogether s e then ResourceFreezes.next s e else none) nothingFrozen
      restoredEvents).isSome = true := by decide +kernel

/-- The App is about to be let go. -/
def aboutToLetGo : ResourceFreezes :=
  (runAll (fun s e => if FailsTogether s e then ResourceFreezes.next s e else none) nothingFrozen
    restoredEvents).get restored_runs

theorem freezes_kept_restored :
    ∃ s', freezeSystem.step aboutToLetGo (.step frozenApp) s' ∧
      FreezeKept aboutToLetGo s' (.step frozenApp) frozenApp ∧
      ∀ policy, (aboutToLetGo.containers frozenApp).get "web" = some policy →
        (aboutToLetGo.before frozenApp).get "web" = some policy := by
  have reached : (freezeSystem.restrict FailsTogether).Reachable aboutToLetGo :=
    System.reachable_of_guardedRunAll NothingFrozen ResourceFreezes.next FailsTogether
      ⟨rfl, rfl, fun _ => rfl, rfl⟩ restoredEvents restored_runs
  obtain ⟨s', step⟩ := Option.isSome_iff_exists.mp
    (show (aboutToLetGo.next (.step frozenApp)).isSome = true by decide +kernel)
  have together : FailsTogether aboutToLetGo (.step frozenApp) := trivial
  have kept := freezes_kept reached together step frozenApp
  refine ⟨s', step, kept, fun policy => ?_⟩
  exact kept.restores cancelledDeletion [] (by decide +kernel) "web" policy

/-- A freeze fails between making its row and reading who holds it, and its deletion then lets the resource go. -/
def leftApartEvents : List FreezeEvent :=
  [.call frozenApp (.freeze cancelledDeletion), .step frozenApp, .fail frozenApp,
    .call frozenApp (.unfreeze cancelledDeletion)]

theorem leftApart_runs : (runAll ResourceFreezes.next nothingFrozen leftApartEvents).isSome = true := by decide +kernel

def leftApart : ResourceFreezes :=
  (runAll ResourceFreezes.next nothingFrozen leftApartEvents).get leftApart_runs

/-- The unfreezing finishes, no call being under way, and the freeze is still stored: the Relay holds
    it again once it restarts. -/
theorem unfrozen_left_stored :
    freezeSystem.Reachable leftApart ∧ ∃ s', freezeSystem.step leftApart (.finish frozenApp) s' ∧
      s'.frozen.get frozenApp = none ∧
      s'.rows.get frozenApp = some ⟨cancelledDeletion, .empty⟩ := by
  refine ⟨System.reachable_of_runAll NothingFrozen ResourceFreezes.next
    ⟨rfl, rfl, fun _ => rfl, rfl⟩ leftApartEvents leftApart_runs, ?_⟩
  have under : leftApart.calls frozenApp = some ⟨.unfreeze cancelledDeletion, []⟩ := by
    decide +kernel
  refine ⟨leftApart.endCall frozenApp ⟨.unfreeze cancelledDeletion, []⟩, ?_, ?_, ?_⟩
  · show leftApart.next (.finish frozenApp) = _
    rw [ResourceFreezes.next, under]
  · decide +kernel
  · decide +kernel

end Kiln.Relay
