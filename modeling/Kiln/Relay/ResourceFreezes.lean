import Kiln.Lib.OrderedMap
import Kiln.Lib.Transition

/-!
# Resources frozen for their deletion

`ResourceFreezes` (`apps/relay/src/resource-freezes.ts:56-213`), the rows it keeps
(`apps/relay/src/effect/state.ts:2723-2781`), what quiets an App and puts it back
(`apps/relay/src/apps.ts:585-640`), and how the Relay calls them (`apps/relay/src/index.ts:836-843`,
`:2769-2788`, `:4680-4729`).

A call is the list of what it still has to await. What a call does right after something it awaited
is part of that step. A call holds its resource's locks whole
(`apps/relay/src/operation-plans.ts:867-876`), so there is one at a time for each resource, and
those of different resources interleave. A statement on the database is made or not; a change Docker
makes may be made and its answer lost.
-/

namespace Kiln.Relay
open Kiln.Lib

inductive FrozenKind where
  | app
  | database
  | instance'
  | volume
  deriving DecidableEq, Repr

/-- `key(kind, id)`. -/
structure ResourceKey where
  kind : FrozenKind
  id : String
  deriving DecidableEq, Repr

/-- A container's restart policy. Docker keeps a retry count for "on-failure" alone. -/
structure RestartPolicy where
  name : String
  maximumRetryCount : Nat
  counted : name ≠ "on-failure" → maximumRetryCount = 0
  deriving DecidableEq

/-- What `docker update --restart` leaves (`docker-engine.ts:434-453`). -/
def RestartPolicy.updated (name : String) (maximumRetryCount : Option Nat) : RestartPolicy :=
  if named : name = "on-failure" then ⟨name, maximumRetryCount.getD 0, fun other => absurd named other⟩
  else ⟨name, 0, fun _ => rfl⟩

/-- Docker doesn't start the container again on its own. -/
def RestartPolicy.isOff (policy : RestartPolicy) : Bool :=
  policy.name = "" || policy.name = "no"

/-- Containers' policies, by the container. -/
abbrev RestartPolicies := OrderedMap String RestartPolicy

/-- A freeze, as its row and the map in memory have it. -/
structure Frozen where
  deletionId : String
  undo : RestartPolicies := .empty
  deriving DecidableEq

/-- What there is of a resource: its row, its entry in memory, and its containers' policies, now and as they were when
its row was made, which nothing but the model keeps. -/
structure Freezable where
  row : Option Frozen
  frozen : Option Frozen
  containers : RestartPolicies
  before : RestartPolicies

/-! ## What a call does -/

/-- What a call awaits. -/
inductive FreezeStep where
  /-- The first statement of `freezeResource`. -/
  | insert (deletionId : String)
  /-- Its second, and what `freeze` does with the holder. -/
  | readHolder (deletionId : String)
  /-- `quietForDeletion` lists an App's containers. -/
  | listContainers (deletionId : String)
  /-- It inspects one, and passes what it changes to `record`. -/
  | inspect (deletionId container : String)
  | setResourceFreezeUndo (deletionId : String)
  /-- `setRestartPolicy(id, "no")`. -/
  | turnOff (container : String)
  /-- A resource is stopped, or its terminal sessions are ended. -/
  | stop
  /-- `restoreRestartPolicies` gives one back. -/
  | giveBack (container : String) (policy : RestartPolicy)
  /-- `unfreezeResource`, and what `unfreeze` does after it. -/
  | unfreezeResource (deletionId : String)
  /-- `forgetResourceFreeze`, and what `forget` does after it. -/
  | forgetResourceFreeze
  deriving DecidableEq

/-- What a step leaves, and what it has the call await next. Without either, it throws. -/
def FreezeStep.run (resource : Freezable) : FreezeStep → Option (Freezable × List FreezeStep)
  | .insert deletionId =>
      match resource.row with
      | some _ => some (resource, [])
      | none => some ({ resource with row := some ⟨deletionId, .empty⟩, before := resource.containers }, [])
  | .readHolder deletionId =>
      if (resource.row.map Frozen.deletionId).getD deletionId ≠ deletionId then none
      else some ({ resource with
        frozen := some (resource.frozen.getD ⟨deletionId, .empty⟩) }, [])
  | .listContainers deletionId =>
      some (resource, resource.containers.entries.map (fun entry => .inspect deletionId entry.1) ++ [.stop])
  | .inspect deletionId container =>
      (resource.containers.get container).map fun policy =>
        if policy.isOff then (resource, [])
        else
          let changed := OrderedMap.empty.set container policy
          ({ resource with frozen := resource.frozen.map fun frozen =>
               { frozen with undo := changed.spread frozen.undo } },
            [.setResourceFreezeUndo deletionId, .turnOff container])
  | .setResourceFreezeUndo deletionId =>
      some ({ resource with row := resource.row.map fun row =>
        if row.deletionId = deletionId then
          { row with undo := (resource.frozen.map Frozen.undo).getD row.undo }
        else row }, [])
  | .turnOff container =>
      (resource.containers.get container).map fun _ =>
        ({ resource with containers := resource.containers.set container (.updated "no" none) }, [])
  | .stop => some (resource, [])
  | .giveBack container policy =>
      match resource.containers.get container with
      -- Docker's 404 is ignored: what's gone has nothing to give back.
      | none => some (resource, [])
      | some _ =>
          let updated := RestartPolicy.updated policy.name
            (if policy.name = "on-failure" then some policy.maximumRetryCount else none)
          some ({ resource with containers := resource.containers.set container updated }, [])
  | .unfreezeResource deletionId =>
      some ({ resource with row := resource.row.filter (·.deletionId ≠ deletionId), frozen := none }, [])
  | .forgetResourceFreeze => some ({ resource with row := none, frozen := none }, [])

/-- Whether a step may be made though it fails: Docker changed the policy, and its answer is lost. -/
def FreezeStep.loses : FreezeStep → Bool
  | .turnOff _ | .giveBack _ _ => true
  | _ => false

inductive FreezeOrder where
  | freeze (deletionId : String)
  | reapply
  | unfreeze (deletionId : String)
  | forget
  deriving DecidableEq, Repr

/-- `quietFrozenResource` (`index.ts:4680-4718`), of which only an App's records anything. -/
def quietFrozenResource (kind : FrozenKind) (deletionId : String) : List FreezeStep :=
  match kind with
  | .app => [.listContainers deletionId]
  | .instance' | .database => [.stop]
  | .volume => []

/-- `restoreFrozenResource` (`index.ts:4722-4729`). -/
def restoreFrozenResource (kind : FrozenKind) (undo : RestartPolicies) : List FreezeStep :=
  match kind with
  | .app => undo.entries.map fun entry => .giveBack entry.1 entry.2
  | _ => []

/-- What a call has to do, as it begins. -/
def FreezeOrder.plan (kind : FrozenKind) (resource : Freezable) : FreezeOrder → List FreezeStep
  | .freeze deletionId =>
      .insert deletionId :: .readHolder deletionId :: quietFrozenResource kind deletionId
  | .reapply =>
      match resource.frozen with
      | none => []
      | some frozen => quietFrozenResource kind frozen.deletionId
  | .unfreeze deletionId =>
      match resource.frozen with
      | none => []
      | some frozen =>
          if frozen.deletionId ≠ deletionId then []
          else restoreFrozenResource kind frozen.undo ++ [.unfreezeResource deletionId]
  | .forget => [.forgetResourceFreeze]

/-- A call, and what it still has to do. -/
structure FreezeCall where
  order : FreezeOrder
  rest : List FreezeStep
  deriving DecidableEq

/-! ## The Relay's freezes -/

/-- The rows, the map in memory, each resource's containers, the calls under way, and what `reapply`
    has left to quiet. -/
structure ResourceFreezes where
  rows : OrderedMap ResourceKey Frozen
  frozen : OrderedMap ResourceKey Frozen
  containers : ResourceKey → RestartPolicies
  before : ResourceKey → RestartPolicies
  calls : ResourceKey → Option FreezeCall
  reapplying : List ResourceKey

namespace ResourceFreezes

/-- One resource's part. -/
def resource (s : ResourceFreezes) (key : ResourceKey) : Freezable :=
  ⟨s.rows.get key, s.frozen.get key, s.containers key, s.before key⟩

def setResource (s : ResourceFreezes) (key : ResourceKey) (resource : Freezable) :
    ResourceFreezes :=
  { s with
    rows := s.rows.write key resource.row
    frozen := s.frozen.write key resource.frozen
    containers := Function.update s.containers key resource.containers
    before := Function.update s.before key resource.before }

def setCall (s : ResourceFreezes) (key : ResourceKey) (call : Option FreezeCall) :
    ResourceFreezes :=
  { s with calls := Function.update s.calls key call }

/-- A call begins. -/
def start (s : ResourceFreezes) (key : ResourceKey) (order : FreezeOrder) : ResourceFreezes :=
  s.setCall key (some ⟨order, order.plan key.kind (s.resource key)⟩)

/-- A call is over. Where it was `reapply` that quieted a resource, it goes on with the next one, also after a failure
(`index.ts:836-843`). -/
def endCall (s : ResourceFreezes) (key : ResourceKey) (call : FreezeCall) : ResourceFreezes :=
  { s.setCall key none with
    reapplying := if call.order = .reapply then s.reapplying.tail else s.reapplying }

/-- `ResourceFreezes.load` (`resource-freezes.ts:62-81`) as the Relay starts, and `reapply` begins on what it read. -/
def load (s : ResourceFreezes) : ResourceFreezes :=
  { s with
    frozen := s.rows
    calls := fun _ => none
    reapplying := s.rows.entries.map Prod.fst }

end ResourceFreezes

inductive FreezeEvent where
  | call (key : ResourceKey) (order : FreezeOrder)
  /-- `reapply` takes the next resource up. -/
  | reapply
  | step (key : ResourceKey)
  | fail (key : ResourceKey)
  /-- A step is made, and fails for its caller. -/
  | lose (key : ResourceKey)
  | finish (key : ResourceKey)
  | restart
  /-- What else Kiln runs changes the containers of a resource that isn't frozen, as a deployment does. -/
  | change (key : ResourceKey) (containers : RestartPolicies)
  /-- A container is gone. -/
  | remove (key : ResourceKey) (container : String)
  deriving DecidableEq

namespace ResourceFreezes

def next (s : ResourceFreezes) : FreezeEvent → Option ResourceFreezes
  | .call key order =>
      -- Nothing is admitted before `reapply` is through.
      if s.calls key = none ∧ s.reapplying = [] ∧ order ≠ .reapply then some (s.start key order)
      else none
  | .reapply =>
      match s.reapplying with
      | [] => none
      | key :: _ => if s.calls key = none then some (s.start key .reapply) else none
  | .step key =>
      match s.calls key with
      | none | some ⟨_, []⟩ => none
      | some ⟨order, step :: rest⟩ =>
          (step.run (s.resource key)).map fun made =>
            (s.setResource key made.1).setCall key (some ⟨order, made.2 ++ rest⟩)
  | .fail key =>
      match s.calls key with
      | none | some ⟨_, []⟩ => none
      | some call => some (s.endCall key call)
  | .lose key =>
      match s.calls key with
      | none | some ⟨_, []⟩ => none
      | some ⟨order, step :: rest⟩ =>
          if step.loses then
            (step.run (s.resource key)).map fun made =>
              (s.setResource key made.1).endCall key ⟨order, step :: rest⟩
          else none
  | .finish key =>
      match s.calls key with
      | some ⟨order, []⟩ => some (s.endCall key ⟨order, []⟩)
      | _ => none
  | .restart => some s.load
  | .change key containers =>
      if s.calls key = none ∧ s.frozen.get key = none then
        some { s with containers := Function.update s.containers key containers }
      else none
  | .remove key container =>
      some { s with
        containers := Function.update s.containers key ((s.containers key).delete container) }

end ResourceFreezes

/-- A Relay that froze nothing yet. -/
def NothingFrozen (s : ResourceFreezes) : Prop :=
  s.rows = .empty ∧ s.frozen = .empty ∧ (∀ key, s.calls key = none) ∧ s.reapplying = []

def freezeSystem : System ResourceFreezes FreezeEvent :=
  .ofFunction NothingFrozen ResourceFreezes.next

end Kiln.Relay
