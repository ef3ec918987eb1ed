import Kiln.Lib.OrderedMap
import Kiln.Lib.Program

/-!
# Replacing a container

`replaceContainerEffect` with its rollback (`apps/relay/src/update-container.ts:68-472`) and
`retryContainerReplacementEffect` (`updater-effects.ts:25-35`), as programs of Docker calls. A call
that fails has been applied or not; the error of one that Docker didn't answer never says that
something isn't found.

Containers have the names, images, networks and states that the update reads. The rest of the
configuration, which a replacement takes over, is left out, and so are timeouts, spans and logs.
-/

namespace Kiln.Relay
open Kiln.Lib

/-! ## Docker -/

/-- `State.Health.Status`. -/
inductive HealthStatus where
  | starting
  | healthy
  | unhealthy
  deriving DecidableEq, Repr

/-- `ContainerInspect`, but for the container's ID. `operation` is its `UPDATE_OPERATION_LABEL`. -/
structure UpdateContainer where
  name : String
  image : String
  running : Bool
  health : Option HealthStatus
  networkMode : Option String
  networks : List String
  operation : Option String
  deriving DecidableEq, Repr

/-- What a call refers to a container by. -/
inductive ContainerRef where
  | id (id : Nat)
  | name (name : String)
  deriving DecidableEq, Repr

/-- A Docker host: its containers by ID, the images its tags point at, and the next ID. -/
structure Docker where
  containers : OrderedMap Nat UpdateContainer
  tags : String → Option String
  created : Nat
  distinct : ∀ i j c d, containers.get i = some c → containers.get j = some d → c.name = d.name → i = j
  fresh : ∀ i c, containers.get i = some c → i < created

/-- Why a call failed. -/
structure CallError where
  notFound : Bool
  message : String
  deriving DecidableEq, Repr

namespace Docker

variable (d : Docker)

def get (id : Nat) : Option UpdateContainer := d.containers.get id

/-- The container that a reference refers to, with its ID. -/
def find : ContainerRef → Option (Nat × UpdateContainer)
  | .id id => (d.get id).map (id, ·)
  | .name name => d.containers.entries.find? (·.2.name = name)

variable {d}

variable {c : UpdateContainer} {id : Nat}

theorem find_name {name : String} : d.find (.name name) = some (id, c) ↔ d.get id = some c ∧ c.name = name := by
  have entry : ∀ id c, (id, c) ∈ d.containers.entries ↔ d.get id = some c := fun id c =>
    (OrderedMap.lookup_eq_some d.containers.nodup).symm
  constructor
  · intro found
    have named := List.find?_some found
    exact ⟨(entry id c).mp (List.mem_of_find?_eq_some found), of_decide_eq_true named⟩
  rintro ⟨there, named⟩
  cases found : d.find (.name name) with
  | none =>
    have nothing := List.find?_eq_none.mp found (id, c) ((entry id c).mpr there)
    exact absurd (decide_eq_true named) nothing
  | some other =>
    have same := List.find?_some found
    have member := List.mem_of_find?_eq_some found
    have sameId : other.1 = id :=
      d.distinct _ _ _ _ ((entry other.1 other.2).mp member) there ((of_decide_eq_true same).trans named.symm)
    have there' := (entry other.1 other.2).mp member
    rw [sameId, there] at there'
    rw [← sameId, Option.some.inj there']

theorem find_name_none {name : String} : d.find (.name name) = none ↔ ∀ id c, d.get id = some c → c.name ≠ name := by
  constructor
  · intro nothing id c there named
    have found := find_name.mpr ⟨there, named⟩
    exact absurd (nothing.symm.trans found) (Option.some_ne_none _).symm
  intro free
  cases found : d.find (.name name) with
  | none => rfl
  | some other =>
    have there := find_name.mp (show d.find (.name name) = some (other.1, other.2) from found)
    exact absurd there.2 (free other.1 other.2 there.1)

theorem find_id {other : Nat} : d.find (.id id) = some (other, c) ↔ other = id ∧ d.get id = some c := by
  simp only [find, Option.map_eq_some_iff, Prod.mk.injEq]
  constructor
  · rintro ⟨_, there, rfl, rfl⟩
    exact ⟨rfl, there⟩
  · rintro ⟨rfl, there⟩
    exact ⟨c, there, rfl, rfl⟩

/-- What a reference refers to is there. -/
theorem get_of_find {ref : ContainerRef} (found : d.find ref = some (id, c)) : d.get id = some c := by
  cases ref with
  | id other =>
    rw [find_id] at found
    rw [found.1]
    exact found.2
  | name name => exact (find_name.mp found).1

variable (d)

/-- Puts a container in the place of one, or adds it, where no other one has its name. -/
def put (id : Nat) (c : UpdateContainer) (free : ∀ j other, d.get j = some other → other.name = c.name → j = id)
    (below : id < d.created) : Docker where
  containers := d.containers.set id c
  tags := d.tags
  created := d.created
  distinct := by
    intro i j first second there there' same
    simp only [OrderedMap.get_set] at there there'
    split at there <;> split at there'
    · simp_all
    · cases there
      rename_i is _
      exact is.symm.trans (free j second there' same.symm).symm
    · cases there'
      rename_i _ is
      exact (free i first there same).trans is
    · exact d.distinct i j first second there there' same
  fresh := by
    intro i other there
    simp only [OrderedMap.get_set] at there
    split at there
    · rename_i is
      exact is ▸ below
    · exact d.fresh i other there

/-- Changes the container that a reference refers to, but not its name. -/
def modify (ref : ContainerRef) (change : UpdateContainer → UpdateContainer)
    (named : ∀ c, (change c).name = c.name) : Except CallError Unit × Docker :=
  match found : d.find ref with
  | none => (.error ⟨true, "No such container"⟩, d)
  | some (id, c) =>
    (.ok (), d.put id (change c)
      (fun j other there same => d.distinct j id other c there (get_of_find found) (same.trans (named c)))
      (d.fresh id c (get_of_find found)))

def rename (ref : ContainerRef) (name : String) : Except CallError Unit × Docker :=
  match found : d.find ref with
  | none => (.error ⟨true, "No such container"⟩, d)
  | some (id, c) =>
    match free : d.find (.name name) with
    | some _ => (.error ⟨false, "The name is already in use"⟩, d)
    | none =>
      (.ok (), d.put id { c with name } (fun j other there same => absurd same (find_name_none.mp free j other there))
        (d.fresh id c (get_of_find found)))

/-- The body of a create request. -/
structure CreateBody where
  image : String
  primaryNetwork : String
  operation : String
  deriving DecidableEq, Repr

/-- The image that a reference names. -/
def imageOf (reference : String) : String := (d.tags reference).getD reference

def create (name : String) (body : CreateBody) : Except CallError Nat × Docker :=
  match free : d.find (.name name) with
  | some _ => (.error ⟨false, "The name is already in use"⟩, d)
  | none =>
    (.ok d.created,
      put { d with created := d.created + 1, fresh := fun i c there => Nat.lt_succ_of_lt (d.fresh i c there) }
        d.created
        { name, image := d.imageOf body.image, running := false, health := none
          networkMode := some body.primaryNetwork, networks := [body.primaryNetwork]
          operation := some body.operation }
        (fun j other there same => absurd same (find_name_none.mp free j other there))
        (Nat.lt_succ_self _))

/-- A forced removal: a container that is gone is no failure. -/
def remove (id : Nat) : Docker where
  containers := d.containers.delete id
  tags := d.tags
  created := d.created
  distinct := by
    intro i j first second there there' same
    simp only [OrderedMap.get_delete] at there there'
    split at there
    · cases there
    · split at there'
      · exact absurd there'.symm (Option.some_ne_none _)
      · exact d.distinct i j first second there there' same
  fresh := by
    intro i c there
    simp only [OrderedMap.get_delete] at there
    split at there
    · cases there
    · exact d.fresh i c there

@[simp] theorem get_remove {other : Nat} : (d.remove id).get other = if id = other then none else d.get other :=
  OrderedMap.get_delete d.containers id other

end Docker

/-- The Docker calls of an update. -/
inductive DockerCall where
  | inspectContainer (ref : ContainerRef)
  | inspectImage (image : String)
  | tagImage (image reference : String)
  | stopContainer (ref : ContainerRef)
  | renameContainer (ref : ContainerRef) (name : String)
  | createContainer (name : String) (body : Docker.CreateBody)
  | connectNetwork (network : String) (ref : ContainerRef)
  | startContainer (ref : ContainerRef)
  | removeContainer (id : Nat)
  | listContainers (operation : String)

/-- What a call answers. -/
abbrev DockerCall.value : DockerCall → Type
  | .inspectContainer _ => Nat × UpdateContainer
  | .createContainer _ _ => Nat
  | .listContainers _ => List Nat
  | _ => Unit

/-- What Docker answers, and what it makes of its containers. -/
def Docker.apply (d : Docker) : (call : DockerCall) → Except CallError call.value × Docker
  | .inspectContainer ref =>
    match d.find ref with
    | none => (.error ⟨true, "No such container"⟩, d)
    | some found => (.ok found, d)
  | .inspectImage _ => (.ok (), d)
  | .tagImage image reference => (.ok (), { d with tags := fun r => if r = reference then some image else d.tags r })
  | .stopContainer ref => d.modify ref (fun c => { c with running := false }) fun _ => rfl
  | .renameContainer ref name => d.rename ref name
  | .createContainer name body => d.create name body
  | .connectNetwork network ref => d.modify ref (fun c => { c with networks := c.networks ++ [network] }) fun _ => rfl
  | .startContainer ref => d.modify ref (fun c => { c with running := true }) fun _ => rfl
  | .removeContainer id => (.ok (), d.remove id)
  | .listContainers operation =>
    (.ok ((d.containers.entries.filter (·.2.operation = some operation)).map Prod.fst), d)

/-! ## The program -/

/-- `RelaySystemUpdateError`. -/
structure UpdateError where
  phase : String
  reason : String
  rollbackFailures : List String
  deriving DecidableEq, Repr

/-- What its `message` says. -/
def UpdateError.message (e : UpdateError) : String :=
  if e.rollbackFailures = [] then e.reason
  else e.reason ++ ". Rollback also failed: " ++ "; ".intercalate e.rollbackFailures

/-- What is noted: the phases that the update reports, and, by nothing but the model, what was found healthy and how an
attempt failed. -/
inductive UpdateNote where
  | phase (name : String)
  | healthy (id : Nat) (container : UpdateContainer)
  | failed (rollbackFailures : List String)
  deriving DecidableEq, Repr

/-- The calls of an update: to Docker, to the clock, for a random label, and what it notes. -/
inductive UpdateCall where
  | docker (call : DockerCall)
  | now
  | randomLabel
  | note (note : UpdateNote)

abbrev UpdateCall.answer : UpdateCall → Type
  | .docker call => Except CallError call.value
  | .now => Nat
  | .randomLabel => String
  | .note _ => Unit

/-- A part of an update. -/
abbrev Update (α : Type) := Program UpdateCall UpdateCall.answer α

/-- The input of `replaceContainerEffect`. -/
structure ReplaceInput where
  backupName : String
  targetContainer : String
  targetImage : String
  targetReference : String
  deriving DecidableEq, Repr

namespace Update

def docker (call : DockerCall) : Update (Except CallError call.value) := .call (.docker call) .done

def note (entry : UpdateNote) : Update Unit := .call (.note entry) .done

/-- Reports a phase, then goes on. -/
def onPhase {α : Type} (name : String) (next : Update α) : Update α :=
  (note (.phase name)).bind fun _ => next

def updateOperation {α : Type} (phase : String) (operation : Update (Except CallError α)) :
    Update (Except UpdateError α) :=
  operation.bind fun
    | .ok value => .done (.ok value)
    | .error cause =>
      .done (.error ⟨phase, if cause.message = "" then "System update failed" else cause.message, []⟩)

/-- The rounds of `waitUntilHealthy` that are left, each of which sleeps for a second: there is time for 120. -/
def waitRounds (container : ContainerRef) (deadline : Nat) : Nat → Nat → Update (Except CallError Unit)
  | 0, _ => .done (.error ⟨false, "The replacement container did not become healthy in time"⟩)
  | rounds + 1, runningSince =>
    .call .now fun now =>
      if deadline ≤ now then
        .done (.error ⟨false, "The replacement container did not become healthy in time"⟩)
      else
        (docker (.inspectContainer container)).andThen fun current =>
          if current.2.running = false then
            .done (.error ⟨false, "The replacement container exited during startup"⟩)
          else
            match current.2.health with
            | some .healthy => (note (.healthy current.1 current.2)).bind fun _ => .done (.ok ())
            | some .unhealthy => .done (.error ⟨false, "The replacement container failed its health check"⟩)
            | some .starting => waitRounds container deadline rounds runningSince
            | none =>
              .call .now fun now =>
                let since := if runningSince = 0 then now else runningSince
                .call .now fun now =>
                  if 5000 ≤ now - since then
                    (note (.healthy current.1 current.2)).bind fun _ => .done (.ok ())
                  else waitRounds container deadline rounds since

def waitUntilHealthy (container : ContainerRef) : Update (Except CallError Unit) :=
  .call .now fun now => waitRounds container (now + 120000) 120 0

/-- A step of the rollback: what it gives, and what failed. -/
def attempt {α : Type} (phase : String) (operation : Update (Except CallError α)) : Update (Option α × List String) :=
  (updateOperation phase operation).bind fun
    | .ok value => .done (some value, [])
    | .error cause => .done (none, [cause.message])

/-- The container, or nothing where Docker says that there is none. -/
def inspectOptional (ref : ContainerRef) : Update (Except CallError (Option (Nat × UpdateContainer))) :=
  (docker (.inspectContainer ref)).bind fun
    | .ok found => .done (.ok (some found))
    | .error cause => if cause.notFound then .done (.ok none) else .done (.error cause)

/-- Removes a replacement. Gone is gone, even if the removal's answer was lost. -/
def removeReplacement (id : Nat) : Update (Except CallError Unit) :=
  (docker (.removeContainer id)).bind fun
    | .ok _ => .done (.ok ())
    | .error cause =>
      (docker (.inspectContainer (.id id))).bind fun
        | .ok _ => .done (.error cause)
        | .error other => if other.notFound then .done (.ok ()) else .done (.error other)

def removeEach : List Nat → Update (List String)
  | [] => .done []
  | id :: rest =>
    (attempt "rollback.removeReplacement" (removeReplacement id)).bind fun removed =>
      (removeEach rest).bind fun failures => .done (removed.2 ++ failures)

/-- Part 1 of the rollback: this update's containers, by its label and the ID Docker answered. -/
def removeReplacements (currentId : Nat) (operation : String) (replacementId : Option Nat) :
    Update (List String) :=
  (attempt "rollback.findReplacement" (docker (.listContainers operation))).bind fun labelled =>
    let replacements := ((labelled.1.getD [] ++ replacementId.toList).eraseDups).filter (· ≠ currentId)
    if replacements = [] then .done labelled.2
    else
      (attempt "rollback.inspectOriginal" (inspectOptional (.id currentId))).bind fun before =>
        match before.1 with
        | none => .done (labelled.2 ++ before.2)
        | some none =>
          .done (labelled.2 ++ before.2 ++ ["The original container no longer exists, so its replacement was kept"])
        | some (some _) => (removeEach replacements).bind fun failures => .done (labelled.2 ++ before.2 ++ failures)

/-- Gives the original its name back, unless something holds it. Returns whether it owns the name. -/
def restoreName (input : ReplaceInput) (currentId : Nat) (restored : UpdateContainer) : Update (Bool × List String) :=
  if restored.name = input.targetContainer then .done (true, [])
  else
    (attempt "rollback.inspectName" (inspectOptional (.name input.targetContainer))).bind fun holder =>
      match holder.1 with
      | none => .done (false, holder.2)
      | some (some (holderId, _)) =>
        .done (false, holder.2 ++ [s!"{input.targetContainer} is held by container {holderId}, which this update didn't create, so the original kept the name {restored.name}"])
      | some none =>
        (docker (.renameContainer (.id currentId) input.targetContainer)).bind fun _ =>
          (attempt "rollback.restoreBackup" (docker (.inspectContainer (.id currentId)))).bind fun renamed =>
            match renamed.1 with
            | none => .done (false, holder.2 ++ renamed.2)
            | some found =>
              if found.2.name = input.targetContainer then .done (true, holder.2 ++ renamed.2)
              else
                .done (false, holder.2 ++ renamed.2 ++
                  [s!"The original container couldn't take back the name {input.targetContainer}"])

/-- Starts the original again. -/
def restartOriginal (currentId : Nat) : Update (List String) :=
  (docker (.startContainer (.id currentId))).bind fun _ =>
    (attempt "rollback.startBackup" (docker (.inspectContainer (.id currentId)))).bind fun started =>
      match started.1 with
      | some found =>
        if found.2.running then .done started.2
        else .done (started.2 ++ ["The original container couldn't be started again"])
      | none => .done started.2

/-- Parts 2 and 3 of the rollback: the original's name, and, once it owns it, its running state. -/
def restoreOriginal (input : ReplaceInput) (currentId : Nat) (current : UpdateContainer) : Update (List String) :=
  (attempt "rollback.inspectOriginal" (inspectOptional (.id currentId))).bind fun restored =>
    match restored.1 with
    | none => .done restored.2
    | some none => .done (restored.2 ++ ["The original container no longer exists"])
    | some (some found) =>
      (restoreName input currentId found.2).bind fun owns =>
        if owns.1 && current.running then
          (restartOriginal currentId).bind fun failures => .done (restored.2 ++ owns.2 ++ failures)
        else .done (restored.2 ++ owns.2)

/-- `rollbackContainerReplacementEffect`. -/
def rollbackContainerReplacement (input : ReplaceInput) (currentId : Nat) (current : UpdateContainer)
    (operation : String) (replacementId : Option Nat) : Update (List String) :=
  (removeReplacements currentId operation replacementId).bind fun first =>
    (restoreOriginal input currentId current).bind fun second =>
      (attempt "rollback.restoreReference" (docker (.tagImage current.image input.targetReference))).bind fun third =>
          .done (first ++ second ++ third.2)

/-- The network that a replacement is created on. -/
def primaryNetwork (current : UpdateContainer) : Option String :=
  match current.networkMode with
  | some mode => if mode ∈ current.networks then some mode else current.networks.head?
  | none => current.networks.head?

/-- What is done once the replacement is created, up to its being found healthy. -/
def startReplacement (input : ReplaceInput) (others : List String) : Update (Except UpdateError Unit) :=
  (Program.forEach (fun network => updateOperation "replace.connectNetwork"
      (docker (.connectNetwork network (.name input.targetContainer)))) others).andThen fun _ =>
    onPhase "replace.startTarget" <|
    (updateOperation "replace.startTarget" (docker (.startContainer (.name input.targetContainer)))).andThen fun _ =>
    onPhase "replace.waitUntilHealthy" <|
    updateOperation "replace.waitUntilHealthy" (waitUntilHealthy (.name input.targetContainer))

/-- A failure with the ID of the replacement, as far as it is known. -/
def knowing {α : Type} (replacementId : Option Nat) (program : Update (Except UpdateError α)) :
    Update (Except (UpdateError × Option Nat) α) :=
  program.bind fun
    | .ok value => .done (.ok value)
    | .error cause => .done (.error (cause, replacementId))

/-- The forward steps. Where they fail, the ID of the replacement is known once its creation was answered. -/
def forward (input : ReplaceInput) (current : UpdateContainer) (primary operation : String) :
    Update (Except (UpdateError × Option Nat) Unit) :=
  onPhase "replace.tagTarget" <|
  (knowing none (updateOperation "replace.tagTarget"
    (docker (.tagImage input.targetImage input.targetReference)))).andThen fun _ =>
  onPhase "replace.stopCurrent" <|
  (knowing none (updateOperation "replace.stopCurrent"
    (docker (.stopContainer (.name input.targetContainer))))).andThen fun _ =>
  onPhase "replace.renameCurrent" <|
  (knowing none (updateOperation "replace.renameCurrent"
    (docker (.renameContainer (.name input.targetContainer) input.backupName)))).andThen fun _ =>
  onPhase "replace.createTarget" <|
  (knowing none (updateOperation "replace.createTarget" (docker (.createContainer input.targetContainer
      { image := input.targetReference, primaryNetwork := primary, operation })))).andThen fun created =>
  (if 1 < current.networks.length then note (.phase "replace.connectNetwork") else .done ()).bind fun _ =>
  knowing (some created) (startReplacement input (current.networks.filter (· ≠ primary)))

/-- `replaceContainerEffect`. -/
def replaceContainer (input : ReplaceInput) : Update (Except UpdateError Unit) :=
  onPhase "replace.inspectContainer" <|
  (updateOperation "replace.inspectContainer"
    (docker (.inspectContainer (.name input.targetContainer)))).andThen fun current =>
  (updateOperation "replace.inspectImage" (docker (.inspectImage input.targetImage))).andThen fun _ =>
  match primaryNetwork current.2 with
  | none => .done (.error ⟨"replace.validate", "The target has no Docker network to preserve", []⟩)
  | some primary =>
    .call .randomLabel fun operation =>
    (forward input current.2 primary operation).bind fun
      | .error (cause, replacementId) =>
        (rollbackContainerReplacement input current.1 current.2 operation replacementId).bind fun rollbackFailures =>
          .done (.error ⟨"replace", cause.message, rollbackFailures⟩)
      | .ok _ =>
        onPhase "replace.removeBackup" <|
        (docker (.removeContainer current.1)).bind fun _ => .done (.ok ())

/-- `retryContainerReplacementEffect`, with what is left of its `times`. -/
def retryContainerReplacement (replacement : Update (Except UpdateError Unit)) : Nat → Update (Except UpdateError Unit)
  | 0 => replacement.bind fun
    | .ok value => .done (.ok value)
    | .error failure => (note (.failed failure.rollbackFailures)).bind fun _ => .done (.error failure)
  | times + 1 => replacement.bind fun
    | .ok value => .done (.ok value)
    | .error failure =>
      (note (.failed failure.rollbackFailures)).bind fun _ =>
        if failure.rollbackFailures = [] then retryContainerReplacement replacement times
        else .done (.error failure)

end Update

/-! ## The world of an update -/

/-- A Docker host and what was noted, oldest first. -/
structure UpdateSite where
  docker : Docker
  log : List UpdateNote := []

/-- What a call may answer: a Docker call fails before it is applied or after, or is applied. -/
inductive UpdateSite.Answers (w : UpdateSite) : (i : UpdateCall) → i.answer → UpdateSite → Prop
  | applied (call : DockerCall) :
    Answers w (.docker call) (w.docker.apply call).1 { w with docker := (w.docker.apply call).2 }
  | failedBefore (call : DockerCall) (message : String) : Answers w (.docker call) (.error ⟨false, message⟩) w
  | failedAfter (call : DockerCall) (message : String) :
    Answers w (.docker call) (.error ⟨false, message⟩) { w with docker := (w.docker.apply call).2 }
  | now (now : Nat) : Answers w .now now w
  | randomLabel (label : String) : Answers w .randomLabel label w
  | note (entry : UpdateNote) : Answers w (.note entry) () { w with log := w.log ++ [entry] }

/-- What an update of the container `original` can count on seeing, whatever the others do by themselves: they may run,
exit, become healthy or not. -/
structure UpdateView where
  containers : Nat → Option UpdateContainer
  tags : String → Option String
  created : Nat
  log : List UpdateNote

def UpdateSite.view (original : Nat) (w : UpdateSite) : UpdateView where
  containers id :=
    if id = original then w.docker.get id
    else (w.docker.get id).map fun c => { c with running := false, health := none }
  tags := w.docker.tags
  created := w.docker.created
  log := w.log

/-- The world of an update of the container `original`, which does not start or stop by itself. -/
def updateWorld (original : Nat) : Program.World UpdateSite UpdateCall UpdateCall.answer :=
  .ofView (UpdateSite.view original) UpdateSite.Answers

end Kiln.Relay
