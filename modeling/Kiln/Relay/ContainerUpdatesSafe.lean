import Kiln.Relay.ContainerUpdates

/-!
# A replacement never strands its container

The rollback works from what Docker reports, so that what it needs to know of the forward steps is
little: the original still exists, and what the update created carries its label. What each part of
the program does is a triple, from which the whole is put together.
-/

namespace Kiln.Relay
open Kiln.Lib Update List Option Program.Meets

/-! ## What Docker calls leave -/

namespace Docker

variable {d : Docker} {id : Nat} {ref : ContainerRef} {c : UpdateContainer}

theorem modify_cases (ref : ContainerRef) (change : UpdateContainer → UpdateContainer) (named : ∀ c, (change c).name = c.name) :
    (d.find ref = none ∧ (d.modify ref change named).2 = d) ∨
      ∃ id c, d.find ref = some (id, c) ∧ (d.modify ref change named).2.tags = d.tags ∧
        (d.modify ref change named).2.created = d.created ∧
        ∀ other, (d.modify ref change named).2.get other = if id = other then some (change c) else d.get other := by
  unfold modify
  split
  · exact .inl ⟨‹_›, rfl⟩
  · rename_i id c found
    exact .inr ⟨id, c, found, rfl, rfl, fun other => OrderedMap.get_set d.containers id other _⟩

theorem rename_cases (d : Docker) (ref : ContainerRef) (name : String) :
    (∃ e, (d.rename ref name) = (.error e, d)) ∨ ∃ id c, d.find ref = some (id, c) ∧ (d.rename ref name).1 = .ok () ∧
        (d.rename ref name).2.created = d.created ∧
        ∀ other, (d.rename ref name).2.get other = if id = other then some { c with name } else d.get other := by
  unfold rename
  split
  · exact .inl ⟨_, rfl⟩
  · rename_i id c found
    split
    · exact .inl ⟨_, rfl⟩
    · exact .inr ⟨id, c, found, rfl, rfl, fun other => OrderedMap.get_set d.containers id other _⟩

theorem create_cases (name : String) (body : CreateBody) : (∃ e, (d.create name body) = (.error e, d)) ∨
      (d.create name body).1 = .ok d.created ∧ (d.create name body).2.tags = d.tags ∧
        (d.create name body).2.created = d.created + 1 ∧
        ∃ c, c.name = name ∧ c.operation = some body.operation ∧
          ∀ other, (d.create name body).2.get other = if d.created = other then some c else d.get other := by
  unfold create
  split
  · exact .inl ⟨_, rfl⟩
  · exact .inr ⟨rfl, rfl, rfl, _, rfl, rfl, fun other => OrderedMap.get_set d.containers _ other _⟩

end Docker

/-! ## What is seen of it -/

namespace UpdateView

variable (v : UpdateView)

/-- Nothing that an update is not allowed to see past: the containers but for their states. -/
def NoneLeft (since : Nat) : Prop := ∀ id c, v.containers id = some c → id < since

/-- What was created since then carries the label. -/
def Ours (since : Nat) (label : String) : Prop :=
  ∀ id c, v.containers id = some c → since ≤ id → c.operation = some label

/-- What was created since then is among these. -/
def Left (since : Nat) (ids : List Nat) : Prop :=
  ∀ id c, v.containers id = some c → since ≤ id → id ∈ ids

/-- No attempt has failed to roll back. -/
def Clean : Prop := ∀ failures, UpdateNote.failed failures ∈ v.log → failures = []

end UpdateView

/-- What an update starts from: the original's ID and what it is, the reference it gave, and the ID of the next
container. -/
structure UpdateStart where
  input : ReplaceInput
  original : Nat
  container : UpdateContainer
  since : Nat
  reference : Option String
  below : original < since

namespace UpdateStart

variable (u : UpdateStart) (v : UpdateView)

/-- The original exists. -/
def Exists : Prop := ∃ c, v.containers u.original = some c ∧ c.image = u.container.image

/-- The original has its name. -/
def Named : Prop := ∃ c, v.containers u.original = some c ∧ c.name = u.input.targetContainer

/-- The original runs, if it ran at first. -/
def Runs : Prop := u.container.running = true → ∃ c, v.containers u.original = some c ∧ c.running = true

/-- A replacement under the original's name was found healthy. -/
def FoundHealthy : Prop :=
  ∃ id c, UpdateNote.healthy id c ∈ v.log ∧ u.since ≤ id ∧ c.name = u.input.targetContainer

/-- The original exists under its name, runs if it ran at first, the reference is as it was at first or points at the
original's image, and nothing that was created since is left. -/
structure Restored : Prop where
  there : u.Exists v
  named : u.Named v
  runs : u.Runs v
  noneLeft : v.NoneLeft u.since
  reference : v.tags u.input.targetReference = some u.container.image ∨ v.tags u.input.targetReference = u.reference

/-- What holds at every point: the original is gone only once a replacement was found healthy, and no attempt follows
one that failed to roll back. -/
structure Kept : Prop where
  gone : v.containers u.original = none → u.FoundHealthy v
  attempts : ∀ before after failures, v.log = before ++ .failed failures :: after → failures ≠ [] →
    UpdateNote.phase "replace.inspectContainer" ∉ after

/-- What holds while an attempt goes on under a label. -/
structure Standing (label : String) : Prop where
  there : u.Exists v
  ours : v.Ours u.since label
  since : u.since ≤ v.created
  clean : v.Clean

/-- A part of an update, with what it needs and what it leaves. -/
abbrev Does {α : Type} (pre : UpdateView → Prop) (program : Update α) (post : α → UpdateView → Prop) : Prop :=
  Program.Meets (UpdateSite.view u.original) UpdateSite.Answers u.Kept pre program post

variable {u v}

theorem kept_of_clean (gone : v.containers u.original = none → u.FoundHealthy v) (clean : v.Clean) : u.Kept v := by
  refine ⟨gone, fun before after failures split some' => ?_⟩
  have member : UpdateNote.failed failures ∈ v.log := by
    rw [split]
    exact mem_append_right _ mem_cons_self
  exact absurd (clean failures member) some'

/-- What holds at every point is left by what leaves the log, and the original there. -/
theorem Kept.of_same {v' : UpdateView} (kept : u.Kept v) (log : v'.log = v.log)
    (there : v'.containers u.original = none → v.containers u.original = none) : u.Kept v' := by
  refine ⟨fun gone => ?_, ?_⟩
  · rcases kept.gone (there gone) with ⟨id, c, member, since, named⟩
    exact ⟨id, c, log ▸ member, since, named⟩
  · rw [log]
    exact kept.attempts

end UpdateStart

namespace UpdateSite

variable {w : UpdateSite} {original id : Nat} {c : UpdateContainer}

/-- What is seen of a container. -/
def Seen (original id : Nat) (seen c : UpdateContainer) : Prop :=
  seen.name = c.name ∧ seen.image = c.image ∧ seen.operation = c.operation ∧ (id = original → seen = c)

theorem view_of_get (original : Nat) (there : w.docker.get id = some c) :
    ∃ seen, (w.view original).containers id = some seen ∧ Seen original id seen c := by
  simp only [view, there, map_some]
  split
  · exact ⟨c, rfl, rfl, rfl, rfl, fun _ => rfl⟩
  · rename_i other
    exact ⟨_, rfl, rfl, rfl, rfl, fun is => absurd is other⟩

theorem get_of_view {seen : UpdateContainer} (there : (w.view original).containers id = some seen) :
    ∃ c, w.docker.get id = some c ∧ Seen original id seen c := by
  simp only [view] at there
  split at there
  · exact ⟨seen, there, rfl, rfl, rfl, fun _ => rfl⟩
  · rename_i other
    rcases map_eq_some_iff.mp there with ⟨c, found, rfl⟩
    exact ⟨c, found, rfl, rfl, rfl, fun is => absurd is other⟩

theorem view_none : (w.view original).containers id = none ↔ w.docker.get id = none := by
  simp only [view]
  split
  · exact Iff.rfl
  · exact map_eq_none_iff

/-- The site once Docker has applied a call. -/
def applied (w : UpdateSite) (call : DockerCall) : UpdateSite := { w with docker := (w.docker.apply call).2 }

end UpdateSite

/-- The calls that neither create nor remove a container. -/
def DockerCall.gentle : DockerCall → Bool
  | .createContainer _ _ | .removeContainer _ => false
  | _ => true

/-- The calls that leave the names as well. -/
def DockerCall.keepsNames : DockerCall → Bool
  | .renameContainer _ _ => false
  | call => call.gentle

theorem Docker.apply_gentle {α : Type} (d : Docker) (call : DockerCall) (f : UpdateContainer → α)
    (gentle : call.gentle = true) (states : ∀ c running, f { c with running } = f c)
    (networks : ∀ c networks, f { c with networks } = f c)
    (names : call.keepsNames = true ∨ ∀ c name, f { c with name } = f c) :
    (d.apply call).2.created = d.created ∧ ∀ id, ((d.apply call).2.get id).map f = (d.get id).map f := by
  have modified : ∀ ref change named, (∀ c, f (change c) = f c) → (d.modify ref change named).2.created = d.created ∧
        ∀ id, ((d.modify ref change named).2.get id).map f = (d.get id).map f := by
    intro ref change named same
    rcases modify_cases ref change named with ⟨-, is⟩ | ⟨found, c, there, -, created, gets⟩
    · rw [is]
      exact ⟨rfl, fun id => rfl⟩
    refine ⟨created, fun id => ?_⟩
    rw [gets]
    split
    · rename_i is
      rw [← is, get_of_find there, map_some, map_some, same]
    · rfl
  cases call with
  | inspectContainer ref =>
    simp only [apply]
    split <;> exact ⟨rfl, fun id => rfl⟩
  | inspectImage image => exact ⟨rfl, fun id => rfl⟩
  | tagImage image reference => exact ⟨rfl, fun id => rfl⟩
  | stopContainer ref => exact modified ref (fun c => { c with running := false }) (fun _ => rfl) fun c => states c false
  | renameContainer ref name =>
    rcases names with keeps | names
    · cases keeps
    rcases rename_cases d ref name with ⟨e, is⟩ | ⟨found, c, there, -, created, gets⟩
    · simp only [apply, is]
      exact ⟨trivial, fun id => trivial⟩
    · refine ⟨created, fun id => ?_⟩
      simp only [apply]
      rw [gets]
      split
      · rename_i is
        rw [← is, get_of_find there, map_some, map_some, names]
      · rfl
  | createContainer name body => cases gentle
  | connectNetwork network ref => exact modified ref (fun c => { c with networks := c.networks ++ [network] }) (fun _ => rfl) fun c => networks c _
  | startContainer ref => exact modified ref (fun c => { c with running := true }) (fun _ => rfl) fun c => states c true
  | removeContainer id => cases gentle
  | listContainers operation => exact ⟨rfl, fun id => rfl⟩

namespace UpdateView

/-- Two views of the same containers, as to their images and labels. -/
structure Same (v v' : UpdateView) : Prop where
  containers : ∀ id, (v'.containers id).map (fun c => (c.image, c.operation)) =
    (v.containers id).map fun c => (c.image, c.operation)
  created : v'.created = v.created
  log : v'.log = v.log

/-- Two views of the same names. -/
def SameNames (v v' : UpdateView) : Prop :=
  ∀ id, (v'.containers id).map UpdateContainer.name = (v.containers id).map UpdateContainer.name

variable {v v' : UpdateView} {since id : Nat} {label : String} {c : UpdateContainer}

theorem Same.back (same : Same v v') (there : v'.containers id = some c) :
    ∃ c', v.containers id = some c' ∧ c'.image = c.image ∧ c'.operation = c.operation := by
  have eq := same.containers id
  rw [there, map_some] at eq
  rcases map_eq_some_iff.mp eq.symm with ⟨c', there', is⟩
  exact ⟨c', there', (Prod.mk.inj is).1, (Prod.mk.inj is).2⟩

theorem Same.symm (same : Same v v') : Same v' v :=
  ⟨fun id => (same.containers id).symm, same.created.symm, same.log.symm⟩

theorem SameNames.back (same : SameNames v v') (there : v'.containers id = some c) :
    ∃ c', v.containers id = some c' ∧ c'.name = c.name := by
  have eq := same id
  rw [there, map_some] at eq
  rcases map_eq_some_iff.mp eq.symm with ⟨c', there', is⟩
  exact ⟨c', there', is⟩

theorem SameNames.symm (same : SameNames v v') : SameNames v' v := fun id => (same id).symm

theorem NoneLeft.same (nothing : v.NoneLeft since) (same : Same v v') : v'.NoneLeft since := by
  intro id c there
  rcases same.back there with ⟨c', there', -, -⟩
  exact nothing id c' there'

theorem Ours.same (ours : v.Ours since label) (same : Same v v') : v'.Ours since label := by
  intro id c there after
  rcases same.back there with ⟨c', there', -, operation⟩
  rw [← operation]
  exact ours id c' there' after

end UpdateView

namespace UpdateStart

variable {u : UpdateStart} {v v' : UpdateView} {label : String} {w : UpdateSite}

theorem Standing.same (standing : u.Standing v label) (same : UpdateView.Same v v') : u.Standing v' label where
  there := by
    rcases standing.there with ⟨c, there, image⟩
    rcases same.symm.back there with ⟨c', there', image', -⟩
    exact ⟨c', there', image'.trans image⟩
  ours := standing.ours.same same
  since := by
    rw [same.created]
    exact standing.since
  clean := by
    intro failures member
    rw [same.log] at member
    exact standing.clean failures member

theorem Named.sameNames (named : u.Named v) (same : UpdateView.SameNames v v') : u.Named v' := by
  rcases named with ⟨c, there, named⟩
  rcases same.symm.back there with ⟨c', there', is⟩
  exact ⟨c', there', is.trans named⟩

variable {call : DockerCall}

theorem same_applied (gentle : call.gentle = true) :
    UpdateView.Same (w.view u.original) ((w.applied call).view u.original) := by
  have after := w.docker.apply_gentle call (fun c => (c.image, c.operation)) gentle (fun _ _ => rfl)
    (fun _ _ => rfl) (.inr fun _ _ => rfl)
  refine ⟨fun id => ?_, after.1, rfl⟩
  have eq := after.2 id
  simp only [UpdateSite.view, UpdateSite.applied]
  split
  · exact eq
  · simp only [Option.map_map]
    exact eq

theorem sameNames_applied (keeps : call.keepsNames = true) :
    UpdateView.SameNames (w.view u.original) ((w.applied call).view u.original) := by
  have gentle : call.gentle = true := by
    cases call <;> first | rfl | exact keeps
  have after := w.docker.apply_gentle call UpdateContainer.name gentle (fun _ _ => rfl) (fun _ _ => rfl) (.inl keeps)
  intro id
  have eq := after.2 id
  simp only [UpdateSite.view, UpdateSite.applied]
  split
  · exact eq
  · simp only [Option.map_map]
    exact eq

/-! ## Triples of the calls -/

variable {pre : UpdateView → Prop}

theorem does_docker {post : Except CallError call.value → UpdateView → Prop}
    (there : ∀ w : UpdateSite, u.Kept (w.view u.original) → pre (w.view u.original) →
      u.Kept ((w.applied call).view u.original))
    (applied : ∀ w : UpdateSite, pre (w.view u.original) →
      post (w.docker.apply call).1 ((w.applied call).view u.original))
    (before : ∀ (w : UpdateSite) message, pre (w.view u.original) → post (.error ⟨false, message⟩) (w.view u.original))
    (after : ∀ (w : UpdateSite) message, pre (w.view u.original) →
      post (.error ⟨false, message⟩) ((w.applied call).view u.original)) :
    u.Does pre (Update.docker call) post := by
  refine Program.Meets.call (post) ?_ fun reply => done fun v _ is => is
  intro w reply w' kept is made
  cases made with
  | applied => exact ⟨there w kept is, applied w is⟩
  | failedBefore _ message => exact ⟨kept, before w message is⟩
  | failedAfter _ message => exact ⟨there w kept is, after w message is⟩

theorem kept_applied (gentle : call.gentle = true) (kept : u.Kept (w.view u.original)) :
    u.Kept ((w.applied call).view u.original) := by
  have same := same_applied (u := u) (w := w) gentle
  refine kept.of_same rfl fun gone => ?_
  cases there : (w.view u.original).containers u.original with
  | none => rfl
  | some c =>
    rcases same.symm.back there with ⟨c', there', -, -⟩
    exact absurd (gone.symm.trans there') (some_ne_none _).symm

/-- A call that keeps what holds, whatever it answers. -/
theorem does_quiet (gentle : call.gentle = true)
    (keeps : ∀ w : UpdateSite, pre (w.view u.original) → pre ((w.applied call).view u.original)) :
    u.Does pre (Update.docker call) fun _ => pre :=
  does_docker (fun _ kept _ => kept_applied gentle kept) keeps (fun _ _ is => is) fun w _ is => keeps w is

variable {entry : UpdateNote}

/-- Something is noted, other than a failure to roll back. -/
theorem does_note (post : UpdateView → Prop)
    (keeps : ∀ v, u.Kept v → pre v → u.Kept { v with log := v.log ++ [entry] } ∧
      post { v with log := v.log ++ [entry] }) :
    u.Does pre (Update.note entry) fun _ => post := by
  refine Program.Meets.call (fun _ => post) ?_ fun reply => done fun v _ is => is
  intro w reply w' kept is made
  cases made with
  | note => exact keeps _ kept is

/-- What an inspection says of a container: what is seen of it, and which one has the name. -/
def Tells (u : UpdateStart) (v : UpdateView) (ref : ContainerRef) (found : Nat × UpdateContainer) : Prop :=
  (∃ seen, v.containers found.1 = some seen ∧ UpdateSite.Seen u.original found.1 seen found.2) ∧
    match ref with
    | .id id => found.1 = id
    | .name name => ∀ id c, v.containers id = some c → c.name = name → id = found.1

/-- What an inspection that finds nothing says. -/
def Missing (v : UpdateView) : ContainerRef → Prop
  | .id id => v.containers id = none
  | .name name => ∀ id c, v.containers id = some c → c.name ≠ name

theorem does_inspect {ref : ContainerRef} (pre : UpdateView → Prop) :
    u.Does pre (Update.docker (.inspectContainer ref)) fun reply v => pre v ∧
      (∀ found, reply = .ok found → u.Tells v ref found) ∧
      ∀ cause, reply = .error cause → cause.notFound = true → Missing v ref := by
  have unchanged : ∀ w : UpdateSite, w.applied (.inspectContainer ref) = w := by
    intro w
    simp only [UpdateSite.applied, Docker.apply]
    split <;> rfl
  have unanswered : ∀ (w : UpdateSite) message,
      (∀ found, (.error ⟨false, message⟩ : Except CallError (Nat × UpdateContainer)) = .ok found →
        u.Tells (w.view u.original) ref found) ∧
      ∀ cause, (.error ⟨false, message⟩ : Except CallError (Nat × UpdateContainer)) = .error cause →
        cause.notFound = true → Missing (w.view u.original) ref := by
    intro w message
    refine ⟨fun found reply => absurd reply (by simp), fun cause reply not => ?_⟩
    cases reply
    cases not
  refine does_docker (fun w kept _ => by rwa [unchanged]) ?_ ?_ ?_
  · intro w is
    rw [unchanged]
    refine ⟨is, fun found reply => ?_, fun cause reply _ => ?_⟩
    · cases there : w.docker.find ref with
      | none =>
        simp only [Docker.apply, there] at reply
        cases reply
      | some other =>
        simp only [Docker.apply, there] at reply
        obtain rfl : other = found := Except.ok.inj reply
        refine ⟨UpdateSite.view_of_get _ (Docker.get_of_find there), ?_⟩
        cases ref with
        | id id => exact (Docker.find_id.mp there).1
        | name name =>
          intro id c seen named
          rcases UpdateSite.get_of_view seen with ⟨c', there', same⟩
          have here := Docker.find_name.mp there
          exact w.docker.distinct id other.1 c' other.2 there' here.1 ((same.1.symm.trans named).trans here.2.symm)
    · cases there : w.docker.find ref with
      | some other =>
        simp only [Docker.apply, there] at reply
        cases reply
      | none =>
        cases ref with
        | id id =>
          refine UpdateSite.view_none.mpr ?_
          cases got : w.docker.get id with
          | none => rfl
          | some c => exact absurd (there.symm.trans (Docker.find_id.mpr ⟨rfl, got⟩)) (some_ne_none _).symm
        | name name =>
          intro id c seen
          rcases UpdateSite.get_of_view seen with ⟨c', there', same⟩
          rw [same.1]
          exact Docker.find_name_none.mp there id c' there'
  · intro w message is
    exact ⟨is, unanswered w message⟩
  · intro w message is
    rw [unchanged]
    exact ⟨is, unanswered w message⟩

theorem does_inspectOptional {ref : ContainerRef} (pre : UpdateView → Prop) :
    u.Does pre (inspectOptional ref) fun reply v => pre v ∧
      (∀ found, reply = .ok (some found) → u.Tells v ref found) ∧ (reply = .ok none → Missing v ref) := by
  refine (does_inspect pre).bind fun reply => ?_
  cases reply with
  | ok found =>
    refine done fun v _ is => ⟨is.1, fun other same => ?_, by simp⟩
    cases same
    exact is.2.1 found rfl
  | error cause =>
    dsimp only
    split
    · rename_i not
      exact done fun v _ is => ⟨is.1, by simp, fun _ => is.2.2 cause rfl not⟩
    · exact done fun v _ is => ⟨is.1, by simp, by simp⟩

variable {α : Type} {phase : String}

theorem does_updateOperation {operation : Update (Except CallError α)}
    {post : Except CallError α → UpdateView → Prop} (post' : Except UpdateError α → UpdateView → Prop)
    (does : u.Does pre operation post) (ok : ∀ value v, post (.ok value) v → post' (.ok value) v)
    (error : ∀ cause reason v, post (.error cause) v → post' (.error ⟨phase, reason, []⟩) v) :
    u.Does pre (updateOperation phase operation) post' := by
  refine does.bind fun reply => ?_
  cases reply with
  | ok value => exact done fun v _ is => ok value v is
  | error cause => exact done fun v _ is => error cause _ v is

/-- A step of the rollback gives a value, or something that failed. -/
theorem does_attempt {operation : Update (Except CallError α)} {post : Except CallError α → UpdateView → Prop}
    (post' : Option α × List String → UpdateView → Prop) (does : u.Does pre operation post)
    (ok : ∀ value v, post (.ok value) v → post' (some value, []) v)
    (error : ∀ cause message v, post (.error cause) v → post' (none, [message]) v) :
    u.Does pre (attempt phase operation) post' := by
  refine (does_updateOperation (Program.onResult (fun value => post' (some value, []))
    fun cause => post' (none, [cause.message])) does ok ?_).bind fun reply => ?_
  · exact fun cause reason v is => error cause _ v is
  · cases reply with
    | ok value => exact done fun v _ is => is
    | error cause => exact done fun v _ is => is

/-! ## The rollback -/

variable {listedAll : Prop}

theorem does_remove {id : Nat} {rest : List Nat} (other : id ≠ u.original) :
    u.Does (fun v => u.Standing v label ∧ (listedAll → v.Left u.since (id :: rest)))
      (Update.docker (.removeContainer id)) fun reply v => u.Standing v label ∧
        (listedAll → v.Left u.since (id :: rest)) ∧ (∀ value, reply = .ok value → listedAll → v.Left u.since rest) := by
  have gets : ∀ (w : UpdateSite) i, ((w.applied (.removeContainer id)).view u.original).containers i =
      if id = i then none else (w.view u.original).containers i := by
    intro w i
    simp only [UpdateSite.view, UpdateSite.applied, Docker.apply, Docker.get_remove]
    by_cases same : id = i
    · simp only [if_pos same, map_none, ite_self]
    · simp only [if_neg same]
  have stays : ∀ (w : UpdateSite) i c, ((w.applied (.removeContainer id)).view u.original).containers i = some c →
      id ≠ i ∧ (w.view u.original).containers i = some c := by
    intro w i c there
    rw [gets] at there
    split at there
    · cases there
    · exact ⟨‹_›, there⟩
  have standing : ∀ w : UpdateSite, u.Standing (w.view u.original) label →
      u.Standing ((w.applied (.removeContainer id)).view u.original) label := by
    intro w is
    refine ⟨?_, fun i c there => is.ours i c (stays w i c there).2, is.since, is.clean⟩
    rcases is.there with ⟨c, there, image⟩
    exact ⟨c, by rw [gets, if_neg other]; exact there, image⟩
  have left : ∀ w : UpdateSite, (w.view u.original).Left u.since (id :: rest) →
      ((w.applied (.removeContainer id)).view u.original).Left u.since rest := by
    intro w is i c there since
    have still := stays w i c there
    rcases mem_cons.mp (is i c still.2 since) with same | member
    · exact absurd same.symm still.1
    · exact member
  refine does_docker ?_ ?_ ?_ ?_
  · intro w kept is
    refine kept.of_same rfl fun gone => ?_
    rwa [gets, if_neg other] at gone
  · intro w is
    refine ⟨standing w is.1, fun all i c there since => ?_, fun _ _ all => left w (is.2 all)⟩
    exact mem_cons_of_mem _ (left w (is.2 all) i c there since)
  · exact fun w message is => ⟨is.1, is.2, by simp⟩
  · intro w message is
    refine ⟨standing w is.1, fun all i c there since => ?_, by simp⟩
    exact mem_cons_of_mem _ (left w (is.2 all) i c there since)

theorem does_removeReplacement {id : Nat} {rest : List Nat} (other : id ≠ u.original) :
    u.Does (fun v => u.Standing v label ∧ (listedAll → v.Left u.since (id :: rest)))
      (removeReplacement id) fun reply v => u.Standing v label ∧
        (∀ value, reply = .ok value → listedAll → v.Left u.since rest) := by
  refine (does_remove other).bind fun reply => ?_
  cases reply with
  | ok value => exact done fun v _ is => ⟨is.1, fun _ _ => is.2.2 value rfl⟩
  | error cause =>
    refine (does_inspect (fun v => u.Standing v label ∧ (listedAll → v.Left u.since (id :: rest)))).weaken
      (fun v is => ⟨is.1, is.2.1⟩) (fun _ _ _ is => is) |>.bind fun reply => ?_
    cases reply with
    | ok found => exact done fun v _ is => ⟨is.1.1, by simp⟩
    | error other =>
      dsimp only
      split
      · rename_i not
        refine done fun v _ is => ⟨is.1.1, fun _ _ all i c there since => ?_⟩
        have gone : v.containers id = none := is.2.2 other rfl not
        rcases mem_cons.mp (is.1.2 all i c there since) with same | member
        · rw [same, gone] at there
          cases there
        · exact member
      · exact done fun v _ is => ⟨is.1.1, by simp⟩

theorem does_removeEach (listedAll : Prop) {ids : List Nat} (others : ∀ id ∈ ids, id ≠ u.original) :
    u.Does (fun v => u.Standing v label ∧ (listedAll → v.Left u.since ids)) (removeEach ids)
      fun failures v => u.Standing v label ∧ (listedAll → failures = [] → v.NoneLeft u.since) := by
  induction ids generalizing listedAll with
  | nil =>
    refine done fun v _ is => ⟨is.1, fun all _ id c there => ?_⟩
    by_contra after
    exact not_mem_nil (is.2 all id c there (Nat.le_of_not_lt after))
  | cons id rest ih =>
    refine (does_attempt (fun removed v => u.Standing v label ∧ (listedAll ∧ removed.2 = [] → v.Left u.since rest))
      (does_removeReplacement (others id mem_cons_self)) ?_ ?_).bind fun removed => ?_
    · exact fun value v is => ⟨is.1, fun all => is.2 value rfl all.1⟩
    · exact fun cause message v is => ⟨is.1, fun all => absurd all.2 (cons_ne_nil _ _)⟩
    · refine (ih (listedAll ∧ removed.2 = []) fun id member =>
        others id (mem_cons_of_mem _ member)).bind fun failures => ?_
      refine done fun v _ is => ⟨is.1, fun all nothing => ?_⟩
      rw [append_eq_nil_iff] at nothing
      exact is.2 ⟨all, nothing.1⟩ nothing.2

theorem does_list : u.Does (u.Standing · label) (Update.docker (.listContainers label)) fun reply v =>
    u.Standing v label ∧ ∀ ids, reply = .ok ids →
      ∀ id c, v.containers id = some c → c.operation = some label → id ∈ ids := by
  refine does_docker (fun _ kept _ => kept_applied rfl kept) ?_ ?_ ?_
  · intro w is
    refine ⟨is, fun ids reply id c there operation => ?_⟩
    cases reply
    rcases UpdateSite.get_of_view there with ⟨c', there', same⟩
    refine mem_map.mpr ⟨(id, c'), mem_filter.mpr ⟨?_, ?_⟩, rfl⟩
    · exact (OrderedMap.lookup_eq_some w.docker.containers.nodup).mp there'
    · rw [decide_eq_true_eq]
      exact same.2.2.1.symm.trans operation
  · exact fun w message is => ⟨is, by simp⟩
  · exact fun w message is => ⟨is, by simp⟩

variable {replacementId : Option Nat}

theorem does_removeReplacements :
    u.Does (u.Standing · label) (removeReplacements u.original label replacementId) fun failures v =>
      u.Standing v label ∧ (failures = [] → v.NoneLeft u.since) := by
  refine (does_attempt (fun labelled v => u.Standing v label ∧ (labelled.2 = [] → ∃ ids, labelled.1 = some ids ∧
        ∀ id c, v.containers id = some c → c.operation = some label → id ∈ ids)) does_list ?_ ?_).bind fun labelled => ?_
  · exact fun ids v is => ⟨is.1, fun _ => ⟨ids, rfl, is.2 ids rfl⟩⟩
  · exact fun cause message v is => ⟨is.1, fun nothing => absurd nothing (cons_ne_nil _ _)⟩
  extract_lets replacements
  -- whatever was created since then is among the replacements
  have found : ∀ v, u.Standing v label → (labelled.2 = [] → ∃ ids, labelled.1 = some ids ∧
      ∀ id c, v.containers id = some c → c.operation = some label → id ∈ ids) →
      labelled.2 = [] → v.Left u.since replacements := by
    intro v standing listed nothing id c there since
    rcases listed nothing with ⟨ids, is, all⟩
    have member := all id c there (standing.ours id c there since)
    refine mem_filter.mpr ⟨?_, ?_⟩
    · rw [mem_eraseDups, is, getD_some]
      exact mem_append_left _ member
    · rw [decide_eq_true_eq]
      exact Nat.ne_of_gt (Nat.lt_of_lt_of_le u.below since)
  split
  · rename_i empty
    refine done fun v _ is => ⟨is.1, fun nothing id c there => ?_⟩
    by_contra after
    have member := found v is.1 is.2 nothing id c there (Nat.le_of_not_lt after)
    rw [empty] at member
    exact not_mem_nil member
  refine (does_attempt (fun before v => (before.1 = none → before.2 ≠ []) ∧ u.Standing v label ∧
      (labelled.2 = [] → v.Left u.since replacements)) (does_inspectOptional fun v => u.Standing v label ∧
        (labelled.2 = [] → v.Left u.since replacements)) ?_ ?_).weaken
      ?_ (fun _ _ _ is => is) |>.bind fun before => ?_
  · exact fun found v is => ⟨by simp, is.1⟩
  · exact fun cause message v is => ⟨by simp, is.1⟩
  · exact fun v is => ⟨is.1, found v is.1 is.2⟩
  · rcases before with ⟨_ | _ | _, failures⟩
    · refine done fun v _ is => ⟨is.2.1, fun nothing => ?_⟩
      exact absurd (append_eq_nil_iff.mp nothing).2 (is.1 rfl)
    · refine done fun v _ is => ⟨is.2.1, fun nothing => ?_⟩
      exact absurd (append_eq_nil_iff.mp nothing).2 (cons_ne_nil _ _)
    · refine ((does_removeEach (labelled.2 = []) fun id member => ?_).weaken
        (fun _ is => is.2) fun _ _ _ is => is).bind fun failures' => ?_
      · exact of_decide_eq_true (mem_filter.mp member).2
      · refine done fun v _ is => ⟨is.1, fun nothing => ?_⟩
        simp only [append_eq_nil_iff] at nothing
        exact is.2 nothing.1.1 nothing.2

/-- What holds once the replacements were looked for. -/
structure Cleared (u : UpdateStart) (label : String) (listedAll : Prop) (v : UpdateView) : Prop where
  standing : u.Standing v label
  noneLeft : listedAll → v.NoneLeft u.since

theorem Cleared.same (cleared : u.Cleared label listedAll v) (same : UpdateView.Same v v') :
    u.Cleared label listedAll v' :=
  ⟨cleared.standing.same same, fun all => (cleared.noneLeft all).same same⟩

/-- The original has the name, and is running if `runs`. -/
def Back (u : UpdateStart) (runs : Prop) (v : UpdateView) : Prop :=
  u.Named v ∧ (runs → ∃ c, v.containers u.original = some c ∧ c.running = true)

theorem Tells.original {found : Nat × UpdateContainer} (tells : u.Tells v (.id u.original) found) :
    v.containers u.original = some found.2 := by
  rcases tells with ⟨⟨seen, there, same⟩, is⟩
  have is' : found.1 = u.original := is
  rw [is'] at there same
  rw [there, same.2.2.2 rfl]

theorem does_restoreName {restored : UpdateContainer} :
    u.Does (fun v => u.Cleared label listedAll v ∧ v.containers u.original = some restored)
      (restoreName u.input u.original restored) fun owns v =>
        u.Cleared label listedAll v ∧ (owns.1 = true → u.Named v) ∧ (owns.2 = [] → owns.1 = true) := by
  unfold restoreName
  split
  · rename_i named
    exact done fun v _ is => ⟨is.1, fun _ => ⟨restored, is.2, named⟩, fun _ => rfl⟩
  refine (does_attempt (fun holder v => u.Cleared label listedAll v ∧ (holder.1 = none → holder.2 ≠ []))
      (does_inspectOptional (u.Cleared label listedAll)) ?_ ?_).weaken
      (fun _ is => is.1) (fun _ _ _ is => is) |>.bind fun holder => ?_
  · exact fun found v is => ⟨is.1, by simp⟩
  · exact fun cause message v is => ⟨is.1, by simp⟩
  rcases holder with ⟨_ | _ | ⟨holderId, _⟩, failures⟩
  · exact done fun v _ is => ⟨is.1, by simp, fun nothing => absurd nothing (is.2 rfl)⟩
  · refine ((does_quiet rfl fun w is => is.same (same_applied rfl)).weaken (fun _ is => is.1)
      fun _ _ _ is => is).bind fun _ => ?_
    refine (does_attempt (fun renamed v => u.Cleared label listedAll v ∧ (renamed.1 = none → renamed.2 ≠ []) ∧
        ∀ found, renamed.1 = some found → v.containers u.original = some found.2)
      (does_inspect (u.Cleared label listedAll)) ?_ ?_).bind fun renamed => ?_
    · refine fun found v is => ⟨is.1, by simp, fun other same => ?_⟩
      cases same
      exact (is.2.1 found rfl).original
    · exact fun cause message v is => ⟨is.1, by simp, by simp⟩
    rcases renamed with ⟨_ | found, failures'⟩
    · refine done fun v _ is => ⟨is.1, by simp, fun nothing => ?_⟩
      exact absurd (append_eq_nil_iff.mp nothing).2 (is.2.1 rfl)
    · dsimp only
      split
      · rename_i named
        exact done fun v _ is => ⟨is.1, fun _ => ⟨found.2, is.2.2 found rfl, named⟩, fun _ => rfl⟩
      · refine done fun v _ is => ⟨is.1, by simp, fun nothing => ?_⟩
        exact absurd (append_eq_nil_iff.mp nothing).2 (cons_ne_nil _ _)
  · refine done fun v _ is => ⟨is.1, by simp, fun nothing => ?_⟩
    exact absurd (append_eq_nil_iff.mp nothing).2 (cons_ne_nil _ _)

theorem does_restartOriginal :
    u.Does (fun v => u.Cleared label listedAll v ∧ u.Named v) (restartOriginal u.original) fun failures v =>
      u.Cleared label listedAll v ∧ (failures = [] → u.Back True v) := by
  refine (does_quiet rfl fun w is =>
    ⟨is.1.same (same_applied rfl), is.2.sameNames (sameNames_applied rfl)⟩).bind fun _ => ?_
  refine (does_attempt (fun started v => (u.Cleared label listedAll v ∧ u.Named v) ∧ (started.1 = none → started.2 ≠ []) ∧
      ∀ found, started.1 = some found → v.containers u.original = some found.2)
    (does_inspect fun v => u.Cleared label listedAll v ∧ u.Named v) ?_ ?_).bind fun started => ?_
  · refine fun found v is => ⟨is.1, by simp, fun other same => ?_⟩
    cases same
    exact (is.2.1 found rfl).original
  · exact fun cause message v is => ⟨is.1, by simp, by simp⟩
  rcases started with ⟨_ | found, failures⟩
  · exact done fun v _ is => ⟨is.1.1, fun nothing => absurd nothing (is.2.1 rfl)⟩
  · dsimp only
    split
    · rename_i runs
      exact done fun v _ is => ⟨is.1.1, fun _ => ⟨is.1.2, fun _ => ⟨found.2, is.2.2 found rfl, runs⟩⟩⟩
    · refine done fun v _ is => ⟨is.1.1, fun nothing => ?_⟩
      exact absurd (append_eq_nil_iff.mp nothing).2 (cons_ne_nil _ _)

theorem does_restoreOriginal (listedAll : Prop) (current : UpdateContainer) :
    u.Does (u.Cleared label listedAll) (restoreOriginal u.input u.original current) fun failures v =>
      u.Cleared label listedAll v ∧ (failures = [] → u.Back (current.running = true) v) := by
  refine (does_attempt (fun restored v => u.Cleared label listedAll v ∧ (restored.1 = none → restored.2 ≠ []) ∧
      ∀ found, restored.1 = some (some found) → v.containers u.original = some found.2)
    (does_inspectOptional (u.Cleared label listedAll)) ?_ ?_).bind fun restored => ?_
  · refine fun found v is => ⟨is.1, by simp, fun other same => ?_⟩
    exact (is.2.1 other (congrArg Except.ok (Option.some.inj same))).original
  · exact fun cause message v is => ⟨is.1, by simp, by simp⟩
  rcases restored with ⟨_ | _ | found, failures⟩
  · exact done fun v _ is => ⟨is.1, fun nothing => absurd nothing (is.2.1 rfl)⟩
  · refine done fun v _ is => ⟨is.1, fun nothing => ?_⟩
    exact absurd (append_eq_nil_iff.mp nothing).2 (cons_ne_nil _ _)
  refine (does_restoreName.weaken (fun v is => ⟨is.1, is.2.2 found rfl⟩) fun _ _ _ is => is).bind fun owns => ?_
  dsimp only
  split
  · rename_i restarts
    rw [Bool.and_eq_true] at restarts
    refine (does_restartOriginal.weaken (fun v is => ⟨is.1, is.2.1 restarts.1⟩) fun _ _ _ is => is).bind
      fun failures' => ?_
    refine done fun v _ is => ⟨is.1, fun nothing => ?_⟩
    have back := is.2 (append_eq_nil_iff.mp nothing).2
    exact ⟨back.1, fun _ => back.2 trivial⟩
  · rename_i stays
    refine done fun v _ is => ⟨is.1, fun nothing => ?_⟩
    have owned := is.2.2 (append_eq_nil_iff.mp nothing).2
    refine ⟨is.2.1 owned, fun runs => ?_⟩
    rw [owned, runs] at stays
    exact absurd rfl stays

theorem does_rollback {current : UpdateContainer} (image : current.image = u.container.image)
    (runs : u.container.running = true → current.running = true) :
    u.Does (u.Standing · label)
      (rollbackContainerReplacement u.input u.original current label replacementId) fun failures v =>
        u.Standing v label ∧ (failures = [] → u.Restored v) := by
  refine does_removeReplacements.bind fun first => ?_
  refine ((does_restoreOriginal (first = []) current).from _ fun v _ is => ⟨is.1, is.2⟩).bind fun second => ?_
  -- tagging leaves the containers as they are
  have same : ∀ w : UpdateSite, ((w.applied (.tagImage current.image u.input.targetReference)).view
      u.original).containers = (w.view u.original).containers := fun _ => rfl
  have back : ∀ w : UpdateSite, (second = [] → u.Back (current.running = true) (w.view u.original)) →
      second = [] → u.Back (current.running = true)
        ((w.applied (.tagImage current.image u.input.targetReference)).view u.original) := by
    intro w is nothing
    simpa only [Back, Named, same] using is nothing
  have tagged : u.Does (fun v => u.Cleared label (first = []) v ∧ (second = [] → u.Back (current.running = true) v))
      (Update.docker (.tagImage current.image u.input.targetReference)) fun reply v =>
        (u.Cleared label (first = []) v ∧ (second = [] → u.Back (current.running = true) v)) ∧
          ∀ value, reply = .ok value → v.tags u.input.targetReference = some u.container.image := by
    refine does_docker (fun _ kept _ => kept_applied rfl kept) ?_ ?_ ?_
    · refine fun w is => ⟨⟨is.1.same (same_applied rfl), back w is.2⟩, fun _ _ => ?_⟩
      rw [← image]
      exact if_pos rfl
    · exact fun w message is => ⟨is, by simp⟩
    · exact fun w message is => ⟨⟨is.1.same (same_applied rfl), back w is.2⟩, by simp⟩
  refine (does_attempt (fun third v => (u.Cleared label (first = []) v ∧
      (second = [] → u.Back (current.running = true) v)) ∧
        (third.2 = [] → v.tags u.input.targetReference = some u.container.image)) tagged ?_ ?_).bind fun third => ?_
  · exact fun value v is => ⟨is.1, fun _ => is.2 value rfl⟩
  · exact fun cause message v is => ⟨is.1, by simp⟩
  · refine done fun v _ is => ⟨is.1.1.standing, fun nothing => ?_⟩
    simp only [append_eq_nil_iff] at nothing
    have back' := is.1.2 nothing.1.2
    exact ⟨is.1.1.standing.there, back'.1, fun ran => back'.2 (runs ran), is.1.1.noneLeft nothing.1.1,
      .inl (is.2 nothing.2)⟩

/-! ## The forward steps -/

/-- What an update knows of the log is not undone by a note. -/
theorem FoundHealthy.noted (found : u.FoundHealthy v) :
    u.FoundHealthy { v with log := v.log ++ [entry] } := by
  rcases found with ⟨id, c, member, rest⟩
  exact ⟨id, c, mem_append_left _ member, rest⟩

theorem clean_noted (clean : v.Clean) (fine : ∀ failures, entry = .failed failures → failures = []) :
    UpdateView.Clean { v with log := v.log ++ [entry] } := by
  intro failures member
  rcases mem_append.mp member with before | last
  · exact clean failures before
  · exact fine failures (mem_singleton.mp last).symm

theorem Kept.noted (kept : u.Kept v) (clean : v.Clean) (fine : ∀ failures, entry = .failed failures → failures = []) :
    u.Kept { v with log := v.log ++ [entry] } :=
  kept_of_clean (fun gone => (kept.gone gone).noted) (clean_noted clean fine)

theorem Standing.noted (standing : u.Standing v label) (fine : ∀ failures, entry = .failed failures → failures = []) :
    u.Standing { v with log := v.log ++ [entry] } label :=
  ⟨standing.there, standing.ours, standing.since, clean_noted standing.clean fine⟩

theorem does_onPhase {name : String} {next : Update α} {post : α → UpdateView → Prop}
    (clean : ∀ v, pre v → v.Clean) (keeps : ∀ v, pre v → pre { v with log := v.log ++ [.phase name] })
    (does : u.Does pre next post) :
    u.Does pre (onPhase name next) post :=
  (does_note pre fun v kept is => ⟨kept.noted (clean v is) (by simp), keeps v is⟩).bind fun _ => does

theorem does_knowing {program : Update (Except UpdateError α)} {post : UpdateView → Prop}
    {ok : α → UpdateView → Prop} (does : u.Does pre program (Program.onResult ok fun _ => post)) :
    u.Does pre (knowing replacementId program) (Program.onResult ok fun _ => post) := by
  refine does.bind fun reply => ?_
  cases reply with
  | ok value => exact done fun v _ is => is
  | error cause => exact done fun v _ is => is

theorem does_step {post : UpdateView → Prop} {ok : call.value → UpdateView → Prop}
    (does : u.Does pre (Update.docker call) (Program.onResult ok fun _ => post)) :
    u.Does pre (updateOperation phase (Update.docker call)) (Program.onResult ok fun _ => post) :=
  does_updateOperation (Program.onResult ok fun _ => post) does (fun _ _ is => is) fun _ _ _ is => is

/-- A container under the original's name was created since. -/
def Made (u : UpdateStart) (v : UpdateView) : Prop :=
  ∃ id c, u.since ≤ id ∧ v.containers id = some c ∧ c.name = u.input.targetContainer

theorem Made.sameNames (made : u.Made v) (same : UpdateView.SameNames v v') : u.Made v' := by
  rcases made with ⟨id, c, since, there, named⟩
  rcases same.symm.back there with ⟨c', there', is⟩
  exact ⟨id, c', since, there', is.trans named⟩

/-- The replacement is there, or the step has failed. -/
abbrev MadeOr (u : UpdateStart) (label : String) {α ε : Type} : Except ε α → UpdateView → Prop :=
  Program.onResult (fun _ v => u.Standing v label ∧ u.Made v) fun _ v => u.Standing v label

/-- The replacement was found healthy, or the step has failed. -/
abbrev HealthyOr (u : UpdateStart) (label : String) {α ε : Type} : Except ε α → UpdateView → Prop :=
  Program.onResult (fun _ v => u.Standing v label ∧ u.FoundHealthy v) fun _ v => u.Standing v label

/-- The replacement is created under the original's name, or is not, and carries the label. -/
theorem does_create {image primaryNetwork : String} :
    u.Does (u.Standing · label) (Update.docker (.createContainer u.input.targetContainer
      { image, primaryNetwork, operation := label })) (u.MadeOr label) := by
  -- what is seen after it was applied
  have after : ∀ w : UpdateSite, u.Standing (w.view u.original) label →
      (u.Kept (w.view u.original) → u.Kept ((w.applied (.createContainer u.input.targetContainer
        { image, primaryNetwork, operation := label })).view u.original)) ∧
      u.Standing ((w.applied (.createContainer u.input.targetContainer
        { image, primaryNetwork, operation := label })).view u.original) label ∧
      ∀ id, (w.docker.create u.input.targetContainer { image, primaryNetwork, operation := label }).1 = .ok id →
        u.Made ((w.applied (.createContainer u.input.targetContainer
          { image, primaryNetwork, operation := label })).view u.original) := by
    intro w standing
    rcases Docker.create_cases (d := w.docker) u.input.targetContainer { image, primaryNetwork, operation := label }
      with ⟨e, refused⟩ | ⟨answer, tags, created, c, named, operation, gets⟩
    · have same : w.applied (.createContainer u.input.targetContainer
          { image, primaryNetwork, operation := label }) = w := by
        simp only [UpdateSite.applied, Docker.apply, refused]
      rw [same]
      exact ⟨fun kept => kept, standing, fun id is => by simp [refused] at is⟩
    have since : u.since ≤ w.docker.created := standing.since
    have other : w.docker.created ≠ u.original := Nat.ne_of_gt (Nat.lt_of_lt_of_le u.below since)
    have seen : ∀ id, ((w.applied (.createContainer u.input.targetContainer
        { image, primaryNetwork, operation := label })).view u.original).containers id =
        if w.docker.created = id then some { c with running := false, health := none }
        else (w.view u.original).containers id := by
      intro id
      simp only [UpdateSite.view, UpdateSite.applied, Docker.apply, gets]
      by_cases same : w.docker.created = id
      · rw [if_neg (same ▸ other), if_pos same, if_pos same, map_some]
      · simp only [if_neg same]
    refine ⟨fun kept => kept.of_same rfl fun gone => ?_, ?_, fun id _ => ?_⟩
    · rwa [seen, if_neg other] at gone
    · refine ⟨?_, fun id found there after => ?_, ?_, standing.clean⟩
      · rcases standing.there with ⟨found, there, is⟩
        exact ⟨found, by rw [seen, if_neg other]; exact there, is⟩
      · rw [seen] at there
        split at there
        · rw [← Option.some.inj there]
          exact operation
        · exact standing.ours id found there after
      · simp only [UpdateSite.view, UpdateSite.applied, Docker.apply, created]
        exact Nat.le_succ_of_le since
    · exact ⟨w.docker.created, { c with running := false, health := none }, since, by rw [seen, if_pos rfl], named⟩
  refine does_docker (fun w kept is => (after w is).1 kept) ?_ (fun _ _ is => is) fun w _ is => (after w is).2.1
  intro w is
  have made := (after w is).2
  simp only [Docker.apply]
  cases answer : (w.docker.create u.input.targetContainer { image, primaryNetwork, operation := label }).1 with
  | ok id => exact ⟨made.1, made.2 id answer⟩
  | error cause => exact made.1

theorem does_waitRounds {deadline rounds runningSince : Nat} : u.Does (fun v => u.Standing v label ∧ u.Made v)
      (waitRounds (.name u.input.targetContainer) deadline rounds runningSince) (u.HealthyOr label) := by
  induction rounds generalizing runningSince with
  | zero => exact done fun v _ is => is.1
  | succ rounds ih =>
    have clock : ∀ {α : Type} {pre : UpdateView → Prop} {post : α → UpdateView → Prop} {next : Nat → Update α},
        (∀ now, u.Does pre (next now) post) → u.Does pre (.call .now next) post := by
      intro α pre post next does
      refine Program.Meets.call (fun _ => pre) ?_ does
      intro w reply w' kept is made
      cases made
      exact ⟨kept, is⟩
    have healthy : ∀ found : Nat × UpdateContainer, u.Does (fun v => (u.Standing v label ∧ u.Made v) ∧
        u.Tells v (.name u.input.targetContainer) found ∧ found.2.name = u.input.targetContainer)
        ((Update.note (.healthy found.1 found.2)).bind fun _ => .done (.ok () : Except CallError Unit))
        (u.HealthyOr label) := by
      intro found
      refine (does_note (fun v => u.Standing v label ∧ u.FoundHealthy v) fun v kept is => ?_).bind
        fun _ => done fun v _ is => is
      refine ⟨kept.noted is.1.1.clean (by simp), is.1.1.noted (by simp), found.1, found.2, ?_, ?_, is.2.2⟩
      · exact mem_append_right _ (mem_singleton.mpr rfl)
      · rcases is.1.2 with ⟨id, c, since, there, named⟩
        have same : id = found.1 := is.2.1.2 id c there named
        rw [← same]
        exact since
    refine clock fun now => ?_
    split
    · exact done fun v _ is => is.1
    refine (does_inspect (fun v => u.Standing v label ∧ u.Made v)).andThen (fun found => ?_) ?_
    · refine Program.Meets.from (fun v => (u.Standing v label ∧ u.Made v) ∧
          u.Tells v (.name u.input.targetContainer) found ∧ found.2.name = u.input.targetContainer) ?_ ?_
      · split
        · exact done fun v _ is => is.1.1
        · split
          · exact healthy found
          · exact done fun v _ is => is.1.1
          · exact ih.weaken (fun _ is => is.1) fun _ _ _ is => is
          · refine clock fun now => ?_
            extract_lets since
            refine clock fun now' => ?_
            split
            · exact healthy found
            · exact ih.weaken (fun _ is => is.1) fun _ _ _ is => is
      · intro v _ is
        have tells := is.2.1 found rfl
        refine ⟨is.1, tells, ?_⟩
        rcases is.1.2 with ⟨id, c, since, there, named⟩
        have same : id = found.1 := tells.2 id c there named
        rcases tells.1 with ⟨seen, there', is⟩
        rw [same, there'] at there
        rw [← is.1, Option.some.inj there, named]
    · exact fun cause v _ is => is.1.1

theorem does_waitUntilHealthy : u.Does (fun v => u.Standing v label ∧ u.Made v)
      (waitUntilHealthy (.name u.input.targetContainer)) (u.HealthyOr label) := by
  refine Program.Meets.call (fun _ v => u.Standing v label ∧ u.Made v) ?_ fun now => does_waitRounds
  intro w reply w' kept is made
  cases made
  exact ⟨kept, is⟩

theorem does_startReplacement {others : List String} :
    u.Does (fun v => u.Standing v label ∧ u.Made v) (startReplacement u.input others) (u.HealthyOr label) := by
  have quiet : ∀ (call : DockerCall) (phase : String), call.keepsNames = true →
      u.Does (fun v => u.Standing v label ∧ u.Made v) (updateOperation phase (Update.docker call))
        (u.MadeOr label) := by
    intro call phase keeps
    have gentle : call.gentle = true := by
      cases call <;> first | rfl | exact keeps
    refine does_step ((does_quiet gentle fun w (is : u.Standing (w.view u.original) label ∧
      u.Made (w.view u.original)) => ⟨is.1.same (same_applied gentle), is.2.sameNames (sameNames_applied keeps)⟩).weaken (fun _ is => is) fun reply v _ is => ?_)
    cases reply with
    | ok value => exact is
    | error cause => exact is.1
  have clean : ∀ v, u.Standing v label ∧ u.Made v → v.Clean := fun v is => is.1.clean
  have noted : ∀ (name : String) v, u.Standing v label ∧ u.Made v →
      u.Standing { v with log := v.log ++ [.phase name] } label ∧ u.Made { v with log := v.log ++ [.phase name] } :=
    fun name v is => ⟨is.1.noted (by simp), is.2⟩
  refine (forEach fun network => quiet (.connectNetwork network _) _ rfl).andThen (fun _ => ?_) fun _ _ _ is => is
  refine does_onPhase clean (noted _) ((quiet (.startContainer _) _ rfl).andThen (fun _ => ?_) fun _ _ _ is => is)
  refine does_onPhase clean (noted _) ?_
  exact does_updateOperation (u.HealthyOr label) does_waitUntilHealthy (fun _ _ is => is) fun _ _ _ is => is

/-- The forward steps keep the original, and succeed only once a replacement was found healthy. -/
theorem does_forward {current : UpdateContainer} {primary : String} :
    u.Does (u.Standing · label) (forward u.input current primary label) (u.HealthyOr label) := by
  have quiet : ∀ (call : DockerCall) (phase : String), call.gentle = true →
      u.Does (u.Standing · label) (knowing none (updateOperation phase (Update.docker call)))
        (Program.onResult (fun _ => (u.Standing · label)) fun _ => (u.Standing · label)) := by
    intro call phase gentle
    refine does_knowing (does_step ((does_quiet gentle fun w (is : u.Standing (w.view u.original) label) =>
      is.same (same_applied gentle)).weaken (fun _ is => is) fun reply v _ is => ?_))
    cases reply <;> exact is
  have clean : ∀ v, u.Standing v label → v.Clean := fun v is => is.clean
  have noted : ∀ (name : String) v, u.Standing v label →
      u.Standing { v with log := v.log ++ [.phase name] } label := fun name v is => is.noted (by simp)
  refine does_onPhase clean (noted _) ((quiet (.tagImage _ _) _ rfl).andThen (fun _ => ?_) fun _ _ _ is => is)
  refine does_onPhase clean (noted _) ((quiet (.stopContainer _) _ rfl).andThen (fun _ => ?_) fun _ _ _ is => is)
  refine does_onPhase clean (noted _) ((quiet (.renameContainer _ _) _ rfl).andThen (fun _ => ?_) fun _ _ _ is => is)
  refine does_onPhase clean (noted _) ?_
  refine (does_knowing (does_step does_create)).andThen (fun created => ?_) fun _ _ _ is => is
  have connecting : u.Does (fun v => u.Standing v label ∧ u.Made v)
      (if 1 < current.networks.length then Update.note (.phase "replace.connectNetwork") else .done ())
        fun _ v => u.Standing v label ∧ u.Made v := by
    split
    · exact does_note _ fun v kept is => ⟨kept.noted is.1.clean (by simp), is.1.noted (by simp), is.2⟩
    · exact done fun v _ is => is
  exact connecting.bind fun _ => does_knowing does_startReplacement

/-! ## A whole update -/

theorem Restored.noted (restored : u.Restored v) :
    u.Restored { v with log := v.log ++ [entry] } :=
  ⟨restored.there, restored.named, restored.runs, restored.noneLeft, restored.reference⟩

/-- What an attempt starts from. -/
structure Ready (u : UpdateStart) (v : UpdateView) : Prop where
  restored : u.Restored v
  clean : v.Clean
  since : u.since ≤ v.created

theorem Ready.standing (ready : u.Ready v) (label : String) : u.Standing v label where
  there := ready.restored.there
  ours := fun id c there after => absurd (ready.restored.noneLeft id c there) (Nat.not_lt_of_le after)
  since := ready.since
  clean := ready.clean

theorem does_removeOriginal :
    u.Does (fun v => u.Standing v label ∧ u.FoundHealthy v) (Update.docker (.removeContainer u.original))
      fun _ v => u.FoundHealthy v := by
  refine does_docker ?_ (fun _ is => is.2) (fun _ _ is => is.2) fun _ _ is => is.2
  intro w _ is
  exact kept_of_clean (fun _ => is.2) is.1.clean

/-- An attempt fails with the original restored, or says what it failed to roll back. -/
theorem does_replaceContainer :
    u.Does u.Ready (replaceContainer u.input) (Program.onResult (fun _ _ => True) fun failure v =>
      v.Clean ∧ (failure.rollbackFailures = [] → u.Ready v)) := by
  refine does_onPhase (fun v is => is.clean)
    (fun v is => ⟨is.restored.noted, clean_noted is.clean (by simp), is.since⟩) ?_
  refine (does_updateOperation (fun reply v => u.Ready v ∧ ∀ found, reply = .ok found →
      u.Tells v (.name u.input.targetContainer) found) (does_inspect u.Ready) ?_ ?_).andThen (fun current => ?_)
      fun _ v _ is => ⟨is.1.clean, fun _ => is.1⟩
  · exact fun found v is => ⟨is.1, fun other same => is.2.1 other (congrArg Except.ok (Except.ok.inj same))⟩
  · exact fun cause reason v is => ⟨is.1, by simp⟩
  -- the container that has the name is the original
  by_cases original : current.1 = u.original ∧ current.2.image = u.container.image ∧
      (u.container.running = true → current.2.running = true)
  · refine Program.Meets.from u.Ready ?_ fun v _ is => is.1
    refine (does_updateOperation (fun _ => u.Ready) (does_quiet rfl fun w is => is) (fun _ _ is => is)
      fun _ _ _ is => is).andThen (fun _ => ?_) fun _ v _ is => ⟨is.clean, fun _ => is⟩
    · split
      · exact done fun v _ is => ⟨is.clean, fun _ => is⟩
      · refine Program.Meets.call (fun label v => u.Standing v label) ?_ fun label => ?_
        · intro w reply w' kept is made
          cases made
          exact ⟨kept, is.standing reply⟩
        · refine does_forward.bind fun reply => ?_
          rcases reply with ⟨cause, replacementId⟩ | value
          · rw [original.1]
            refine (does_rollback original.2.1 original.2.2).bind fun failures => ?_
            refine done fun v _ is => ⟨is.1.clean, fun nothing => ?_⟩
            exact ⟨is.2 nothing, is.1.clean, is.1.since⟩
          · rw [original.1]
            refine does_onPhase (fun v is => is.1.clean) (fun v is => ⟨is.1.noted (by simp), is.2.noted⟩) ?_
            exact does_removeOriginal.bind fun _ => done fun v _ _ => trivial
  · intro w kept is
    rcases is with ⟨ready, tells⟩
    have told := tells current rfl
    rcases ready.restored.named with ⟨c, there, named⟩
    have same : u.original = current.1 := told.2 u.original c there named
    rcases told.1 with ⟨seen, there', is⟩
    rw [← same] at there' is
    have whole := is.2.2.2 rfl
    subst whole
    refine absurd ⟨same.symm, ?_, fun runs => ?_⟩ original
    · rcases ready.restored.there with ⟨c', there'', image⟩
      rw [there'] at there''
      rw [Option.some.inj there'', image]
    · rcases ready.restored.runs runs with ⟨c', there'', running⟩
      rw [there'] at there''
      rw [Option.some.inj there'', running]

theorem does_noteFailed {failure : UpdateError} :
    u.Does (fun v => v.Clean ∧ (failure.rollbackFailures = [] → u.Ready v))
      (Update.note (.failed failure.rollbackFailures)) fun _ v =>
        (failure.rollbackFailures = [] → u.Ready v) := by
  refine does_note _ fun v kept is => ⟨?_, fun nothing => ?_⟩
  · refine ⟨fun gone => (kept.gone gone).noted, fun before after failures split some' member => ?_⟩
    -- what has been noted before is clean, so that the split is at the end
    rcases eq_nil_or_concat after with rfl | ⟨most, last, rfl⟩
    · exact not_mem_nil member
    have split' : v.log ++ [.failed failure.rollbackFailures] = (before ++ .failed failures :: most) ++ [last] := by
      rw [show v.log ++ [.failed failure.rollbackFailures] = before ++ .failed failures :: most.concat last from split]
      simp
    have within := (append_inj_left' split' rfl)
    have noted : UpdateNote.failed failures ∈ v.log := by
      rw [within]
      exact mem_append_right _ mem_cons_self
    exact some' (is.1 failures noted)
  · have ready := is.2 nothing
    refine ⟨ready.restored.noted, clean_noted ready.clean fun failures same => ?_, ready.since⟩
    rw [← UpdateNote.failed.inj same]
    exact nothing

theorem does_retry (times : Nat) :
    u.Does u.Ready (retryContainerReplacement (replaceContainer u.input) times) fun reply v =>
      ∀ failure, reply = .error failure → failure.rollbackFailures = [] → u.Restored v := by
  induction times with
  | zero =>
    refine does_replaceContainer.bind fun reply => ?_
    cases reply with
    | ok value => exact done fun v _ _ => by simp
    | error failure =>
      refine does_noteFailed.bind fun _ => done fun v _ is other same nothing => ?_
      cases same
      exact (is nothing).restored
  | succ times ih =>
    refine does_replaceContainer.bind fun reply => ?_
    cases reply with
    | ok value => exact done fun v _ _ => by simp
    | error failure =>
      refine does_noteFailed.bind fun _ => ?_
      split
      · rename_i nothing
        exact ih.weaken (fun v is => is nothing) fun _ _ _ is => is
      · rename_i some'
        refine done fun v _ is other same nothing => ?_
        cases same
        exact absurd nothing some'

end UpdateStart

/-- What an update must not do, at a point of its run: remove the original before a replacement under its name was found
healthy, fail without failures of the rollback and not have restored it, or go on after such failures. -/
structure NeverStrands (d : Docker) (input : ReplaceInput) (original : Nat) (container : UpdateContainer)
    (point : Update (Except UpdateError Unit) × UpdateSite) : Prop where
  removed : point.2.docker.get original = none →
    ∃ id c, UpdateNote.healthy id c ∈ point.2.log ∧ d.created ≤ id ∧ c.name = input.targetContainer
  restored : ∀ failure, point.1 = .done (.error failure) → failure.rollbackFailures = [] →
    (∃ c, point.2.docker.get original = some c ∧ c.name = input.targetContainer ∧
      (container.running = true → c.running = true)) ∧
    (∀ id c, point.2.docker.get id = some c → id < d.created) ∧
    (point.2.docker.tags input.targetReference = some container.image ∨
      point.2.docker.tags input.targetReference = d.tags input.targetReference)
  attempts : ∀ before after failures, point.2.log = before ++ .failed failures :: after → failures ≠ [] →
    UpdateNote.phase "replace.inspectContainer" ∉ after

/-- Whatever calls fail, before Docker applied them or after, and wherever an update is. -/
theorem replacement_never_strands (d : Docker) (input : ReplaceInput) {original : Nat} {container : UpdateContainer}
    (there : d.find (.name input.targetContainer) = some (original, container))
    (point : Update (Except UpdateError Unit) × UpdateSite)
    (reached : (Program.runs (updateWorld original)
      (retryContainerReplacement (replaceContainer input) 2) { docker := d }).Reachable point) :
    NeverStrands d input original container point := by
  rcases Docker.find_name.mp there with ⟨got, named⟩
  let u : UpdateStart := ⟨input, original, container, d.created, d.tags input.targetReference, d.fresh original container got⟩
  let v : UpdateView := UpdateSite.view original { docker := d }
  have seen : v.containers original = some container := by
    simp only [v, UpdateSite.view, if_true, got]
  have clean : v.Clean := fun failures member => absurd member not_mem_nil
  have ready : u.Ready v := by
    refine ⟨⟨⟨container, seen, rfl⟩, ⟨container, seen, named⟩, fun runs => ⟨container, seen, runs⟩, ?_, .inr rfl⟩,
      clean, Nat.le_refl _⟩
    intro id c there
    rcases UpdateSite.get_of_view there with ⟨c', there', -⟩
    exact d.fresh id c' there'
  have kept : u.Kept v := UpdateStart.kept_of_clean
    (fun gone => absurd (gone.symm.trans seen) (Option.some_ne_none _).symm) clean
  have safe := Program.safe_of_reachable (UpdateStart.does_retry 2 { docker := d } kept ready) reached
  have holds := safe.holds
  refine ⟨fun gone => ?_, fun failure failed nothing => ?_, holds.attempts⟩
  · exact holds.gone (UpdateSite.view_none.mpr gone)
  rw [failed] at safe
  have restored : u.Restored (point.2.view original) := Program.Safe.returned safe failure rfl nothing
  refine ⟨?_, fun id c there => ?_, restored.reference⟩
  · rcases restored.named with ⟨c, there, named⟩
    have still : point.2.docker.get original = some c :=
      (if_pos rfl : (point.2.view original).containers original = point.2.docker.get original).symm.trans there
    refine ⟨c, still, named, fun ran => ?_⟩
    rcases restored.runs ran with ⟨c', there', running⟩
    rw [there] at there'
    rw [Option.some.inj there', running]
  · rcases UpdateSite.view_of_get original there with ⟨seen, there', -⟩
    exact restored.noneLeft id seen there'

/-! A Hearth that runs from a channel, and an update of it whose rename loses its answer. -/

def runningHearth : UpdateContainer where
  name := "hearth"
  image := "sha256:old"
  running := true
  health := some .healthy
  networkMode := some "kiln"
  networks := ["kiln", "edge"]
  operation := none

def hearthDocker : Docker where
  containers := ⟨[(0, runningHearth)], nodup_singleton _⟩
  tags reference := if reference = "hearth:latest" then some "sha256:old" else none
  created := 1
  distinct := by
    intro i j c d there there' _
    simp only [OrderedMap.get, OrderedMap.lookup, ite_none_right_eq_some] at there there'
    exact there.1.symm.trans there'.1
  fresh := by
    intro i c there
    simp only [OrderedMap.get, OrderedMap.lookup, ite_none_right_eq_some] at there
    rw [← there.1]
    exact Nat.one_pos

def hearthReplacement : ReplaceInput where
  backupName := "hearth-kiln-backup-1"
  targetContainer := "hearth"
  targetImage := "sha256:new"
  targetReference := "hearth:latest"

/-- A call that is answered. -/
def answered (w : UpdateSite) : (i : UpdateCall) → i.answer × UpdateSite
  | .docker call => ((w.docker.apply call).1, w.applied call)
  | .now => (0, w)
  | .randomLabel => ("a", w)
  | .note entry => ((), { w with log := w.log ++ [entry] })

/-- A Docker call whose answer is lost, once it was applied or not. -/
def lost (applied : Bool) (w : UpdateSite) : (i : UpdateCall) → i.answer × UpdateSite
  | .docker call => (.error ⟨false, "socket hang up"⟩, if applied then w.applied call else w)
  | call => answered w call

theorem answers_answered (w : UpdateSite) (i : UpdateCall) : w.Answers i (answered w i).1 (answered w i).2 := by
  cases i <;> constructor

theorem answers_lost (applied : Bool) (w : UpdateSite) (i : UpdateCall) :
    w.Answers i (lost applied w i).1 (lost applied w i).2 := by
  cases i <;> cases applied <;> constructor

/-- The rename's answer is lost at the first attempt, and then Docker doesn't answer. -/
def renameLost : List (UpdateSite → (i : UpdateCall) → i.answer × UpdateSite) :=
  replicate 9 answered ++ [lost true] ++ replicate 10 answered ++ [lost false] ++
    replicate 2 answered ++ [lost false] ++ replicate 1 answered

/-- The program has failed with nothing that it failed to roll back. -/
def failedCleanly : Update (Except UpdateError Unit) → Bool
  | .done (.error failure) => failure.rollbackFailures.isEmpty
  | _ => false

/-- How the update ends. -/
def renameLostEnds : Update (Except UpdateError Unit) × UpdateSite :=
  Program.play (retryContainerReplacement (replaceContainer hearthReplacement) 2)
    { docker := hearthDocker } renameLost

theorem replacement_never_strands_renameLost :
    failedCleanly renameLostEnds.1 = true ∧ NeverStrands hearthDocker hearthReplacement 0 runningHearth renameLostEnds := by
  refine ⟨by decide, replacement_never_strands hearthDocker hearthReplacement rfl _ ?_⟩
  refine Program.reachable_of_play fun outcome member => ?_
  have kind : outcome = answered ∨ ∃ applied, outcome = lost applied := by
    simp only [renameLost, mem_append, mem_replicate, mem_singleton] at member
    rcases member with (((((⟨-, is⟩ | is) | ⟨-, is⟩) | is) | ⟨-, is⟩) | is) | ⟨-, is⟩
    all_goals first | exact .inl is | exact .inr ⟨_, is⟩
  rcases kind with rfl | ⟨applied, rfl⟩
  · exact answers_answered
  · exact answers_lost applied

end Kiln.Relay
