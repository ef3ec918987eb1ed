import Kiln.Lib.Decimal
import Kiln.Relay.ContainerUpdatesSafe
import Kiln.Relay.UpdateCleanup

/-!
# What cleanup removes is spare

A helper's program gives containers no names but its target's and that name set aside, makes nothing
while nothing has its target's name, and succeeds only once a replacement was found healthy. An update that
has succeeded has therefore found one, and one that has failed in order leaves nothing under the name that
a pass could take for a replacement.
-/

namespace Kiln.Relay
open Kiln.Lib OrderedMap Docker Program List Function

/-! ## Names -/

theorem splitDigits_backupName (name : String) (now : Nat) : splitDigits (backupName name now) =
      (now.repr.toList.reverse, "-kiln-backup-".toList.reverse ++ name.toList.reverse) := by
  have digits : ∀ c ∈ now.repr.toList.reverse, c.isDigit = true := fun c member =>
    repr_digits now c (mem_reverse.mp member)
  have dash : "-kiln-backup-".toList.reverse ++ name.toList.reverse =
      '-' :: ("-kiln-backup".toList.reverse ++ name.toList.reverse) := rfl
  rw [splitDigits, span_eq_takeWhile_dropWhile]
  simp only [backupName, String.toList_append, reverse_append]
  rw [takeWhile_append_of_pos digits, dropWhile_append_of_pos digits, dash]
  simp

theorem originalName_backupName {name original : String} {now : Nat}
    (is : originalName (backupName name now) = some original) : original = name := by
  have dropped : (drop 13 ("-kiln-backup-".toList.reverse ++ name.toList.reverse)).reverse = name.toList := by
    rw [drop_left' (by decide), reverse_reverse]
  simp only [originalName, splitDigits_backupName, dropped] at is
  split at is
  · rw [← Option.some.inj is, String.ofList_toList]
  · cases is

/-! ## What a helper's program calls -/

/-- A call gives no container a name but the target's, or that name set aside. -/
def NamesOnly (targetContainer : String) : UpdateCall → Prop
  | .docker (.renameContainer _ name) => name = targetContainer ∨ ∃ now, name = backupName targetContainer now
  | .docker (.createContainer name _) => name = targetContainer
  | _ => True

/-- A call makes no container, and gives none a name. -/
def NamesNothing : UpdateCall → Prop
  | .docker (.renameContainer _ _) | .docker (.createContainer _ _) => False
  | _ => True

/-- What may be answered while no container has the name. -/
def AnswersVacant (name : String) : (i : UpdateCall) → i.answer → Prop
  | .docker (.inspectContainer (.name other)), reply => other = name → ∃ cause, reply = .error cause
  | _, _ => True

namespace Update

/-- A program whose calls name only the target. -/
abbrev Names {α : Type} (targetContainer : String) (program : Update α) : Prop :=
  Only (NamesOnly targetContainer) (fun _ _ => True) (fun _ => True) program

variable {α : Type} {name : String}

theorem names_docker {call : DockerCall} (names : NamesOnly name (.docker call)) : Names name (docker call) :=
  ⟨names, fun _ _ => trivial⟩

variable {phase : String}

theorem names_onPhase {next : Update α} (names : Names name next) :
    Names name (onPhase phase next) :=
  ⟨trivial, fun _ _ => names⟩

variable {operation : Update (Except CallError α)}

theorem names_updateOperation (names : Names name operation) : Names name (updateOperation phase operation) :=
  names.bind fun reply _ => by cases reply <;> trivial

theorem names_attempt (names : Names name operation) : Names name (attempt phase operation) :=
  (names_updateOperation names).bind fun reply _ => by cases reply <;> trivial

theorem names_inspectOptional {ref : ContainerRef} : Names name (inspectOptional ref) := by
  refine Only.bind (names_docker trivial) fun reply _ => ?_
  cases reply with
  | ok found => trivial
  | error cause =>
    dsimp only
    split <;> trivial

theorem names_removeEach {ids : List Nat} : Names name (removeEach ids) := by
  induction ids with
  | nil => trivial
  | cons id rest ih =>
    refine Only.bind (names_attempt (Only.bind (names_docker trivial) fun reply _ => ?_))
      fun removed _ => ih.bind fun _ _ => trivial
    cases reply with
    | ok value => trivial
    | error cause =>
      refine Only.bind (names_docker trivial) fun reply _ => ?_
      cases reply with
      | ok found => trivial
      | error other =>
        dsimp only
        split <;> trivial

variable {replacementId : Option Nat} {currentId : Nat}

theorem names_removeReplacements {operation : String} :
    Names name (removeReplacements currentId operation replacementId) := by
  refine Only.bind (names_attempt (names_docker trivial)) fun labelled _ => ?_
  extract_lets replacements
  split
  · trivial
  · refine Only.bind (names_attempt names_inspectOptional) fun before _ => ?_
    rcases before with ⟨_ | _ | _, failures⟩
    · trivial
    · trivial
    · exact names_removeEach.bind fun _ _ => trivial

variable {input : ReplaceInput}

theorem names_restoreName {restored : UpdateContainer} :
    Names input.targetContainer (restoreName input currentId restored) := by
  unfold restoreName
  split
  · trivial
  refine Only.bind (names_attempt names_inspectOptional) fun holder _ => ?_
  rcases holder with ⟨_ | _ | _, failures⟩
  · trivial
  · refine Only.bind (names_docker (.inl rfl)) fun _ _ => ?_
    refine Only.bind (names_attempt (names_docker trivial)) fun renamed _ => ?_
    rcases renamed with ⟨_ | _, failures'⟩
    · trivial
    · dsimp only
      split <;> trivial
  · trivial

theorem names_restartOriginal : Names name (restartOriginal currentId) := by
  refine Only.bind (names_docker trivial) fun _ _ => ?_
  refine Only.bind (names_attempt (names_docker trivial)) fun started _ => ?_
  rcases started with ⟨_ | _, failures'⟩
  · trivial
  · dsimp only
    split <;> trivial

variable {current : UpdateContainer}

theorem names_restoreOriginal :
    Names input.targetContainer (restoreOriginal input currentId current) := by
  refine Only.bind (names_attempt names_inspectOptional) fun restored _ => ?_
  rcases restored with ⟨_ | _ | found, failures⟩
  · trivial
  · trivial
  · refine names_restoreName.bind fun owns _ => ?_
    dsimp only
    split
    · exact names_restartOriginal.bind fun _ _ => trivial
    · trivial

theorem names_rollback {operation : String} :
    Names input.targetContainer (rollbackContainerReplacement input currentId current operation replacementId) := by
  refine names_removeReplacements.bind fun _ _ => names_restoreOriginal.bind fun _ _ => ?_
  exact Only.bind (names_attempt (names_docker trivial)) fun _ _ => trivial

theorem names_waitRounds {container : ContainerRef} {deadline rounds runningSince : Nat} :
    Names name (waitRounds container deadline rounds runningSince) := by
  induction rounds generalizing runningSince with
  | zero => trivial
  | succ rounds ih =>
    refine ⟨trivial, fun now _ => ?_⟩
    beta_reduce
    by_cases late : deadline ≤ now
    · rw [if_pos late]
      trivial
    rw [if_neg late]
    refine Only.andThen (names_docker trivial) (fun current _ => ?_) fun _ _ => trivial
    split
    · trivial
    split
    · exact ⟨trivial, fun _ _ => trivial⟩
    · trivial
    · exact ih
    refine ⟨trivial, fun now _ => ?_⟩
    beta_reduce
    extract_lets since
    refine ⟨trivial, fun now' _ => ?_⟩
    beta_reduce
    split
    · exact ⟨trivial, fun _ _ => trivial⟩
    · exact ih

theorem names_startReplacement {others : List String} :
    Names input.targetContainer (startReplacement input others) := by
  refine Only.andThen (Only.forEach fun network => names_updateOperation (names_docker trivial))
    (fun _ _ => names_onPhase ?_) fun _ _ => trivial
  refine Only.andThen (names_updateOperation (names_docker trivial)) (fun _ _ => names_onPhase ?_) fun _ _ => trivial
  exact names_updateOperation ⟨trivial, fun _ _ => names_waitRounds⟩

theorem names_knowing {program : Update (Except UpdateError α)} (names : Names name program) :
    Names name (knowing replacementId program) :=
  names.bind fun reply _ => by cases reply <;> trivial

theorem names_forward {primary operation : String}
    (backup : ∃ now, input.backupName = backupName input.targetContainer now) :
    Names input.targetContainer (forward input current primary operation) := by
  refine names_onPhase (Only.andThen (names_knowing (names_updateOperation (names_docker trivial)))
    (fun _ _ => ?_) fun _ _ => trivial)
  refine names_onPhase (Only.andThen (names_knowing (names_updateOperation (names_docker trivial)))
    (fun _ _ => ?_) fun _ _ => trivial)
  refine names_onPhase (Only.andThen (names_knowing (names_updateOperation (names_docker (.inr backup))))
    (fun _ _ => ?_) fun _ _ => trivial)
  refine names_onPhase (Only.andThen (names_knowing (names_updateOperation (names_docker rfl)))
    (fun _ _ => ?_) fun _ _ => trivial)
  have connecting : Names input.targetContainer
      (if 1 < current.networks.length then note (.phase "replace.connectNetwork") else .done ()) := by
    split
    · exact ⟨trivial, fun _ _ => trivial⟩
    · trivial
  exact connecting.bind fun _ _ => names_knowing names_startReplacement

theorem names_replaceContainer (backup : ∃ now, input.backupName = backupName input.targetContainer now) :
    Names input.targetContainer (replaceContainer input) := by
  refine names_onPhase (Only.andThen (names_updateOperation (names_docker trivial)) (fun current _ => ?_)
    fun _ _ => trivial)
  refine Only.andThen (names_updateOperation (names_docker trivial)) (fun _ _ => ?_) fun _ _ => trivial
  split
  · trivial
  · refine ⟨trivial, fun operation _ => (names_forward backup).bind fun reply _ => ?_⟩
    rcases reply with ⟨cause, replacementId⟩ | value
    · exact names_rollback.bind fun _ _ => trivial
    · exact names_onPhase (Only.bind (names_docker trivial) fun _ _ => trivial)

variable {replacement : Update (Except UpdateError Unit)}

theorem names_retry (names : Names name replacement) (times : Nat) :
    Names name (retryContainerReplacement replacement times) := by
  induction times with
  | zero =>
    refine names.bind fun reply _ => ?_
    cases reply with
    | ok value => trivial
    | error failure => exact ⟨trivial, fun _ _ => trivial⟩
  | succ times ih =>
    refine names.bind fun reply _ => ?_
    cases reply with
    | ok value => trivial
    | error failure =>
      refine ⟨trivial, fun _ _ => ?_⟩
      dsimp only [Program.bind]
      split
      · exact ih
      · trivial

/-- An operation's program gives no container a name but its target's, or that name set aside. -/
theorem names_runOperation (record : UpdateOperation) (now : Nat) :
    Names record.targetContainer (UpdatesState.runOperation record now) :=
  names_retry (names_replaceContainer ⟨now, rfl⟩) 2

/-- A program that makes nothing as long as no container has the name. -/
abbrev Idle (name : String) (program : Update (Except UpdateError Unit)) : Prop :=
  Only NamesNothing (AnswersVacant name) (fun _ => True) program

theorem idle_retry (idle : Idle name replacement) (times : Nat) :
    Idle name (retryContainerReplacement replacement times) := by
  induction times with
  | zero =>
    refine idle.bind fun reply _ => ?_
    cases reply with
    | ok value => trivial
    | error failure => exact ⟨trivial, fun _ _ => trivial⟩
  | succ times ih =>
    refine idle.bind fun reply _ => ?_
    cases reply with
    | ok value => trivial
    | error failure =>
      refine ⟨trivial, fun _ _ => ?_⟩
      dsimp only [Program.bind]
      split
      · exact ih
      · trivial

theorem idle_replaceContainer (input : ReplaceInput) : Idle input.targetContainer (replaceContainer input) := by
  refine ⟨trivial, fun _ _ => ⟨trivial, fun reply may => ?_⟩⟩
  rcases may rfl with ⟨cause, rfl⟩
  trivial

/-- While no container has its target's name, an operation's program finds nothing to replace. -/
theorem idle_runOperation (record : UpdateOperation) (now : Nat) :
    Idle record.targetContainer (UpdatesState.runOperation record now) :=
  idle_retry (idle_replaceContainer { targetContainer := record.targetContainer, .. }) 2

/-! ## What a success says -/

/-- A container of that name was found healthy. -/
def Found (name : String) (log : List UpdateNote) : Prop :=
  ∃ id c, UpdateNote.healthy id c ∈ log ∧ c.name = name

/-- What an operation's program leaves in the log. -/
abbrev Logs (pre : List UpdateNote → Prop) (program : Update α) (post : α → List UpdateNote → Prop) : Prop :=
  Meets UpdateSite.log UpdateSite.Answers (fun _ => True) pre program post

/-- A step that succeeds leaves the container found healthy. -/
abbrev FindsOk (name : String) {ε : Type} (program : Update (Except ε α)) : Prop :=
  Logs (fun _ => True) program (onResult (fun _ => Found name) fun _ _ => True)

theorem logs_any (program : Update α) : Logs (fun _ => True) program fun _ _ => True := by
  induction program with
  | done value => exact Meets.done fun _ _ _ => trivial
  | call i rest ih => exact Meets.call (fun _ _ => True) (fun _ _ _ _ _ _ => ⟨trivial, trivial⟩) ih

theorem findsOk_of_last {ε β : Type} {program : Update (Except ε β)} {next : β → Update (Except ε α)}
    (last : ∀ value, FindsOk name (next value)) : FindsOk name (program.andThen next) :=
  (logs_any program).andThen last fun _ _ _ _ => trivial

theorem findsOk_onPhase {ε : Type} {next : Update (Except ε α)} (finds : FindsOk name next) :
    FindsOk name (onPhase phase next) :=
  (logs_any (note (.phase phase))).bind fun _ => finds

theorem findsOk_updateOperation (finds : FindsOk name operation) :
    FindsOk name (updateOperation phase operation) := by
  refine finds.bind fun reply => ?_
  cases reply with
  | ok value => exact Meets.done fun _ _ is => is
  | error cause => exact Meets.done fun _ _ _ => trivial

theorem findsOk_knowing {program : Update (Except UpdateError α)} (finds : FindsOk name program) :
    FindsOk name (knowing replacementId program) := by
  refine finds.bind fun reply => ?_
  cases reply with
  | ok value => exact Meets.done fun _ _ is => is
  | error cause => exact Meets.done fun _ _ _ => trivial

theorem logs_inspect : Logs (fun _ => True) (docker (.inspectContainer (.name name)))
    (onResult (fun found _ => found.2.name = name) fun _ _ => True) := by
  refine Meets.call (onResult (fun found _ => found.2.name = name) fun _ _ => True) ?_
    fun reply => Meets.done fun _ _ is => is
  intro w reply w' _ _ made
  refine ⟨trivial, ?_⟩
  cases made with
  | applied =>
    cases there : w.docker.find (.name name) with
    | none =>
      simp only [apply, there]
      trivial
    | some found =>
      simp only [apply, there]
      exact (find_name.mp there).2
  | failedBefore => trivial
  | failedAfter => trivial

theorem findsOk_waitRounds {deadline rounds runningSince : Nat} :
    FindsOk name (waitRounds (.name name) deadline rounds runningSince) := by
  induction rounds generalizing runningSince with
  | zero => exact Meets.done fun _ _ _ => trivial
  | succ rounds ih =>
    have clock : ∀ {next : Nat → Update (Except CallError Unit)} {pre : List UpdateNote → Prop},
        (∀ now, Logs pre (next now) (onResult (fun _ => Found name) fun _ _ => True)) →
          Logs pre (.call .now next) (onResult (fun _ => Found name) fun _ _ => True) := by
      intro next pre finds
      refine Meets.call (fun _ => pre) ?_ finds
      intro w reply w' _ is made
      cases made
      exact ⟨trivial, is⟩
    have noted : ∀ found : Nat × UpdateContainer, found.2.name = name →
        FindsOk name ((note (.healthy found.1 found.2)).bind fun _ => .done (.ok () : Except CallError Unit)) := by
      intro found named
      refine Meets.bind (Meets.call (fun _ => Found name) ?_ fun _ => Meets.done
        fun _ _ is => is) fun _ => Meets.done fun _ _ is => is
      intro w reply w' _ _ made
      cases made
      exact ⟨trivial, found.1, found.2, mem_append_right _ (mem_singleton.mpr rfl), named⟩
    refine clock fun now => ?_
    split
    · exact Meets.done fun _ _ _ => trivial
    refine logs_inspect.andThen (fun found => ?_) fun _ _ _ _ => trivial
    by_cases named : found.2.name = name
    · refine Meets.from (fun _ => True) ?_ fun _ _ _ => trivial
      split
      · exact Meets.done fun _ _ _ => trivial
      split
      · exact noted found named
      · exact Meets.done fun _ _ _ => trivial
      · exact ih
      · refine clock fun now => ?_
        extract_lets since
        refine clock fun now' => ?_
        split
        · exact noted found named
        · exact ih
    · exact fun w _ is => absurd is named

theorem findsOk_forward {primary operation : String} :
    FindsOk input.targetContainer (forward input current primary operation) := by
  refine findsOk_onPhase (findsOk_of_last fun _ => findsOk_onPhase (findsOk_of_last fun _ => ?_))
  refine findsOk_onPhase (findsOk_of_last fun _ => findsOk_onPhase (findsOk_of_last fun _ => ?_))
  refine (logs_any _).bind fun _ => findsOk_knowing (findsOk_of_last fun _ => findsOk_onPhase ?_)
  refine findsOk_of_last fun _ => findsOk_onPhase (findsOk_updateOperation ?_)
  refine Meets.call (fun _ _ => True) (fun _ _ _ _ _ _ => ⟨trivial, trivial⟩) fun now => ?_
  exact findsOk_waitRounds

theorem findsOk_replaceContainer (input : ReplaceInput) :
    FindsOk input.targetContainer (replaceContainer input) := by
  refine findsOk_onPhase (findsOk_of_last fun current => findsOk_of_last fun _ => ?_)
  split
  · exact Meets.done fun _ _ _ => trivial
  refine Meets.call (fun _ _ => True) (fun _ _ _ _ _ _ => ⟨trivial, trivial⟩) fun operation => ?_
  refine findsOk_forward.bind fun reply => ?_
  rcases reply with ⟨cause, replacementId⟩ | value
  · exact (logs_any _).bind fun failures => Meets.done fun _ _ _ => trivial
  -- what was found stays found
  have stays : Logs (Found input.targetContainer) (docker (.removeContainer current.1))
      fun _ => Found input.targetContainer := by
    refine Meets.call (fun _ => Found input.targetContainer) ?_ fun _ => Meets.done fun _ _ is => is
    intro w reply w' _ is made
    cases made <;> exact ⟨trivial, is⟩
  have phase : Logs (Found input.targetContainer) (note (.phase "replace.removeBackup"))
      fun _ => Found input.targetContainer := by
    refine Meets.call (fun _ => Found input.targetContainer) ?_ fun _ => Meets.done fun _ _ is => is
    intro w reply w' _ is made
    cases made
    rcases is with ⟨id, c, member, named⟩
    exact ⟨trivial, id, c, mem_append_left _ member, named⟩
  exact phase.bind fun _ => stays.bind fun _ => Meets.done fun _ _ is => is

theorem findsOk_retry (finds : FindsOk name replacement) (times : Nat) :
    FindsOk name (retryContainerReplacement replacement times) := by
  induction times with
  | zero =>
    refine finds.bind fun reply => ?_
    cases reply with
    | ok value => exact Meets.done fun _ _ is => is
    | error failure => exact (logs_any _).bind fun _ => Meets.done fun _ _ _ => trivial
  | succ times ih =>
    refine finds.bind fun reply => ?_
    cases reply with
    | ok value => exact Meets.done fun _ _ is => is
    | error failure =>
      refine (logs_any _).bind fun _ => ?_
      split
      · exact ih
      · exact Meets.done fun _ _ _ => trivial

/-- An operation's program succeeds only once a container of its target's name was found healthy. -/
theorem findsOk_runOperation (record : UpdateOperation) (now : Nat) :
    FindsOk record.targetContainer (UpdatesState.runOperation record now) :=
  findsOk_retry (findsOk_replaceContainer { targetContainer := record.targetContainer, .. }) 2

end Update

/-! ## What a call leaves of the names -/

namespace Docker

variable {d : Docker} {name : String}

/-- No container has the name. -/
def Vacant (d : Docker) (name : String) : Prop := ∀ id c, d.get id = some c → c.name ≠ name

theorem vacant_iff : d.find (.name name) = none ↔ d.Vacant name := find_name_none

/-- Two hosts with the same containers under the same names. -/
def SameNames (d d' : Docker) : Prop :=
  ∀ id, (d'.get id).map UpdateContainer.name = (d.get id).map UpdateContainer.name

theorem SameNames.back {d' : Docker} (same : SameNames d d') {id : Nat} {c : UpdateContainer}
    (there : d'.get id = some c) : ∃ c', d.get id = some c' ∧ c'.name = c.name := by
  have eq := same id
  rw [there, Option.map_some] at eq
  exact Option.map_eq_some_iff.mp eq.symm

theorem SameNames.vacant {d' : Docker} (same : SameNames d d') (vacant : d.Vacant name) : d'.Vacant name := by
  intro id c there
  rcases same.back there with ⟨c', there', is⟩
  rw [← is]
  exact vacant id c' there'

theorem sameNames_apply {call : DockerCall} (keeps : call.keepsNames = true) : SameNames d (d.apply call).2 := by
  have gentle : call.gentle = true := by
    cases call <;> first | rfl | exact keeps
  exact (d.apply_gentle call UpdateContainer.name gentle (fun _ _ => rfl) (fun _ _ => rfl) (.inl keeps)).2

theorem Vacant.apply {call : DockerCall} (vacant : d.Vacant name)
    (renames : ∀ ref other, call = .renameContainer ref other → other ≠ name)
    (creates : ∀ other body, call = .createContainer other body → other ≠ name) : (d.apply call).2.Vacant name := by
  intro id c there
  cases call with
  | renameContainer ref other =>
    rcases rename_cases d ref other with ⟨e, refused⟩ | ⟨found, c', is, -, -, gets⟩
    · simp only [Docker.apply, refused] at there
      exact vacant id c there
    · simp only [Docker.apply, gets] at there
      split at there
      · rw [← Option.some.inj there]
        exact renames ref other rfl
      · exact vacant id c there
  | createContainer other body =>
    rcases create_cases (d := d) other body with ⟨e, refused⟩ | ⟨-, -, -, made, named, -, gets⟩
    · simp only [Docker.apply, refused] at there
      exact vacant id c there
    · simp only [Docker.apply, gets] at there
      split at there
      · rw [← Option.some.inj there, named]
        exact creates other body rfl
      · exact vacant id c there
  | removeContainer other =>
    simp only [Docker.apply, get_remove] at there
    split at there
    · cases there
    · exact vacant id c there
  | _ => exact (sameNames_apply rfl).vacant vacant id c there

end Docker

/-! ## Sets aside -/

namespace UpdatesState

variable {s s' : UpdatesState} {operation container : Nat} {call : DockerCall}

theorem setsAside_cases {by_ : Nat} {c : UpdateContainer} (aside : s.setsAside operation call container = some by_)
    (there : (s.docker.apply call).2.get container = some c) :
    (by_ = operation ∧ ∃ ref, call = .renameContainer ref c.name ∧ s.isTarget operation c.name = false) ∨
      s.asideBy container = some by_ ∧ ∃ c', s.docker.get container = some c' ∧ c'.name = c.name := by
  cases call with
  | renameContainer ref name =>
    rcases Docker.rename_cases s.docker ref name with ⟨e, refused⟩ | ⟨id, found, is, answer, -, gets⟩
    · simp only [setsAside, apply, refused] at aside there
      exact .inr ⟨aside, c, there, rfl⟩
    simp only [apply, gets] at there
    simp only [setsAside, apply, answer, is] at aside
    by_cases same : id = container
    · rw [if_pos same] at there
      rw [if_pos same.symm] at aside
      rw [← Option.some.inj there]
      split at aside
      · cases aside
      · rename_i other
        exact .inl ⟨(Option.some.inj aside).symm, ref, rfl, Bool.eq_false_iff.mpr other⟩
    · rw [if_neg same] at there
      rw [if_neg (Ne.symm same)] at aside
      exact .inr ⟨aside, c, there, rfl⟩
  | createContainer name body =>
    rcases Docker.create_cases (d := s.docker) name body with ⟨e, refused⟩ | ⟨-, -, -, made, -, -, gets⟩
    · simp only [setsAside] at aside
      simp only [apply, refused] at there
      split at aside
      · cases aside
      · exact .inr ⟨aside, c, there, rfl⟩
    · simp only [setsAside] at aside
      simp only [apply, gets] at there
      split at aside
      · cases aside
      · rename_i other
        rw [if_neg (Ne.symm other)] at there
        exact .inr ⟨aside, c, there, rfl⟩
  | removeContainer id =>
    simp only [apply, Docker.get_remove] at there
    split at there
    · cases there
    · exact .inr ⟨aside, c, there, rfl⟩
  | _ => exact .inr ⟨aside, (Docker.sameNames_apply rfl).back there⟩

variable {i : UpdateCall}

theorem calls_cases {rest : i.answer → Update (Except UpdateError Unit)} {outcome : CallOutcome}
    (step : s.calls operation i rest outcome = some s') :
    ∃ reply w, (⟨s.docker, s.notes operation⟩ : UpdateSite).Answers i reply w ∧
      s'.docker = w.docker ∧ s'.notes = update s.notes operation w.log ∧
      s'.programs = update s.programs operation (some (rest reply)) ∧
      s'.records = s.records ∧ s'.helpers = s.helpers ∧ s'.pass = s.pass ∧
      (s'.asideBy = s.asideBy ∧ w.docker = s.docker ∨
        ∃ call, i = .docker call ∧ w.docker = (s.docker.apply call).2 ∧ s'.asideBy = s.setsAside operation call) := by
  unfold calls at step
  split at step
  · cases step
    exact ⟨_, _, .applied _, rfl, (update_eq_self _ _).symm, rfl, rfl, rfl, rfl, .inr ⟨_, rfl, rfl, rfl⟩⟩
  · cases step
    exact ⟨_, _, .failedBefore _ _, rfl, (update_eq_self _ _).symm, rfl, rfl, rfl, rfl, .inl ⟨rfl, rfl⟩⟩
  · cases step
    exact ⟨_, _, .failedAfter _ _, rfl, (update_eq_self _ _).symm, rfl, rfl, rfl, rfl, .inr ⟨_, rfl, rfl, rfl⟩⟩
  · cases step
    exact ⟨_, _, .now _, rfl, (update_eq_self _ _).symm, rfl, rfl, rfl, rfl, .inl ⟨rfl, rfl⟩⟩
  · cases step
    exact ⟨_, _, .randomLabel _, rfl, (update_eq_self _ _).symm, rfl, rfl, rfl, rfl, .inl ⟨rfl, rfl⟩⟩
  · cases step
    exact ⟨_, _, .note _, rfl, rfl, rfl, rfl, rfl, rfl, .inl ⟨rfl, rfl⟩⟩
  · cases step

/-! ## What holds in an orderly run -/

/-- An update that has failed has left a container of that name set aside. -/
def Abandoned (s : UpdatesState) (name : String) : Prop :=
  ∃ container by_ record, s.asideBy container = some by_ ∧ (s.docker.get container).isSome = true ∧
    s.records.get by_ = some record ∧ record.status = .failed ∧ record.targetContainer = name

/-- What an operation's program owes: that it succeeds only once its target was found healthy. -/
def Owes (s : UpdatesState) (operation : Nat) (name : String) (program : Update (Except UpdateError Unit)) : Prop :=
  Safe (World.ofView UpdateSite.log UpdateSite.Answers) (fun _ => True)
    (fun reply w => onResult (fun _ => Update.Found name) (fun _ _ => True) reply w.log) program
    ⟨s.docker, s.notes operation⟩

/-- What a pass that is under way may count on. -/
structure PassKept (s : UpdatesState) : Prop where
  reading : ∀ finished targets, s.pass = some (.read finished targets) → ∀ operation record,
    s.records.get operation = some record → record.status = .running → s.helpers.get record.batchId ≠ some false
  ended : ∀ leftovers, s.pass = some (.removing leftovers) → ∀ batchId, .helper batchId ∈ leftovers →
    ∀ operation record, s.records.get operation = some record → record.batchId = batchId → record.status ≠ .running
  spare : ∀ leftovers, s.pass = some (.removing leftovers) → ∀ container, .backup container ∈ leftovers →
    ∀ by_, s.asideBy container = some by_ → ∃ record, s.records.get by_ = some record ∧
      Update.Found record.targetContainer (s.notes by_)

structure Kept (s : UpdatesState) : Prop where
  one : ∀ a b first second, s.records.get a = some first → s.records.get b = some second →
    first.status = .running → second.status = .running → first.targetContainer = second.targetContainer → a = b
  active : ∀ operation program, s.programs operation = some program → ∃ record,
    s.records.get operation = some record ∧ record.status = .running ∧ s.helpers.get record.batchId = some true ∧
      Update.Names record.targetContainer program ∧ s.Owes operation record.targetContainer program
  healthy : ∀ operation record, s.records.get operation = some record → record.status = .succeeded →
    Update.Found record.targetContainer (s.notes operation)
  aside : ∀ container by_ c, s.asideBy container = some by_ → s.docker.get container = some c →
    ∃ record now, s.records.get by_ = some record ∧ c.name = backupName record.targetContainer now ∧
      (record.status = .running → s.helpers.get record.batchId ≠ none)
  vacant : ∀ name, s.Abandoned name → s.docker.Vacant name
  idle : ∀ name, s.Abandoned name → ∀ operation program record, s.programs operation = some program →
    s.records.get operation = some record → record.targetContainer = name → Update.Idle name program
  pass : s.PassKept

theorem kept_init (docker : Docker) : Kept { docker } where
  one := by simp
  active := by simp
  healthy := by simp
  aside := by simp
  vacant := by
    rintro name ⟨container, by_, record, aside, -⟩
    cases aside
  idle := by simp
  pass := ⟨by simp, by simp, by simp⟩

variable {record : UpdateOperation}

theorem record_iff : (operation, record) ∈ s.records.entries ↔ s.records.get operation = some record :=
  (lookup_eq_some s.records.nodup).symm

variable {name : String}

theorem isTarget_iff (there : s.records.get operation = some record) :
    s.isTarget operation name = true ↔ record.targetContainer = name := by
  simp [isTarget, there]

/-- A step of Docker that leaves the names, and may remove containers. -/
theorem Kept.of_docker {docker : Docker} (kept : s.Kept)
    (back : ∀ id c, docker.get id = some c → ∃ c', s.docker.get id = some c' ∧ c'.name = c.name) :
    Kept { s with docker } := by
  have abandoned : ∀ name, Abandoned { s with docker } name → s.Abandoned name := by
    rintro name ⟨container, by_, record, aside, there, rest⟩
    rcases Option.isSome_iff_exists.mp there with ⟨c, there⟩
    rcases back container c there with ⟨c', there', -⟩
    exact ⟨container, by_, record, aside, by rw [there']; rfl, rest⟩
  refine ⟨kept.one, fun operation program is => ?_, kept.healthy, fun container by_ c aside there => ?_,
    fun name is => ?_, fun name is => kept.idle name (abandoned name is), ?_⟩
  · rcases kept.active operation program is with ⟨record, there, running, works, names, owes⟩
    exact ⟨record, there, running, works, names, owes.moves rfl⟩
  · rcases back container c there with ⟨c', there', named⟩
    rw [← named]
    exact kept.aside container by_ c' aside there'
  · intro id c there
    rcases back id c there with ⟨c', there', named⟩
    rw [← named]
    exact kept.vacant name (abandoned name is) id c' there'
  · exact ⟨kept.pass.reading, kept.pass.ended, kept.pass.spare⟩

theorem Kept.of_fewer (kept : s.Kept) (docker : s'.docker = s.docker) (records : s'.records = s.records)
    (notes : s'.notes = s.notes) (asideBy : s'.asideBy = s.asideBy)
    (programs : ∀ operation program, s'.programs operation = some program → s.programs operation = some program)
    (works : ∀ operation program record, s'.programs operation = some program →
      s.records.get operation = some record → s.helpers.get record.batchId = some true →
        s'.helpers.get record.batchId = some true)
    (known : ∀ operation record, s.records.get operation = some record → record.status = .running →
      s.helpers.get record.batchId ≠ none → s'.helpers.get record.batchId ≠ none)
    (pass : s'.PassKept) : s'.Kept := by
  refine ⟨?_, fun operation program is => ?_, ?_, ?_, ?_, ?_, pass⟩
  · rw [records]
    exact kept.one
  · rcases kept.active operation program (programs operation program is) with ⟨record, there, running, helper, rest⟩
    simp only [Owes, records, docker, notes]
    exact ⟨record, there, running, works operation program record is there helper, rest⟩
  · rw [records, notes]
    exact kept.healthy
  · rw [asideBy, docker, records]
    intro container by_ c aside there
    rcases kept.aside container by_ c aside there with ⟨record, now, got, named, launched⟩
    exact ⟨record, now, got, named, fun running => known by_ record got running (launched running)⟩
  · simp only [Abandoned, asideBy, docker, records]
    exact kept.vacant
  · simp only [Abandoned, asideBy, docker, records]
    exact fun name is operation program record there => kept.idle name is operation program record
      (programs operation program there)

theorem setsAside_renamed {by_ : Nat} (aside : s.setsAside operation call container = some by_) :
    s.asideBy container = some by_ ∨
      ∃ ref name found, call = .renameContainer ref name ∧ s.docker.find ref = some found ∧ found.1 = container := by
  cases call with
  | renameContainer ref name =>
    simp only [setsAside] at aside
    split at aside
    · rename_i found _ is
      split at aside
      · rename_i same
        exact .inr ⟨ref, name, found, rfl, is, same.symm⟩
      · exact .inl aside
    · exact .inl aside
  | createContainer name body =>
    simp only [setsAside] at aside
    split at aside
    · cases aside
    · exact .inl aside
  | _ => exact .inl aside

/-- While nothing has the name, an inspection finds nothing under it. -/
theorem answersVacant {w w' : UpdateSite} {reply : i.answer} (vacant : w.docker.Vacant name)
    (answers : w.Answers i reply w') : AnswersVacant name i reply := by
  have refuses : ∀ {ref message}, AnswersVacant name (.docker (.inspectContainer ref)) (.error ⟨false, message⟩) := by
    intro ref message
    cases ref with
    | id id => trivial
    | name asked => exact fun _ => ⟨_, rfl⟩
  cases answers with
  | applied call =>
    cases call with
    | inspectContainer ref =>
      cases ref with
      | id id => trivial
      | name asked =>
        rintro rfl
        refine ⟨⟨true, "No such container"⟩, ?_⟩
        simp only [apply, Docker.vacant_iff.mpr vacant]
    | _ => trivial
  | failedBefore call message =>
    cases call with
    | inspectContainer ref => exact refuses
    | _ => trivial
  | failedAfter call message =>
    cases call with
    | inspectContainer ref => exact refuses
    | _ => trivial
  | now => trivial
  | randomLabel => trivial
  | note => trivial

theorem found_answers {w w' : UpdateSite} {reply : i.answer} (found : Update.Found name w.log)
    (answers : w.Answers i reply w') : Update.Found name w'.log := by
  cases answers with
  | note entry =>
    rcases found with ⟨id, c, member, named⟩
    exact ⟨id, c, mem_append_left _ member, named⟩
  | _ => exact found

/-- A call of a helper. -/
theorem Kept.answered {rest : i.answer → Update (Except UpdateError Unit)} {outcome : CallOutcome}
    (kept : s.Kept) (program : s.programs operation = some (.call i rest))
    (apart : s.renamesApart operation = true) (step : s.calls operation i rest outcome = some s') :
    s'.Kept := by
  rcases calls_cases step with ⟨reply, w, answers, docker, notes, programs, records, helpers, pass, aside⟩
  rcases kept.active operation _ program with ⟨record, there, running, works, names, owes⟩
  have naming : NamesOnly record.targetContainer i := names.1
  -- what is set aside was so before, or has just been by this operation
  have asides : ∀ container by_ c, s'.asideBy container = some by_ → s'.docker.get container = some c →
      by_ = operation ∧ (∃ now, c.name = backupName record.targetContainer now) ∨
        s.asideBy container = some by_ ∧ ∃ c', s.docker.get container = some c' ∧ c'.name = c.name := by
    intro container by_ c is there'
    rw [docker] at there'
    rcases aside with ⟨same, host⟩ | ⟨call, rfl, host, sets⟩
    · rw [same] at is
      rw [host] at there'
      exact .inr ⟨is, c, there', rfl⟩
    rw [sets] at is
    rw [host] at there'
    rcases setsAside_cases is there' with ⟨same, ref, rfl, other⟩ | before
    · refine .inl ⟨same, ?_⟩
      rcases naming with target | backup
      · rw [(isTarget_iff there).mpr target.symm] at other
        exact absurd other.symm Bool.false_ne_true
      · exact backup
    · exact .inr before
  have abandoned : ∀ name, s'.Abandoned name → s.Abandoned name := by
    rintro name ⟨container, by_, failed, is, some', got, status, target⟩
    rw [records] at got
    rcases Option.isSome_iff_exists.mp some' with ⟨c, there'⟩
    rcases asides container by_ c is there' with ⟨same, -⟩ | ⟨before, c', there'', -⟩
    · rw [same, there] at got
      rw [Option.some.inj got, status] at running
      cases running
    · exact ⟨container, by_, failed, before, by rw [there'']; rfl, got, status, target⟩
  -- what the program calls leaves an abandoned name vacant
  have vacant : ∀ name, s.Abandoned name → s'.docker.Vacant name := by
    intro name is
    have before := kept.vacant name is
    rw [docker]
    rcases aside with ⟨-, host⟩ | ⟨call, rfl, host, -⟩
    · rw [host]
      exact before
    rw [host]
    by_cases target : record.targetContainer = name
    · have idle := (kept.idle name is operation _ record program there target).1
      refine before.apply (fun ref other called => ?_) fun other body called => ?_
      · subst called
        exact idle.elim
      · subst called
        exact idle.elim
    refine before.apply (fun ref other called same => ?_) fun other body called same => ?_
    · subst called
      rcases is with ⟨container, by_, failed, -, -, got, -, named⟩
      simp only [renamesApart, program, Bool.and_eq_true, all_eq_true] at apart
      have free := apart.1 (by_, failed) (record_iff.mpr got)
      simp only [Bool.or_eq_true, decide_eq_true_eq] at free
      rcases free with own | free
      · rw [isTarget_iff there, named] at own
        exact target own
      · exact free (named.trans same.symm)
    · subst called
      exact target (naming.symm.trans same)
  refine ⟨?_, fun other p is => ?_, fun other found got status => ?_, fun container by_ c is there' => ?_,
    fun name is => vacant name (abandoned name is), fun name is other p found at_ got target => ?_, ?_, ?_, ?_⟩
  · rw [records]
    exact kept.one
  · rw [programs] at is
    by_cases same : other = operation
    · rw [same, update_self] at is
      cases is
      refine ⟨record, by rw [records, same]; exact there, running, by rw [helpers]; exact works,
        names.2 reply trivial, ?_⟩
      have after := (owes _ rfl).2 reply w answers
      rw [Owes, docker, notes, same, update_self]
      exact after
    · rw [update_of_ne same] at is
      rcases kept.active other p is with ⟨found, got, running', works', names', owes'⟩
      refine ⟨found, by rw [records]; exact got, running', by rw [helpers]; exact works', names', ?_⟩
      rw [Owes, notes, update_of_ne same]
      exact owes'.moves rfl
  · rw [records] at got
    have before := kept.healthy other found got status
    have other' : other ≠ operation := fun same => by
      rw [same, there] at got
      rw [Option.some.inj got, status] at running
      cases running
    rw [notes, update_of_ne other']
    exact before
  · rw [records, helpers]
    rcases asides container by_ c is there' with ⟨same, now, named⟩ | ⟨before, c', there'', named⟩
    · exact ⟨record, now, by rw [same]; exact there, named, fun _ => by rw [works]; exact Option.some_ne_none _⟩
    · rw [← named]
      exact kept.aside container by_ c' before there''
  · rw [records] at got
    rw [programs] at at_
    by_cases same : other = operation
    · rw [same, update_self] at at_
      cases at_
      rw [same] at got
      have idle := kept.idle name (abandoned name is) operation _ found program got target
      have none_ : (⟨s.docker, s.notes operation⟩ : UpdateSite).docker.Vacant name :=
        kept.vacant name (abandoned name is)
      exact idle.2 reply (answersVacant none_ answers)
    · rw [update_of_ne same] at at_
      exact kept.idle name (abandoned name is) other p found at_ got target
  · rw [pass, records, helpers]
    exact kept.pass.reading
  · rw [pass, records]
    exact kept.pass.ended
  · rw [pass, records]
    intro leftovers is container member by_ aside'
    have before : s.asideBy container = some by_ := by
      rcases aside with ⟨same, -⟩ | ⟨call, rfl, -, sets⟩
      · rw [same] at aside'
        exact aside'
      rw [sets] at aside'
      rcases setsAside_renamed aside' with before | ⟨ref, other, found, rfl, is', same⟩
      · exact before
      · -- what is about to be removed isn't renamed
        simp only [renamesApart, program, is, is', Option.all_some, Bool.and_eq_true, same, decide_eq_true_eq] at apart
        exact absurd member apart.2
    rcases kept.pass.spare leftovers is container member by_ before with ⟨found, got, healthy⟩
    refine ⟨found, got, ?_⟩
    rw [notes]
    by_cases same : by_ = operation
    · rw [same, update_self]
      rw [same] at healthy
      exact found_answers healthy answers
    · rw [update_of_ne same]
      exact healthy

/-- An operation ends, found healthy where it has succeeded, and with nothing left under its name where it has failed
and its container is set aside. -/
theorem Kept.ends {status : UpdateStatus} (kept : s.Kept) (there : s.records.get operation = some record)
    (running : record.status = .running) (ended : status ≠ .running)
    (healthy : status = .succeeded → Update.Found record.targetContainer (s.notes operation))
    (failed : status = .failed → s.leavesNothingElse operation record = true) :
    (s.ends operation record status).Kept := by
  have gets : ∀ other found, (s.ends operation record status).records.get other = some found →
      other = operation ∧ found = { record with status } ∨ other ≠ operation ∧ s.records.get other = some found := by
    intro other found got
    simp only [UpdatesState.ends, get_set] at got
    split at got
    · rename_i same
      exact .inl ⟨same.symm, (Option.some.inj got).symm⟩
    · rename_i other'
      exact .inr ⟨Ne.symm other', got⟩
  have keeps : ∀ by_ found, s.records.get by_ = some found → ∃ found',
      (s.ends operation record status).records.get by_ = some found' ∧
        found'.targetContainer = found.targetContainer ∧ found'.batchId = found.batchId ∧
          (found'.status = .running → found.status = .running) := by
    intro by_ found got
    by_cases same : by_ = operation
    · rw [same, there] at got
      refine ⟨{ record with status }, ?_, ?_⟩
      · simp only [UpdatesState.ends, get_set, if_pos same.symm]
      · rw [← Option.some.inj got]
        exact ⟨rfl, rfl, fun is => absurd is ended⟩
    · refine ⟨found, ?_, rfl, rfl, id⟩
      simp only [UpdatesState.ends, get_set, if_neg (Ne.symm same)]
      exact got
  have programs : ∀ other p, (s.ends operation record status).programs other = some p →
      other ≠ operation ∧ s.programs other = some p := by
    intro other p is
    simp only [UpdatesState.ends] at is
    by_cases same : other = operation
    · rw [same, update_self] at is
      cases is
    · rw [update_of_ne same] at is
      exact ⟨same, is⟩
  have abandoned : ∀ name, (s.ends operation record status).Abandoned name →
      s.Abandoned name ∨ status = .failed ∧ record.targetContainer = name ∧
        ∃ container, s.asideBy container = some operation ∧ (s.docker.get container).isSome = true := by
    rintro name ⟨container, by_, found, aside, some', got, is, target⟩
    rcases gets by_ found got with ⟨same, rfl⟩ | ⟨other, got⟩
    · exact .inr ⟨is, target, container, same ▸ aside, some'⟩
    · exact .inl ⟨container, by_, found, aside, some', got, is, target⟩
  refine ⟨?_, ?_, ?_, ?_, fun name is => ?_, fun name is other p found at_ got target => ?_, ?_, ?_, ?_⟩
  · intro a b first second got got' works works' same
    rcases gets a first got with ⟨rfl, rfl⟩ | ⟨-, got⟩
    · exact absurd works ended
    · rcases gets b second got' with ⟨rfl, rfl⟩ | ⟨-, got'⟩
      · exact absurd works' ended
      · exact kept.one a b first second got got' works works' same
  · intro other p is
    rcases programs other p is with ⟨different, is⟩
    rcases kept.active other p is with ⟨found, got, rest⟩
    refine ⟨found, ?_, rest⟩
    simp only [UpdatesState.ends, get_set, if_neg (Ne.symm different)]
    exact got
  · intro other found got is
    rcases gets other found got with ⟨rfl, rfl⟩ | ⟨-, got⟩
    · exact healthy is
    · exact kept.healthy other found got is
  · intro container by_ c aside got
    rcases kept.aside container by_ c aside got with ⟨found, now, got', named, launched⟩
    rcases keeps by_ found got' with ⟨found', got'', target, batch, runs⟩
    refine ⟨found', now, got'', by rw [target]; exact named, fun is => ?_⟩
    rw [batch]
    exact launched (runs is)
  · rcases abandoned name is with before | ⟨status', rfl, container, aside, some'⟩
    · exact kept.vacant name before
    · have left := all_eq_true.mp (failed status')
      rcases Option.isSome_iff_exists.mp some' with ⟨c, got⟩
      have here := left (container, c) ((lookup_eq_some s.docker.containers.nodup).mp got)
      simp only [aside, ne_eq, not_true_eq_false, decide_false, Bool.false_or, Option.isNone_iff_eq_none] at here
      exact Docker.vacant_iff.mp here
  · rcases programs other p at_ with ⟨different, at_⟩
    rcases gets other found got with ⟨same, -⟩ | ⟨-, got⟩
    · exact absurd same different
    rcases abandoned name is with before | ⟨status', rfl, -⟩
    · exact kept.idle name before other p found at_ got target
    · rcases kept.active other p at_ with ⟨found', got', works, -⟩
      rw [got] at got'
      cases got'
      exact absurd (kept.one other operation found record got there works running target) different
  · intro finished targets is other found got works
    rcases gets other found got with ⟨-, rfl⟩ | ⟨-, got⟩
    · exact absurd works ended
    · exact kept.pass.reading finished targets is other found got works
  · intro leftovers is batchId member other found got batch
    rcases gets other found got with ⟨-, rfl⟩ | ⟨-, got⟩
    · exact ended
    · exact kept.pass.ended leftovers is batchId member other found got batch
  · intro leftovers is container member by_ aside
    rcases kept.pass.spare leftovers is container member by_ aside with ⟨found, got, healthy'⟩
    rcases keeps by_ found got with ⟨found', got', target, -⟩
    exact ⟨found', got', by rw [target]; exact healthy'⟩

/-- A new record. -/
theorem Kept.started (kept : s.Kept) (running : record.status = .running)
    (alone : s.pass.isNone = true ∨ s.newBatch record.batchId = true)
    (new : ∀ other found, s.records.get other = some found → other < operation ∧
      (found.targetContainer = record.targetContainer → found.status ≠ .running)) :
    Kept { s with records := s.records.set operation record } := by
  have gets : ∀ other found, (s.records.set operation record).get other = some found →
      other = operation ∧ found = record ∨ s.records.get other = some found := by
    intro other found got
    simp only [get_set] at got
    split at got
    · rename_i same
      exact .inl ⟨same.symm, (Option.some.inj got).symm⟩
    · exact .inr got
  have keeps : ∀ other found, s.records.get other = some found →
      (s.records.set operation record).get other = some found := by
    intro other found got
    rw [get_set, if_neg (Nat.ne_of_gt (new other found got).1)]
    exact got
  have unknown : s.records.get operation = none := by
    cases got : s.records.get operation with
    | none => rfl
    | some found => exact absurd (new operation found got).1 (Nat.lt_irrefl _)
  have idles : ∀ program, s.programs operation ≠ some program := by
    intro program is
    rcases kept.active operation program is with ⟨found, got, -⟩
    exact absurd (unknown.symm.trans got).symm (Option.some_ne_none _)
  have abandoned : ∀ name, Abandoned { s with records := s.records.set operation record } name → s.Abandoned name := by
    rintro name ⟨container, by_, found, aside, some', got, is, target⟩
    rcases gets by_ found got with ⟨-, rfl⟩ | got
    · rw [is] at running
      cases running
    · exact ⟨container, by_, found, aside, some', got, is, target⟩
  -- a batch that is new to a pass is none that it goes by
  have newBatch : ∀ pass, s.pass = some pass → s.newBatch record.batchId = true := by
    intro pass is
    rcases alone with none_ | new'
    · rw [is] at none_
      cases none_
    · exact new'
  refine ⟨?_, ?_, ?_, ?_, fun name is => kept.vacant name (abandoned name is), ?_, ?_, ?_, ?_⟩
  · intro a b first second got got' works works' same
    rcases gets a first got with ⟨is, is'⟩ | before
    · rcases gets b second got' with ⟨other, -⟩ | before'
      · rw [is, other]
      · rw [is'] at same
        exact absurd works' ((new b second before').2 same.symm)
    · rcases gets b second got' with ⟨-, is'⟩ | before'
      · rw [is'] at same
        exact absurd works ((new a first before).2 same)
      · exact kept.one a b first second before before' works works' same
  · intro other program is
    rcases kept.active other program is with ⟨found, got, rest⟩
    exact ⟨found, keeps other found got, rest⟩
  · intro other found got is
    rcases gets other found got with ⟨-, rfl⟩ | got
    · rw [is] at running
      cases running
    · exact kept.healthy other found got is
  · intro container by_ c aside there
    rcases kept.aside container by_ c aside there with ⟨found, now, got, rest⟩
    exact ⟨found, now, keeps by_ found got, rest⟩
  · intro name is other program found at_ got target
    rcases gets other found got with ⟨rfl, -⟩ | got
    · exact absurd at_ (idles program)
    · exact kept.idle name (abandoned name is) other program found at_ got target
  · intro finished targets is other found got works
    rcases gets other found got with ⟨-, rfl⟩ | got
    · have new' := newBatch _ is
      simp only [UpdatesState.newBatch, Bool.and_eq_true, decide_eq_true_eq] at new'
      show s.helpers.get found.batchId ≠ some false
      rw [new'.1.1]
      exact (Option.some_ne_none _).symm
    · exact kept.pass.reading finished targets is other found got works
  · intro leftovers is batchId member other found got batch
    rcases gets other found got with ⟨-, rfl⟩ | got
    · have new' := newBatch _ is
      have is' : s.pass = some (.removing leftovers) := is
      simp only [UpdatesState.newBatch, is', Bool.and_eq_true, decide_eq_true_eq] at new'
      rw [batch] at new'
      exact absurd member new'.2
    · exact kept.pass.ended leftovers is batchId member other found got batch
  · intro leftovers is container member by_ aside
    rcases kept.pass.spare leftovers is container member by_ aside with ⟨found, got, healthy⟩
    exact ⟨found, keeps by_ found got, healthy⟩

/-- What a pass finds, it may remove: no helper runs, and where an operation is recorded as running, its helper isn't
there yet. -/
theorem Kept.listed {finished : List Nat} {names : List String} {ours longAgo helperLongAgo : Nat → Bool}
    (kept : s.Kept) (reading : s.pass = some (.read finished names)) (still : s.helpers.entries.any (·.2) = false) :
    PassKept { s with pass := some (.removing (s.leftovers finished names ours longAgo helperLongAgo)) } := by
  have exited : ∀ batchId running, s.helpers.get batchId = some running → running = false := by
    intro batchId running is
    have member := (lookup_eq_some s.helpers.nodup).mp is
    exact any_eq_false.mp still _ member |> Bool.eq_false_iff.mpr
  -- an operation that is recorded as running has no helper
  have waiting : ∀ operation record, s.records.get operation = some record → record.status = .running →
      s.helpers.get record.batchId = none := by
    intro operation record got running
    cases is : s.helpers.get record.batchId with
    | none => rfl
    | some works =>
      have ended := exited record.batchId works is
      rw [ended] at is
      exact absurd is (kept.pass.reading finished names reading operation record got running)
  refine ⟨fun _ _ is => ?_, ?_, ?_⟩
  · exact absurd (Option.some.inj is) (by simp)
  · intro found is batchId member operation record got batch running
    cases is
    simp only [leftovers, mem_append, mem_map, mem_filter, SweptLeftover.helper.injEq] at member
    rcases member with ⟨helper, ⟨there, -⟩, is'⟩ | ⟨entry, -, is'⟩
    · have launched : s.helpers.get helper.1 = some helper.2 := (lookup_eq_some s.helpers.nodup).mpr there
      rw [is', ← batch, waiting operation record got running] at launched
      cases launched
    · exact absurd is' (by simp)
  intro found is container member by_ aside
  cases is
  simp only [leftovers, mem_append, mem_map, mem_filter, SweptLeftover.backup.injEq] at member
  rcases member with ⟨helper, -, is'⟩ | ⟨⟨id, c⟩, ⟨there, sweeps⟩, rfl⟩
  · exact absurd is' (by simp)
  have got : s.docker.get id = some c := (lookup_eq_some s.docker.containers.nodup).mpr there
  rcases kept.aside id by_ c aside got with ⟨record, now, got', named, launched⟩
  rw [Bool.and_eq_true] at sweeps
  have occupied : ∃ other, s.docker.find (.name record.targetContainer) = some other := by
    have sweeps := sweeps.2
    split at sweeps
    · cases sweeps
    rename_i original is'
    rw [named] at is'
    obtain rfl := originalName_backupName is'
    simp only [Bool.and_eq_true, Option.any_eq_true] at sweeps
    rcases sweeps.1.1 with ⟨other, is'', -⟩
    exact ⟨other, is''⟩
  refine ⟨record, got', ?_⟩
  cases status : record.status with
  | running => exact absurd (waiting by_ record got' status) (launched status)
  | succeeded => exact kept.healthy by_ record got' status
  | failed =>
    rcases occupied with ⟨other, is'⟩
    have vacant := kept.vacant record.targetContainer ⟨id, by_, record, aside, by rw [got]; rfl, got', status, rfl⟩
    rw [Docker.vacant_iff.mpr vacant] at is'
    exact absurd is'.symm (Option.some_ne_none _)

theorem PassKept.tail {leftover : SweptLeftover} {rest : List SweptLeftover} (kept : s.PassKept)
    (removing : s.pass = some (.removing (leftover :: rest))) : PassKept { s with pass := some (.removing rest) } := by
  refine ⟨fun _ _ is => absurd (Option.some.inj is) (by simp), ?_, ?_⟩
  · intro found is batchId member
    cases is
    exact kept.ended _ removing batchId (mem_cons_of_mem _ member)
  · intro found is container member
    cases is
    exact kept.spare _ removing container (mem_cons_of_mem _ member)

theorem Kept.began {now : Nat} (kept : s.Kept) (there : s.records.get operation = some record)
    (running : record.status = .running) (works : s.helpers.get record.batchId = some true) :
    Kept { s with programs := update s.programs operation (some (runOperation record now)) } := by
  have programs : ∀ other program, update s.programs operation (some (runOperation record now)) other =
      some program → other = operation ∧ program = runOperation record now ∨ s.programs other = some program := by
    intro other program is
    by_cases same : other = operation
    · rw [same, update_self] at is
      exact .inl ⟨same, (Option.some.inj is).symm⟩
    · rw [update_of_ne same] at is
      exact .inr is
  refine ⟨kept.one, ?_, kept.healthy, kept.aside, kept.vacant, ?_, ⟨kept.pass.reading, kept.pass.ended, kept.pass.spare⟩⟩
  · intro other program is
    rcases programs other program is with ⟨rfl, rfl⟩ | before
    · refine ⟨record, there, running, works, Update.names_runOperation record now, ?_⟩
      exact Update.findsOk_runOperation record now ⟨s.docker, s.notes other⟩ trivial trivial
    · exact kept.active other program before
  · intro name is other program found at_ got target
    rcases programs other program at_ with ⟨rfl, rfl⟩ | before
    · have same : record = found := Option.some.inj (there.symm.trans got)
      rw [← target, ← same]
      exact Update.idle_runOperation record now
    · exact kept.idle name is other program found before got target

/-- A removal: one of a helper removes none that works, or whose operations have not ended. -/
theorem Kept.removed {leftover : SweptLeftover} {rest : List SweptLeftover} (kept : s.Kept)
    (removing : s.pass = some (.removing (leftover :: rest))) :
    Kept { s.removes leftover with pass := some (.removing rest) } := by
  have spare := kept.pass.tail removing
  have passed : Kept { s with pass := some (.removing rest) } :=
    kept.of_fewer rfl rfl rfl rfl (fun _ _ is => is) (fun _ _ _ _ _ works => works) (fun _ _ _ _ there => there) spare
  cases leftover with
  | helper batchId =>
    by_cases works : s.helpers.get batchId = some true
    · rw [removes, if_pos works]
      exact passed
    rw [removes, if_neg works]
    refine kept.of_fewer rfl rfl rfl rfl (fun _ _ is => is) ?_ ?_ ?_
    · intro operation program record is there helper
      have other : batchId ≠ record.batchId := fun same => works (same ▸ helper)
      rw [get_delete, if_neg other]
      exact helper
    · intro operation record there running launched
      have other := kept.pass.ended _ removing batchId mem_cons_self operation record there
      rw [get_delete, if_neg fun same => other same.symm running]
      exact launched
    · exact ⟨fun _ _ is => absurd (Option.some.inj is) (by simp), spare.ended, spare.spare⟩
  | backup container =>
    by_cases runs : (s.docker.get container).any (·.running) = true
    · rw [removes, if_pos runs]
      exact passed
    rw [removes, if_neg runs]
    refine passed.of_docker fun id c there => ?_
    rw [Docker.get_remove] at there
    split at there
    · cases there
    · exact ⟨c, there, rfl⟩

theorem Kept.stopped {batchId : Nat} (kept : s.Kept) (orderly : s.orderly (.stops batchId) = true) : Kept { s with
      helpers := s.helpers.set batchId false
      programs := fun operation =>
        if (s.records.get operation).any (·.batchId = batchId) then none else s.programs operation } := by
  have fewer : ∀ operation program, (if (s.records.get operation).any (·.batchId = batchId) then none
      else s.programs operation) = some program → s.programs operation = some program ∧
        ∀ record, s.records.get operation = some record → record.batchId ≠ batchId := by
    intro operation program is
    split at is
    · cases is
    · rename_i other
      refine ⟨is, fun record there same => other ?_⟩
      rw [there, Option.any_some, decide_eq_true same]
  refine kept.of_fewer rfl rfl rfl rfl (fun operation program is => (fewer operation program is).1) ?_ ?_ ?_
  · intro operation program record is there helper
    rw [get_set, if_neg ((fewer operation program is).2 record there).symm]
    exact helper
  · intro operation record there running launched
    rw [get_set]
    split
    · exact Option.some_ne_none _
    · exact launched
  refine ⟨?_, kept.pass.ended, kept.pass.spare⟩
  intro finished targets is operation record there running
  have reads : s.pass = some (.read finished targets) := is
  simp only [UpdatesState.orderly, reads, all_eq_true, Bool.or_eq_true, decide_eq_true_eq] at orderly
  have other : record.batchId ≠ batchId := by
    rcases orderly (operation, record) (record_iff.mpr there) with other | ended
    · exact other
    · exact absurd running ended
  rw [get_set, if_neg other.symm]
  exact kept.pass.reading finished targets reads operation record there running

theorem Kept.step {event : UpdatesEvent} (kept : s.Kept) (orderly : s.orderly event = true)
    (step : s.next event = some s') : s'.Kept := by
  cases event with
  | turns container running health =>
    cases step
    refine kept.of_docker fun id c there => ?_
    rcases modify_cases (d := s.docker) (.id container) (fun c => { c with running, health })
      (fun _ => rfl) with ⟨-, is⟩ | ⟨found, c', is, -, -, gets⟩
    · rw [is] at there
      exact ⟨c, there, rfl⟩
    rw [gets] at there
    split at there
    · rename_i same
      refine ⟨c', same ▸ get_of_find is, ?_⟩
      rw [← Option.some.inj there]
    · exact ⟨c, there, rfl⟩
  | start operation record =>
    simp only [next, Option.ite_none_right_eq_some, Bool.and_eq_true, Bool.or_eq_true, decide_eq_true_eq,
      all_eq_true] at step
    rcases step with ⟨⟨⟨alone, running⟩, new⟩, is⟩
    cases is
    refine kept.started running alone fun other found got => ?_
    rcases new (other, found) (record_iff.mpr got) with ⟨below, apart⟩
    exact ⟨below, fun same => apart.resolve_left fun different => different same⟩
  | launch batchId =>
    simp only [next, Option.ite_none_left_eq_some] at step
    cases step.2
    have launched : ∀ other, s.helpers.get other ≠ none → (s.helpers.set batchId true).get other ≠ none := by
      intro other there
      rw [get_set]
      split
      · exact Option.some_ne_none _
      · exact there
    refine kept.of_fewer rfl rfl rfl rfl (fun _ _ is => is) ?_ (fun _ record _ _ => launched record.batchId) ?_
    · intro operation program record is there helper
      rw [get_set]
      split
      · rfl
      · exact helper
    · refine ⟨?_, kept.pass.ended, kept.pass.spare⟩
      intro finished targets is operation record there running
      rw [get_set]
      split
      · simp
      · exact kept.pass.reading finished targets is operation record there running
  | begins operation now =>
    simp only [next] at step
    split at step
    · rename_i record there noProgram
      simp only [Option.ite_none_right_eq_some, Bool.and_eq_true, decide_eq_true_eq] at step
      cases step.2
      exact kept.began there step.1.1 step.1.2
    · cases step
  | call operation outcome =>
    simp only [next] at step
    split at step
    · exact kept.answered ‹_› orderly step
    · cases step
  | finishes operation =>
    simp only [next] at step
    split at step
    · rename_i record value there program
      cases step
      rcases kept.active operation _ program with ⟨found, got, running, -, -, owes⟩
      rw [there] at got
      cases got
      exact kept.ends there running (by simp) (fun _ => owes.returned) (by simp)
    · rename_i record failure there program
      cases step
      rcases kept.active operation _ program with ⟨found, got, running, -⟩
      rw [there] at got
      cases got
      simp only [UpdatesState.orderly, there, program] at orderly
      exact kept.ends there running (by simp) (by simp) fun _ => orderly
    · cases step
  | stops batchId =>
    simp only [next, Option.ite_none_right_eq_some] at step
    cases step.2
    exact kept.stopped orderly
  | stale operation =>
    simp only [next] at step
    split at step
    · rename_i record there
      simp only [Option.ite_none_right_eq_some, Bool.and_eq_true, decide_eq_true_eq] at step
      cases step.2
      simp only [UpdatesState.orderly, there, Option.all_some] at orderly
      exact kept.ends there step.1.1 (by simp) (by simp) fun _ => orderly
    · cases step
  | passReads =>
    simp only [next, Option.ite_none_left_eq_some, Bool.or_eq_true, not_or] at step
    cases step.2
    have quiet : ∀ operation record, s.records.get operation = some record → record.status ≠ .running := by
      intro operation record there running
      refine step.1.2 (any_eq_true.mpr ⟨(operation, record), record_iff.mpr there, ?_⟩)
      rw [running]
      rfl
    refine kept.of_fewer rfl rfl rfl rfl (fun _ _ is => is) (fun _ _ _ _ _ works => works)
      (fun _ _ _ _ there => there) ⟨?_, ?_, ?_⟩
    · exact fun _ _ _ operation record there running => absurd running (quiet operation record there)
    · exact fun _ is => absurd (Option.some.inj is) (by simp)
    · exact fun _ is => absurd (Option.some.inj is) (by simp)
  | passLists ours longAgo helperLongAgo =>
    simp only [next] at step
    split at step
    · rename_i finished names reading
      split at step
      · cases step
        exact kept.of_fewer rfl rfl rfl rfl (fun _ _ is => is) (fun _ _ _ _ _ works => works)
          (fun _ _ _ _ there => there) ⟨by simp, by simp, by simp⟩
      · rename_i still
        cases step
        exact kept.of_fewer rfl rfl rfl rfl (fun _ _ is => is) (fun _ _ _ _ _ works => works)
          (fun _ _ _ _ there => there) (kept.listed reading (Bool.eq_false_iff.mpr still))
    · cases step
  | passRemoves =>
    simp only [next] at step
    split at step
    · rename_i leftover rest removing
      cases step
      exact kept.removed removing
    · cases step
  | passSkips =>
    simp only [next] at step
    split at step
    · rename_i leftover rest removing
      cases step
      exact kept.of_fewer rfl rfl rfl rfl (fun _ _ is => is) (fun _ _ _ _ _ works => works)
        (fun _ _ _ _ there => there) (kept.pass.tail removing)
    · cases step
      exact kept.of_fewer rfl rfl rfl rfl (fun _ _ is => is) (fun _ _ _ _ _ works => works)
          (fun _ _ _ _ there => there) ⟨by simp, by simp, by simp⟩
    · cases step

theorem Kept.of_reachable {docker : Docker}
    (reached : ((updatesSystem docker).restrict fun s event => s.orderly event = true).Reachable s) : s.Kept := by
  refine System.Reachable.invariant ?_ ?_ reached
  · rintro s rfl
    exact kept_init docker
  · intro s event s' kept taken
    exact kept.step taken.1 taken.2

theorem Kept.sweepsSpare (kept : s.Kept) : s.SweepsSpare := by
  intro leftover rest removing
  cases leftover with
  | helper batchId => exact kept.pass.ended _ removing batchId mem_cons_self
  | backup container =>
    intro operation aside
    rcases kept.pass.spare _ removing container mem_cons_self operation aside with ⟨record, there, id, c, healthy, named⟩
    exact ⟨record, operation, record, id, c, there, Nat.le_refl _, there, rfl, healthy, named⟩

end UpdatesState

/-! ## Cleanup -/

/-- In every orderly run, what a pass removes is spare. -/
theorem cleanup_removes_spare (docker : Docker) (s : UpdatesState)
    (reached : ((updatesSystem docker).restrict fun s event => s.orderly event = true).Reachable s) : s.SweepsSpare :=
  (UpdatesState.Kept.of_reachable reached).sweepsSpare

def hearthUpdate : UpdateOperation where
  batchId := 0
  targetContainer := "hearth"
  requestedImage := "sha256:new"
  targetReference := "hearth:latest"
  status := .running

/-- The helper sets Hearth's container aside, and has started the replacement. -/
def startsReplacement : List UpdatesEvent :=
  [.start 0 hearthUpdate, .launch 0, .begins 0 1] ++ replicate 3 (.call 0 .applied) ++
    [.call 0 (.randomLabel "a")] ++ replicate 12 (.call 0 .applied)

/-- It finds the replacement healthy, and can't remove the container that it set aside. -/
def leavesBackup : List UpdatesEvent :=
  [.call 0 .applied, .turns 1 true (some .healthy), .call 0 (.now 0), .call 0 (.now 0), .call 0 .applied,
    .call 0 .applied, .call 0 .applied, .call 0 (.failedBefore "socket hang up"), .finishes 0, .stops 0]

/-- A pass comes to the container that was set aside. -/
def passReachesBackup : List UpdatesEvent :=
  [.passReads, .passLists (fun _ => true) (fun _ => false) (fun _ => false), .passRemoves]

/-- It is about to remove the container. -/
def removesBackup (s : UpdatesState) : Bool := s.pass = some (.removing [.backup 0])

theorem cleanup_removes_spare_leftBackup :
    (runAll (fun s event => if s.orderly event = true then s.next event else none)
      ({ docker := hearthDocker } : UpdatesState)
      (startsReplacement ++ leavesBackup ++ passReachesBackup)).any removesBackup = true ∧
    ∀ s, runAll (fun s event => if s.orderly event = true then s.next event else none)
      ({ docker := hearthDocker } : UpdatesState)
      (startsReplacement ++ leavesBackup ++ passReachesBackup) = some s → s.SweepsSpare := by
  refine ⟨by decide, fun s ran => ?_⟩
  exact cleanup_removes_spare hearthDocker s ⟨_, _, rfl, System.run_of_guardedRunAll ran⟩

/-- The helper is killed once it has started the replacement, and its operation is recorded as failed. -/
def killedHelper : List UpdatesEvent := startsReplacement ++ [.stops 0, .stale 0] ++ passReachesBackup

/-- Nothing was found healthy. -/
def noneHealthy (notes : List UpdateNote) : Bool :=
  notes.all fun
    | .healthy _ _ => false
    | _ => true

theorem killedHelper_removes : (runAll UpdatesState.next { docker := hearthDocker } killedHelper).any (fun s =>
    removesBackup s && (s.asideBy 0 = some 0) && s.records.entries.all fun entry => noneHealthy (s.notes entry.1)) =
      true := by
  decide

theorem cleanup_removes_needed :
    ¬ ∀ docker s, (updatesSystem docker).Reachable s → s.SweepsSpare := by
  intro all
  have ends := killedHelper_removes
  rw [Option.any_eq_true] at ends
  rcases ends with ⟨s, ran, ends⟩
  simp only [removesBackup, Bool.and_eq_true, decide_eq_true_eq, all_eq_true] at ends
  rcases all hearthDocker s ⟨_, _, rfl, System.run_of_runAll ran⟩ (.backup 0) [] ends.1.1 0 ends.1.2 with
    ⟨-, later, record, id, c, -, -, there, -, healthy, -⟩
  have found := ends.2 (later, record) (UpdatesState.record_iff.mpr there)
  rw [noneHealthy, all_eq_true] at found
  exact absurd (found _ healthy) Bool.false_ne_true

end Kiln.Relay
