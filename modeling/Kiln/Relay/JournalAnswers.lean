import Kiln.Relay.JournalOnce

/-!
# What the journal answers

Once a change ended, the Relay can answer for it from memory, from the journal, or from the
outcome a claim on its ID settles with. Those that are true to the change are its own outcome,
in memory or written, and whatever is read from them; two are not: a failed read of the journal,
which settles the claim of the request that made it as if its change had failed, and a row that
still says `running` once memory has dropped the outcome.
-/

namespace Kiln.Relay
open Kiln.Lib Kiln.Operations OperationRows

/-- A failure that says the change went through all the same. -/
def ControlFailure.tellsSuccess (failure : ControlFailure) : Bool :=
  failure.code = "result_unavailable" || failure.code = "response_too_large"

def Reply.tellsSuccess : Reply → Bool
  | response _ => true
  | error failure => failure.tellsSuccess

def RecordedOutcome.tellsSuccess : RecordedOutcome → Bool
  | succeeded _ _ => true
  | failed failure => failure.tellsSuccess
  | interrupted => false

@[simp] theorem sendResponse_tellsSuccess (request : ChangeRequest) (payload : String) :
    (sendResponse request payload).tellsSuccess = true := by
  unfold sendResponse
  dsimp only
  split
  · rfl
  · rfl

/-- An outcome that doesn't tell of success is answered with a failure that doesn't. -/
theorem settleRecorded_tellsSuccess {outcome : RecordedOutcome} (failed : outcome.tellsSuccess = false) :
    ∃ failure, settleRecorded outcome = .error failure ∧ failure.tellsSuccess = false := by
  cases outcome with
  | succeeded kept payload => cases failed
  | failed failure => exact ⟨failure, rfl, failed⟩
  | interrupted => exact ⟨operationInterrupted, rfl, rfl⟩

/-- No failure of the Relay's own reads as a success. -/
theorem controlFailureFor_tellsSuccess {cause : ControlCause} (aborted : Bool)
    (plain : ∀ failure, cause = .recorded failure → failure.tellsSuccess = false) :
    (controlFailureFor cause aborted).tellsSuccess = false := by
  cases cause with
  | recorded failure => exact plain failure rfl
  | laneRejected error =>
    obtain ⟨reason, message, blockedBy⟩ := error
    cases reason <;> cases aborted <;> rfl
  | notFound message => cases aborted <;> rfl
  | installationReplace code message => cases code <;> cases aborted <;> rfl
  | unexpected message => cases aborted <;> rfl

theorem executionFailure_tellsSuccess (failure : ExecutionFailure) (aborted : Bool) :
    (controlFailureFor failure.cause aborted).tellsSuccess = false := by
  apply controlFailureFor_tellsSuccess
  intro recorded cause
  cases failure with
  | forbidden => cases cause; rfl
  | _ => cases cause

namespace RelayJournal

/-- An outcome under an ID is true to how its change ended in this process. -/
structure Truth (s : RelayJournal) (c : CommandId) (settled : SettledOperation) : Prop where
  success : s.ended c = some true → s.started c = [settled.digest] ∧
    ∃ kept payload, settled.outcome = .succeeded kept payload
  failure : s.ended c = some false → settled.outcome.tellsSuccess = false

/-- A row that isn't yet written over is true, but for saying that the change runs. -/
structure RowTruth (s : RelayJournal) (c : CommandId) (record : RelayOperationRecord) : Prop where
  success : s.ended c = some true → s.started c = [record.payloadSha256] ∧
    (record.status = .running ∨ record.status = .succeeded)
  failure : s.ended c = some false → (recordedOutcome record).tellsSuccess = false

/-- An outcome still to be written is true. -/
structure WriteTruth (s : RelayJournal) (c : CommandId) (finished : FinishedOutcome) : Prop where
  success : s.ended c = some true → finished.status = .succeeded
  failure : s.ended c = some false →
    ∀ record : RelayOperationRecord, (recordedOutcome (record.finish finished)).tellsSuccess = false

variable {c : CommandId} {s s' : RelayJournal} {r : Nat} {request : ChangeRequest}
  {phase : RequestPhase} {earlier : SettledOperation}

theorem Truth.of_running (running : s.ended c = none) : Truth s c settled :=
  ⟨fun ended => by simp [running] at ended, fun ended => by simp [running] at ended⟩

variable {outcome : RecordedOutcome}

theorem Truth.trimmed {madeWith : String} (truth : Truth s c ⟨madeWith, outcome⟩) :
    Truth s c ⟨madeWith, outcome.trimmed⟩ where
  success ended := by
    obtain ⟨same, kept, payload, rfl⟩ := truth.success ended
    refine ⟨same, ?_⟩
    unfold RecordedOutcome.trimmed
    dsimp only
    split
    · exact ⟨_, _, rfl⟩
    · exact ⟨_, _, rfl⟩
  failure ended := by
    have told := truth.failure ended
    cases outcome with
    | succeeded kept payload => cases told
    | _ => exact told

/-- What a repeat is told of an outcome that is true: success to one that asks for the same, and never success once the
change failed. -/
theorem Truth.repeatReply (truth : Truth s c earlier) (request : ChangeRequest) :
    (s.ended c = some true → s.started c = [request.digest] →
      (Kiln.Relay.repeatReply request earlier).tellsSuccess = true) ∧
    (s.ended c = some false → (Kiln.Relay.repeatReply request earlier).tellsSuccess = false) := by
  constructor
  · intro ended started
    obtain ⟨same, kept, payload, outcome⟩ := truth.success ended
    have digest : earlier.digest = request.digest := by simpa [started] using same.symm
    cases kept with
    | true => simp [Kiln.Relay.repeatReply, digest, outcome, settleRecorded]
    | false => simp [Kiln.Relay.repeatReply, digest, outcome, settleRecorded]; rfl
  intro ended
  have told : (if earlier.digest = request.digest then earlier.outcome
      else conflictingOutcome).tellsSuccess = false := by
    split
    · exact truth.failure ended
    · rfl
  obtain ⟨failure, answer, plain⟩ := settleRecorded_tellsSuccess told
  simp only [Kiln.Relay.repeatReply, answer]
  exact plain

theorem Truth.lookupFor (truth : Truth s c earlier) :
    (s.ended c = some true → ∃ result, Kiln.Relay.lookupFor earlier.outcome = .succeeded result) ∧
    (s.ended c = some false → ∀ result, Kiln.Relay.lookupFor earlier.outcome ≠ .succeeded result) := by
  constructor
  · intro ended
    obtain ⟨-, kept, payload, outcome⟩ := truth.success ended
    rw [outcome]
    cases kept with
    | true => exact ⟨_, rfl⟩
    | false => exact ⟨_, rfl⟩
  · intro ended result
    have told := truth.failure ended
    obtain ⟨digest, outcome⟩ := earlier
    cases outcome with
    | succeeded kept payload => cases told
    | failed failure => simp [Kiln.Relay.lookupFor]
    | interrupted => simp [Kiln.Relay.lookupFor]

theorem RowTruth.settled {record : RelayOperationRecord} (row : RowTruth s c record)
    (written : s.ended c = some true → record.status ≠ .running) :
    Truth s c ⟨record.payloadSha256, recordedOutcome record⟩ where
  success ended := by
    obtain ⟨same, running | succeeded⟩ := row.success ended
    · exact absurd running (written ended)
    · exact ⟨same, false, "null", by simp [recordedOutcome, succeeded, RecordedOutcome.unkept]⟩
  failure ended := row.failure ended

theorem finished_tellsSuccess (failed : outcome.tellsSuccess = false) (record : RelayOperationRecord) :
    (recordedOutcome (record.finish outcome.finished)).tellsSuccess = false := by
  cases outcome with
  | succeeded kept payload => cases failed
  | failed failure => exact failed
  | interrupted => rfl

/-- What is in memory and in the journal of an ID is true to how its change ended. -/
structure Faithful (c : CommandId) (s : RelayJournal) : Prop where
  starting : ∀ r request, s.requests r = some ⟨request, .starting⟩ → request.command = c → s.rows c = none
  /-- Before its change ended, a request that is in the journal has its row to itself. -/
  taken : ∀ r request, s.requests r = some ⟨request, .queued⟩ ∨
    s.requests r = some ⟨request, .running⟩ → request.command = c →
    s.ended c = none ∧ (∀ write ∈ s.operations.writes, write.command ≠ c) ∧
    ∃ record, s.rows c = some record ∧ record.status = .running ∧ record.payloadSha256 = request.digest
  written : ∀ write ∈ s.operations.writes, write.command = c → (s.rows c).isSome
  ended : s.ended c ≠ none → (s.rows c).isSome
  row : ∀ record, s.rows c = some record → RowTruth s c record
  writes : ∀ write ∈ s.operations.writes, write.command = c → WriteTruth s c write.finished
  remembered : ∀ entry, s.operations.finished.get c.key = some entry → Truth s c entry.toSettledOperation

theorem Faithful.initial : Faithful c {} where
  starting _ _ at_r := by simp at at_r
  taken _ _ at_r := by simp at at_r
  written _ member := by simp at member
  ended some_ended := absurd rfl some_ended
  row _ found := by simp at found
  writes _ member := by simp at member
  remembered _ found := by simp at found

/-- What is true stays true while the change's end and the request it was run for do. -/
theorem Truth.congr (truth : Truth s c earlier) (ended : s'.ended c = s.ended c)
    (started : s'.started c = s.started c) : Truth s' c earlier where
  success h := by rw [started]; exact truth.success (ended ▸ h)
  failure h := truth.failure (ended ▸ h)

theorem RowTruth.congr {record : RelayOperationRecord} (row : RowTruth s c record)
    (ended : s'.ended c = s.ended c) (started : s'.started c = s.started c) :
    RowTruth s' c record where
  success h := by rw [started]; exact row.success (ended ▸ h)
  failure h := row.failure (ended ▸ h)

theorem WriteTruth.congr {finished : FinishedOutcome} (write : WriteTruth s c finished)
    (ended : s'.ended c = s.ended c) : WriteTruth s' c finished where
  success h := write.success (ended ▸ h)
  failure h := write.failure (ended ▸ h)

theorem Faithful.frame (faithful : Faithful c s)
    (claims : ∀ q taken, s'.requests q = some taken → taken.request.command = c →
      taken.phase.claims = true → taken.phase ≠ .reading → s.requests q = some taken)
    (rows : s'.rows c = s.rows c)
    (writes : ∀ write ∈ s'.operations.writes, write ∈ s.operations.writes)
    (ended : s'.ended c = s.ended c) (started : s'.started c = s.started c)
    (remembered : ∀ entry, s'.operations.finished.get c.key = some entry →
      s.operations.finished.get c.key = some entry ∨ Truth s' c entry.toSettledOperation) :
    Faithful c s' where
  starting q request at_q mine := by
    rw [rows]
    exact faithful.starting q request (claims q _ at_q mine rfl (by simp)) mine
  taken q request at_q mine := by
    rw [rows, ended]
    obtain ⟨running, unwritten, row⟩ := faithful.taken q request
      (at_q.imp (claims q _ · mine rfl (by simp)) (claims q _ · mine rfl (by simp))) mine
    exact ⟨running, fun write member => unwritten write (writes write member), row⟩
  written write member mine := by
    rw [rows]
    exact faithful.written write (writes write member) mine
  ended some_ended := by
    rw [rows]
    exact faithful.ended (ended ▸ some_ended)
  row record found := (faithful.row record (rows ▸ found)).congr ended started
  writes write member mine := (faithful.writes write (writes write member) mine).congr ended
  remembered entry found := by
    rcases remembered entry found with before | truth
    · exact (faithful.remembered entry before).congr ended started
    · exact truth

variable {now : Nat}

theorem Faithful.settle_put (faithful : Faithful c s) (idle : phase.claims = false)
    {madeWith : String} (truth : request.command = c → Truth s c ⟨madeWith, outcome⟩) :
    Faithful c ((s.settle r request.command madeWith outcome now).put r request phase) := by
  refine faithful.frame ?_ rfl (fun _ member => member) rfl rfl ?_
  · intro q taken at_q _ taken_claims _
    exact claims_of_resume (claims_of_put idle at_q taken_claims) taken_claims
  · intro entry found
    rcases settle_finished (r := r) found with ⟨same, settled⟩ | ⟨-, before⟩
    · rw [settled]
      exact Or.inr ((truth (CommandId.key_inj.mp same).symm).trimmed.congr rfl rfl)
    · exact Or.inl before

/-- A change is recorded that the journal didn't know. -/
theorem Faithful.record (faithful : Faithful c s) (fresh : s.rows c = none)
    (record : RelayOperationRecord) (rows : s'.rows c = some record)
    (running : record.status = .running)
    (writes : s'.operations.writes = s.operations.writes) (ended : s'.ended c = s.ended c)
    (claims : ∀ q taken, s'.requests q = some taken → taken.request.command = c →
      taken.phase.claims = true → taken.phase = .reading ∨
        taken.phase = .queued ∧ record.payloadSha256 = taken.request.digest) :
    Faithful c s' := by
  have not_ended : s'.ended c = none := by
    rw [ended]
    by_contra some_ended
    have row := faithful.ended some_ended
    rw [fresh] at row
    cases row
  have unwritten : ∀ write ∈ s'.operations.writes, write.command ≠ c := by
    intro write member mine
    rw [writes] at member
    have row := faithful.written write member mine
    rw [fresh] at row
    cases row
  have vacuous : ∀ outcome : Bool, s'.ended c ≠ some outcome := by simp [not_ended]
  refine ⟨?_, ?_, ?_, ?_, ?_, ?_, ?_⟩
  · intro q request at_q mine
    rcases claims q _ at_q mine rfl with h | ⟨h, -⟩
    · cases h
    · cases h
  · intro q request at_q mine
    refine ⟨not_ended, unwritten, record, rows, running, ?_⟩
    rcases at_q with at_q | at_q
    · rcases claims q _ at_q mine rfl with h | ⟨-, digest⟩
      · cases h
      · exact digest
    · rcases claims q _ at_q mine rfl with h | ⟨h, -⟩
      · cases h
      · cases h
  · exact fun _ _ _ => by rw [rows]; rfl
  · exact fun _ => by rw [rows]; rfl
  · exact fun _ _ => ⟨fun h => absurd h (vacuous _), fun h => absurd h (vacuous _)⟩
  · exact fun _ _ _ => ⟨fun h => absurd h (vacuous _), fun h => absurd h (vacuous _)⟩
  · exact fun _ _ => .of_running not_ended

/-- A change of the ID, in its lane, ends or is turned away: from then on it has its outcome in memory, and the write of
it to come. -/
theorem Faithful.finish (faithful : Faithful c s) (once : Once c s)
    (own : s.requests r = some ⟨request, .queued⟩ ∨ s.requests r = some ⟨request, .running⟩)
    {exit : Except ControlCause String} {aborted : Bool}
    {ended : CommandId → Option Bool}
    (elsewhere : request.command ≠ c → ended c = s.ended c)
    (truth : request.command = c → Truth { s with ended := ended } c ⟨request.digest, outcomeOf exit⟩) :
    Faithful c ({ s with ended := ended }.finish r request exit aborted now) := by
  have own_claims : ∃ phase, s.requests r = some ⟨request, phase⟩ ∧ phase.claims = true := by
    rcases own with own | own
    · exact ⟨_, own, rfl⟩
    · exact ⟨_, own, rfl⟩
  obtain ⟨phase, own_phase, claims⟩ := own_claims
  by_cases mine : request.command = c
  · have none_left : ∀ q taken, Function.update
        (fun q => (s.requests q).map (·.resume r ⟨request.digest, outcomeOf exit⟩)) r
        (some ⟨request, .answered (ownReply request exit aborted)⟩) q = some taken →
        taken.request.command = c → taken.phase.claims = false :=
      fun q taken => once.unclaimed own_phase claims mine rfl
    obtain ⟨-, unwritten, record, found, running, digest⟩ := faithful.taken r request own mine
    have row : (s.rows c).isSome := by rw [found]; rfl
    refine ⟨?_, ?_, fun _ _ _ => row, fun _ => row, ?_, ?_, ?_⟩
    · intro q other at_q other_mine
      cases none_left q _ at_q other_mine
    · intro q other at_q other_mine
      rcases at_q with at_q | at_q
      · cases none_left q _ at_q other_mine
      · cases none_left q _ at_q other_mine
    · intro record' found'
      cases found.symm.trans found'
      refine ⟨fun h => ⟨?_, Or.inl running⟩, fun _ => ?_⟩
      · rw [digest]
        exact ((truth mine).success h).1
      · simp [recordedOutcome, running, RecordedOutcome.tellsSuccess]
    · intro write member write_mine
      rcases List.mem_append.mp member with before | new
      · exact absurd write_mine (unwritten write before)
      · rw [List.mem_singleton.mp new]
        refine ⟨fun h => ?_, fun h => finished_tellsSuccess ((truth mine).failure h)⟩
        obtain ⟨-, kept, payload, outcome⟩ := (truth mine).success h
        rw [show outcomeOf exit = _ from outcome]
        rfl
    · intro entry found'
      rcases settle_finished (r := r) found' with ⟨-, settled⟩ | ⟨apart, -⟩
      · rw [settled]
        exact (truth mine).trimmed.congr rfl rfl
      · exact absurd (by rw [mine]) apart
  · have others : Faithful c { s with ended := ended } :=
      faithful.frame (fun _ _ at_q _ _ _ => at_q) rfl (fun _ member => member) (elsewhere mine) rfl
        (fun _ found => Or.inl found)
    refine ⟨?_, ?_, ?_, others.ended, ?_, ?_, ?_⟩
    · exact fun q other at_q => others.starting q other (claims_of_settle_put rfl at_q rfl).1
    · intro q other at_q other_mine
      obtain ⟨running, unwritten, record⟩ := others.taken q other
        (at_q.imp (fun h => (claims_of_settle_put rfl h rfl).1)
          (fun h => (claims_of_settle_put rfl h rfl).1)) other_mine
      refine ⟨running, fun write member => ?_, record⟩
      rcases List.mem_append.mp member with before | new
      · exact unwritten write before
      · rw [List.mem_singleton.mp new]
        exact mine
    · intro write member write_mine
      rcases List.mem_append.mp member with before | new
      · exact others.written write before write_mine
      · rw [List.mem_singleton.mp new] at write_mine
        exact absurd write_mine mine
    · exact fun record found => (others.row record found).congr rfl rfl
    · intro write member write_mine
      rcases List.mem_append.mp member with before | new
      · exact (others.writes write before write_mine).congr rfl
      · rw [List.mem_singleton.mp new] at write_mine
        exact absurd write_mine mine
    · intro entry found
      rcases settle_finished (r := r) found with ⟨same, -⟩ | ⟨-, before⟩
      · exact absurd (CommandId.key_inj.mp same).symm mine
      · exact (others.remembered entry before).congr rfl rfl

/-- A write that reaches the row of an ID tells it the truth. -/
theorem Faithful.write (faithful : Faithful c s) {write : OutcomeWrite}
    (pending : write ∈ s.operations.writes) (landed last : Bool) :
    Faithful c (s.write write landed last) := by
  have still : ∀ w ∈ (s.write write landed last).operations.writes, w ∈ s.operations.writes := by
    intro w member
    cases last with
    | false => exact member
    | true => exact List.mem_of_mem_erase member
  have memory : (s.write write landed last).operations.finished = s.operations.finished := by
    cases last with
    | false => rfl
    | true => rfl
  by_cases mine : landed = true ∧ write.command = c
  · obtain ⟨rfl, mine⟩ := mine
    obtain ⟨record, found⟩ := Option.isSome_iff_exists.mp (faithful.written write pending mine)
    have rows : (s.write write true last).rows c = some (record.finish write.finished) := by
      simp [RelayJournal.write, finishOperation, mine, found]
    have truth := faithful.writes write pending mine
    refine ⟨?_, ?_, fun _ _ _ => by rw [rows]; rfl, fun _ => by rw [rows]; rfl, ?_, ?_, ?_⟩
    · intro r request at_r request_mine
      have fresh := faithful.starting r request at_r request_mine
      rw [found] at fresh
      cases fresh
    · intro r request at_r request_mine
      exact absurd mine ((faithful.taken r request at_r request_mine).2.1 write pending)
    · intro record' found'
      obtain rfl : record.finish write.finished = record' :=
        Option.some.inj (rows.symm.trans found')
      exact ⟨fun h => ⟨((faithful.row record found).success h).1, Or.inr (truth.success h)⟩,
        fun h => truth.failure h record⟩
    · exact fun w member w_mine => (faithful.writes w (still w member) w_mine).congr rfl
    · intro entry remembered
      rw [memory] at remembered
      exact (faithful.remembered entry remembered).congr rfl rfl
  · refine faithful.frame (fun _ _ at_q _ _ _ => at_q) ?_ still rfl rfl (fun _ found => Or.inl (memory ▸ found))
    cases landed with
    | false => rfl
    | true =>
      have other : write.command ≠ c := fun same => mine ⟨rfl, same⟩
      simp [RelayJournal.write, finishOperation, Function.update_of_ne (Ne.symm other)]

/-- A row that is there after the journal is pruned is the one from before. -/
theorem pruned_kept (kept : (s.rows c).isSome → ((s.prune now).rows c).isSome) : (s.prune now).rows c = s.rows c := by
  cases found : s.rows c with
  | none => simp [prune, pruneOperations, found]
  | some record =>
    rw [found] at kept
    simpa [prune, pruneOperations, found, Option.filter] using kept rfl

/-! ## When the answers stay true -/

/-- The step doesn't answer for a change that succeeded from a journal that can't be read, or that doesn't have its
outcome yet. -/
def Undisturbed (c : CommandId) (s : RelayJournal) : JournalEvent → Prop
  | .readFailed r _ _ _ =>
      ∀ taken ∈ s.requests r, taken.request.command = c → s.ended c ≠ some true
  | .read r _ =>
      ∀ taken ∈ s.requests r, taken.request.command = c → s.ended c = some true →
        ∀ record ∈ s.rows c, record.status ≠ .running
  | .lookupRead l =>
      ∀ taken ∈ s.lookups l, taken.command = c → s.ended c = some true → ∀ record ∈ s.rows c, record.status ≠ .running
  | _ => True

instance (c : CommandId) (s : RelayJournal) (e : JournalEvent) : Decidable (Undisturbed c s e) := by
  cases e <;> unfold Undisturbed <;> infer_instance

/-- Nothing to tell of a change that hasn't ended. -/
theorem Faithful.not_ended (faithful : Faithful c s) (fresh : s.rows c = none) : s.ended c = none := by
  by_contra some_ended
  have row := faithful.ended some_ended
  rw [fresh] at row
  cases row

theorem Faithful.read_truth (faithful : Faithful c s) (undisturbed : Undisturbed c s (.read r now))
    (own : s.requests r = some ⟨request, .reading⟩) (mine : request.command = c)
    {prior : RelayOperationRecord} (found : s.rows c = some prior) :
    Truth s c ⟨prior.payloadSha256, recordedOutcome prior⟩ := by
  apply (faithful.row prior found).settled
  intro ended
  exact undisturbed _ own mine ended prior found

theorem readFailed_truth {message : String} {aborted : Bool}
    (undisturbed : Undisturbed c s (.readFailed r message aborted now))
    (own : s.requests r = some ⟨request, .reading⟩) (mine : request.command = c) :
    Truth s c ⟨request.digest, .failed (controlFailureFor (.unexpected message) false)⟩ where
  success ended := absurd ended (undisturbed _ own mine)
  failure _ := rfl

theorem Faithful.complete_truth (faithful : Faithful c s) (once : Once c s)
    (own : s.requests r = some ⟨request, .running⟩) (exit : Except ExecutionFailure String)
    (mine : request.command = c) :
    Truth { s with ended := Function.update s.ended request.command (some exit.toBool) } c
      ⟨request.digest, outcomeOf (exit.mapError ExecutionFailure.cause)⟩ := by
  subst mine
  refine ⟨fun ended => ⟨once.running r request own rfl, ?_⟩, fun ended => ?_⟩
  · cases exit with
    | ok payload => exact ⟨true, payload, rfl⟩
    | error failure => simp [Except.toBool] at ended
  · cases exit with
    | ok payload => simp [Except.toBool] at ended
    | error failure => exact executionFailure_tellsSuccess failure false

/-- Every step that keeps the row, and doesn't answer from a journal in doubt, keeps `Faithful`. -/
theorem Faithful.next (faithful : Faithful c s) (once : Once c s) {e : JournalEvent}
    (kept : KeepsRow c s e) (undisturbed : Undisturbed c s e) (step : s.next e = some s') :
    Faithful c s' := by
  have row := kept s' step
  cases stepped_of_next step with
  | @request r request now _ =>
    have idle : ∀ phase : RequestPhase, phase.claims = false → Faithful c (s.put r request phase) :=
      fun phase none_held => faithful.frame (fun _ _ at_q _ claims _ => claims_of_put none_held at_q claims) rfl
        (fun _ member => member) rfl rfl (fun _ found => Or.inl found)
    rcases journaled_cases s r request now with
      ⟨_, _, _, step⟩ | ⟨_, _, _, _, _, step⟩ | ⟨_, _, _, step⟩ | ⟨_, finished, forgets, step⟩
    · rw [step]; exact idle _ rfl
    · rw [step]; exact idle _ rfl
    · rw [step]; exact idle _ rfl
    rw [step]
    refine faithful.frame ?_ rfl (fun _ member => member) rfl rfl (fun entry found => Or.inl (forgets _ _ found))
    intro q taken at_q _ _ past
    by_cases same : q = r
    · subst same
      obtain rfl : (⟨request, .reading⟩ : TakenRequest) = taken := by
        simpa [RelayJournal.claim] using at_q
      exact absurd rfl past
    · simpa [RelayJournal.claim, Function.update_of_ne same] using at_q
  | @read r request now own =>
    unfold readPrior
    split
    · rename_i prior found
      exact faithful.settle_put rfl (fun mine => faithful.read_truth undisturbed own mine (mine ▸ found))
    rename_i unknown
    by_cases mine : request.command = c
    · refine ⟨?_, ?_, faithful.written, faithful.ended, ?_, ?_, ?_⟩
      · exact fun _ _ _ _ => mine ▸ unknown
      · intro q other at_q other_mine
        refine faithful.taken q other (at_q.imp ?_ ?_) other_mine
        · exact fun h => queued_of_put (by simp) h rfl
        · intro h
          by_cases same : q = r
          · subst same; simp at h
          · simpa [Function.update_of_ne same] using h
      · exact fun record found => (faithful.row record found).congr rfl rfl
      · exact fun write member h => (faithful.writes write member h).congr rfl
      · exact fun entry found => (faithful.remembered entry found).congr rfl rfl
    · exact faithful.frame (fun _ _ at_q taken_mine _ _ => claims_of_put_other mine at_q taken_mine) rfl
        (fun _ member => member) rfl rfl (fun _ found => Or.inl found)
  | readFailed own =>
    exact faithful.settle_put rfl (readFailed_truth undisturbed own)
  | @start r request now own =>
    by_cases mine : request.command = c
    · have fresh := faithful.starting r request own mine
      subst mine
      refine faithful.record fresh ⟨request.digest, .running, none, none, false, now⟩ ?_ rfl rfl rfl ?_
      · simp [startOperation, fresh]
      intro q taken at_q taken_mine claims
      by_cases same : q = r
      · subst same
        obtain rfl : (⟨request, .queued⟩ : TakenRequest) = taken := by simpa using at_q
        exact Or.inr ⟨rfl, rfl⟩
      · have before : s.requests q = some taken := by
          simpa [Function.update_of_ne same] using at_q
        exact absurd (once.unique before taken_mine claims own rfl rfl) same
    · refine faithful.frame (fun _ _ at_q taken_mine _ _ =>
        claims_of_put_other mine at_q taken_mine) ?_ (fun _ member => member) rfl rfl
        (fun _ found => Or.inl found)
      exact startOperation_other s.rows mine request.digest now
  | @startFailed r request message committed aborted now own =>
    have settled : Faithful c (s.failBefore r request (.unexpected message) aborted now) :=
      faithful.settle_put rfl fun mine =>
        .of_running (faithful.not_ended (faithful.starting r request own mine))
    by_cases mine : request.command = c
    · cases committed with
      | false => exact settled
      | true =>
        have fresh := faithful.starting r request own mine
        subst mine
        refine settled.record fresh ⟨request.digest, .running, none, none, false, now⟩ ?_ rfl rfl rfl ?_
        · simp [failBefore, startOperation, fresh]
        · intro q taken at_q taken_mine claims
          rw [once.unclaimed own rfl rfl rfl at_q taken_mine] at claims
          cases claims
    · refine settled.frame (fun _ _ at_q _ _ _ => at_q) ?_ (fun _ member => member) rfl rfl
        (fun _ found => Or.inl found)
      cases committed with
      | false => rfl
      | true => exact startOperation_other s.rows mine request.digest now
  | @begin r request own =>
    by_cases mine : request.command = c
    · have queued := faithful.taken r request (Or.inl own) mine
      have not_ended := queued.1
      have running : ∀ ended : Bool, (s.begin r request).ended c ≠ some ended := by
        simp [RelayJournal.begin, not_ended]
      refine ⟨?_, ?_, faithful.written, faithful.ended, ?_, ?_, ?_⟩
      · intro q other at_q other_mine
        refine faithful.starting q other ?_ other_mine
        by_cases same : q = r
        · subst same; simp [RelayJournal.begin] at at_q
        · simpa [RelayJournal.begin, Function.update_of_ne same] using at_q
      · intro q other at_q other_mine
        by_cases same : q = r
        · subst same
          obtain rfl : request = other := by
            simpa [RelayJournal.begin] using at_q
          exact queued
        · refine faithful.taken q other ?_ other_mine
          simpa [RelayJournal.begin, Function.update_of_ne same] using at_q
      · exact fun _ _ => ⟨fun h => absurd h (running _), fun h => absurd h (running _)⟩
      · exact fun _ _ _ => ⟨fun h => absurd h (running _), fun h => absurd h (running _)⟩
      · exact fun _ _ => .of_running not_ended
    · exact faithful.frame (fun _ _ at_q taken_mine _ _ =>
        claims_of_put_other mine at_q taken_mine) rfl (fun _ member => member) rfl
        (by simp [RelayJournal.begin, Function.update_of_ne (Ne.symm mine)])
        (fun _ found => Or.inl found)
  | @reject r request error aborted now own =>
    exact faithful.finish once (Or.inl own) (fun _ => rfl)
      (fun mine => .of_running (faithful.taken r request (Or.inl own) mine).1)
  | @complete r request exit aborted now own =>
    exact faithful.finish once (Or.inr own) (fun other => Function.update_of_ne (Ne.symm other) _ _)
      (faithful.complete_truth once own exit)
  | write pending => exact faithful.write pending _ _
  | drop _ =>
    exact faithful.frame (fun _ _ at_q _ claims _ => claims_of_put rfl at_q claims) rfl
      (fun _ member => member) rfl rfl (fun _ found => Or.inl found)
  | @lookup l command now _ =>
    rcases lookupOperation_cases s l command now with
      step | ⟨_, _, step⟩ | ⟨_, finished, forgets, step⟩
    · rw [step]
      exact faithful.frame (fun _ _ at_q _ _ _ => at_q) rfl (fun _ member => member) rfl rfl
        (fun _ found => Or.inl found)
    · rw [step]
      exact faithful.frame (fun _ _ at_q _ _ _ => at_q) rfl (fun _ member => member) rfl rfl
        (fun _ found => Or.inl found)
    · rw [step]
      exact faithful.frame (fun _ _ at_q _ _ _ => at_q) rfl (fun _ member => member) rfl rfl
        (fun _ found => Or.inl (forgets _ _ found))
  | lookupRead _ =>
    exact faithful.frame (fun _ _ at_q _ _ _ => at_q) rfl (fun _ member => member) rfl rfl (fun _ found => Or.inl found)
  | lookupFailed _ =>
    exact faithful.frame (fun _ _ at_q _ _ _ => at_q) rfl (fun _ member => member) rfl rfl (fun _ found => Or.inl found)
  | restart =>
    refine ⟨?_, ?_, ?_, fun h => absurd rfl h, ?_, ?_, fun _ _ => .of_running rfl⟩
    · exact fun _ _ at_q => by simp [restart] at at_q
    · exact fun _ _ at_q => by simp [restart] at at_q
    · exact fun _ member => by simp [restart] at member
    · exact fun _ _ => ⟨fun h => by simp [restart] at h, fun h => by simp [restart] at h⟩
    · exact fun _ member => by simp [restart] at member
  | @prune now =>
    refine faithful.frame (fun _ _ at_q _ _ _ => at_q) ?_ (fun _ member => member) rfl rfl (fun _ found => Or.inl found)
    exact pruned_kept row

end RelayJournal

end Kiln.Relay
