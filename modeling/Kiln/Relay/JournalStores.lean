import Kiln.Relay.JournalReplies

/-!
# What a journal knows of an ID

Memory, the table and the writes still to come each know an outcome of an ID. What they know after
a step is what they knew before, that a change was cut off, or how a request under the ID ended in
that step; and a request that is under way has its row to itself.
-/

namespace Kiln.Relay
open Kiln.Lib Kiln.Operations OperationRows Function

/-- A failure that says the change didn't run. -/
def ControlFailure.withdrawn (failure : ControlFailure) : Bool :=
  failure.code = "operation_withdrawn"

def Reply.withdrawn : Reply → Bool
  | response _ => false
  | error failure => failure.withdrawn

def RecordedOutcome.withdrawn : RecordedOutcome → Bool
  | failed failure => failure.withdrawn
  | _ => false

def RecordedOutcome.isSuccess : RecordedOutcome → Bool
  | succeeded _ _ => true
  | _ => false

@[simp] theorem trimmed_tellsSuccess (outcome : RecordedOutcome) :
    outcome.trimmed.tellsSuccess = outcome.tellsSuccess := by
  cases outcome with
  | succeeded kept payload =>
    simp only [RecordedOutcome.trimmed]
    split <;> rfl
  | _ => rfl

@[simp] theorem trimmed_withdrawn (outcome : RecordedOutcome) : outcome.trimmed.withdrawn = outcome.withdrawn := by
  cases outcome with
  | succeeded kept payload =>
    simp only [RecordedOutcome.trimmed]
    split <;> rfl
  | _ => rfl

@[simp] theorem trimmed_isSuccess (outcome : RecordedOutcome) : outcome.trimmed.isSuccess = outcome.isSuccess := by
  cases outcome with
  | succeeded kept payload =>
    simp only [RecordedOutcome.trimmed]
    split <;> rfl
  | _ => rfl

theorem trimmed_interrupted {outcome : RecordedOutcome} (cut : outcome = .interrupted) :
    outcome.trimmed = .interrupted := by
  rw [cut]
  rfl

/-- What a repeat is told is what is known of the change under its ID, where that is the same. -/
theorem repeatReply_tells {request : ChangeRequest} {earlier : SettledOperation} :
    ((repeatReply request earlier).tellsSuccess = true →
      earlier.digest = request.digest ∧ earlier.outcome.tellsSuccess = true) ∧
    ((repeatReply request earlier).withdrawn = true → earlier.outcome.withdrawn = true) := by
  obtain ⟨digest, outcome⟩ := earlier
  unfold repeatReply
  by_cases same : digest = request.digest
  · simp only [same, if_true]
    cases outcome with
    | succeeded kept payload =>
      refine ⟨fun _ => ⟨trivial, rfl⟩, fun told => ?_⟩
      cases kept with
      | true =>
        simp only [settleRecorded, sendResponse] at told
        split at told
        · exact absurd told (by simp [Reply.withdrawn, ControlFailure.withdrawn, responseTooLarge])
        · exact absurd told (by simp [Reply.withdrawn])
      | false => cases told
    | failed failure => exact ⟨fun told => ⟨trivial, told⟩, fun told => told⟩
    | interrupted => exact ⟨fun told => absurd told Bool.false_ne_true, fun told => absurd told Bool.false_ne_true⟩
  · simp only [same, if_false]
    exact ⟨fun told => absurd told Bool.false_ne_true, fun told => absurd told Bool.false_ne_true⟩

/-- A change is turned away as withdrawn only by its own ticket. -/
theorem controlFailureFor_withdrawn {cause : ControlCause} {aborted : Bool}
    (plain : ∀ failure, cause = .recorded failure → failure.withdrawn = false)
    (withdrawn : (controlFailureFor cause aborted).withdrawn = true) :
    ∃ error : LaneRejectedError, cause = .laneRejected error ∧ error.reason = .cancelled := by
  cases cause with
  | recorded failure => exact absurd withdrawn (by simp [controlFailureFor, plain failure rfl])
  | laneRejected error =>
    obtain ⟨reason, message, blockedBy⟩ := error
    cases reason with
    | cancelled => exact ⟨_, rfl, rfl⟩
    | _ => cases aborted <;> exact absurd withdrawn Bool.false_ne_true
  | notFound message => cases aborted <;> exact absurd withdrawn Bool.false_ne_true
  | installationReplace code message =>
    cases code <;> cases aborted <;> exact absurd withdrawn Bool.false_ne_true
  | unexpected message => cases aborted <;> exact absurd withdrawn Bool.false_ne_true

/-- The journal has the ID, and nothing under it is on its way to run. -/
def RelayJournal.Closed (c : CommandId) (s : RelayJournal) : Prop :=
  (s.rows c).isSome ∧ ∀ r taken, s.requests r = some taken → ¬ RelayJournal.Past c taken

/-- An outcome, and the digest it is for, that memory, the table or a write to come has of an ID. -/
inductive RelayJournal.Stored (c : CommandId) (s : RelayJournal) : String → RecordedOutcome → Prop
  | row {record} (found : s.rows c = some record) : Stored c s record.payloadSha256 (recordedOutcome record)
  | write {record write} (found : s.rows c = some record) (member : write ∈ s.operations.writes)
      (mine : write.command = c) :
      Stored c s record.payloadSha256 (recordedOutcome (record.finish write.finished))
  | memory {entry} (found : s.operations.finished.get c.key = some entry) : Stored c s entry.digest entry.outcome

namespace RelayJournal

variable {c : CommandId} {s s' : RelayJournal} {r : Nat} {request : ChangeRequest} {phase : RequestPhase}

/-! ## Nothing under a closed ID runs -/

variable {taken : TakenRequest} {q : Nat}

theorem past_of_settle_put {settled : SettledOperation} (idle : phase.claims = false)
    (at_q : update (fun q => (s.requests q).map (·.resume r settled)) r
      (some ⟨request, phase⟩) q = some taken) (past : Past c taken) :
    s.requests q = some taken ∧ q ≠ r :=
  claims_of_settle_put idle at_q past.2.1

variable {claimed : RequestPhase}

theorem past_of_own (own : s.requests r = some ⟨request, claimed⟩) (claims : claimed.claims = true)
    (advanced : claimed ≠ .reading)
    (at_q : update s.requests r (some ⟨request, phase⟩) q = some taken)
    (past : Past c taken) : ∃ before, s.requests q = some before ∧ Past c before := by
  by_cases here : q = r
  · subst here
    obtain rfl : (⟨request, phase⟩ : TakenRequest) = taken := by simpa using at_q
    exact ⟨_, own, past.1, claims, advanced⟩
  · exact ⟨taken, by simpa [update_of_ne here] using at_q, past⟩

theorem past_of_put_before (idle : phase.claims = false ∨ phase = .reading)
    (at_q : update s.requests r (some ⟨request, phase⟩) q = some taken)
    (past : Past c taken) : s.requests q = some taken := by
  by_cases here : q = r
  · subst here
    obtain rfl : (⟨request, phase⟩ : TakenRequest) = taken := by simpa using at_q
    rcases idle with idle | reading
    · exact absurd past.2.1 (by simp [idle])
    · exact absurd reading past.2.2
  · simpa [update_of_ne here] using at_q

variable {e : JournalEvent}

/-- What is past its read after a step was so before, or read that the journal knows nothing. -/
theorem past_of_next (step : s.next e = some s') (at_q : s'.requests q = some taken) (past : Past c taken) :
    (∃ before, s.requests q = some before ∧ Past c before) ∨ s.rows c = none := by
  have same : s.requests q = some taken → ∃ before, s.requests q = some before ∧ Past c before :=
    fun found => ⟨taken, found, past⟩
  cases stepped_of_next step with
  | @request r request now _ =>
    left
    rcases journaled_cases s r request now with
      ⟨_, _, _, step⟩ | ⟨_, _, _, _, _, step⟩ | ⟨_, _, _, step⟩ | ⟨_, _, _, step⟩
    · rw [step] at at_q
      exact same (past_of_put_before (.inl rfl) at_q past)
    · rw [step] at at_q
      exact same (past_of_put_before (.inl rfl) at_q past)
    · rw [step] at at_q
      exact same (past_of_put_before (.inl rfl) at_q past)
    · rw [step] at at_q
      exact same (past_of_put_before (.inr rfl) at_q past)
  | @read r request now own =>
    unfold readPrior at at_q
    split at at_q
    · exact .inl (same (past_of_settle_put rfl at_q past).1)
    rename_i unknown
    by_cases here : q = r
    · subst here
      obtain rfl : (⟨request, .starting⟩ : TakenRequest) = taken := by simpa using at_q
      exact .inr (past.1 ▸ unknown)
    · exact .inl (same (by simpa [update_of_ne here] using at_q))
  | readFailed _ => exact .inl (same (past_of_settle_put rfl at_q past).1)
  | start own => exact .inl (past_of_own own rfl (by simp) at_q past)
  | startFailed _ => exact .inl (same (past_of_settle_put rfl at_q past).1)
  | begin own => exact .inl (past_of_own own rfl (by simp) at_q past)
  | reject _ => exact .inl (same (past_of_settle_put rfl at_q past).1)
  | complete _ => exact .inl (same (past_of_settle_put rfl at_q past).1)
  | drop _ => exact .inl (same (past_of_put_before (.inl rfl) at_q past))
  | @lookup l command now _ =>
    left
    rcases lookupOperation_cases s l command now with step | ⟨_, _, step⟩ | ⟨_, _, _, step⟩
    all_goals
      rw [step] at at_q
      exact same at_q
  | restart => exact absurd at_q (by simp [restart])
  | write _ => exact .inl (same at_q)
  | lookupRead _ => exact .inl (same at_q)
  | lookupFailed _ => exact .inl (same at_q)
  | prune => exact .inl (same at_q)

theorem Closed.next (closed : s.Closed c) (kept : KeepsRow c s e) (step : s.next e = some s') :
    s'.Closed c := by
  refine ⟨kept s' step closed.1, fun q taken at_q past => ?_⟩
  rcases past_of_next step at_q past with ⟨before, at_before, was_past⟩ | unknown
  · exact closed.2 q before at_before was_past
  · have row := closed.1
    rw [unknown] at row
    cases row

/-- Nothing under a closed ID begins. -/
theorem Closed.started (closed : s.Closed c) (step : s.next e = some s') : s'.started c = s.started c := by
  cases stepped_of_next step with
  | @request r request now _ =>
    rcases journaled_cases s r request now with
      ⟨_, _, _, step⟩ | ⟨_, _, _, _, _, step⟩ | ⟨_, _, _, step⟩ | ⟨_, _, _, step⟩
    all_goals
      rw [step]
      rfl
  | @read r request now own =>
    unfold readPrior
    split
    · rfl
    · rfl
  | @begin r request own =>
    have other : request.command ≠ c := fun mine => closed.2 r _ own ⟨mine, rfl, by simp⟩
    simp [RelayJournal.begin, update_of_ne (Ne.symm other)]
  | @lookup l command now _ =>
    rcases lookupOperation_cases s l command now with step | ⟨_, _, step⟩ | ⟨_, _, _, step⟩
    all_goals
      rw [step]
      rfl
  | _ => rfl

/-! ## Where the requests under an ID stand -/

/-- What is under way under an ID has its row, or the lack of one, to itself. -/
structure Placed (c : CommandId) (s : RelayJournal) : Prop where
  starting : ∀ r request, s.requests r = some ⟨request, .starting⟩ → request.command = c → s.rows c = none
  taken : ∀ r request, s.requests r = some ⟨request, .queued⟩ ∨
    s.requests r = some ⟨request, .running⟩ → request.command = c →
    (∀ write ∈ s.operations.writes, write.command ≠ c) ∧
    ∃ record, s.rows c = some record ∧ record.status = .running ∧ record.payloadSha256 = request.digest
  written : ∀ write ∈ s.operations.writes, write.command = c → (s.rows c).isSome
  /-- A claim is made where nothing is remembered. -/
  claimed : ∀ live, s.operations.running.get c.key = some live → s.operations.finished.get c.key = none

theorem Placed.initial : Placed c {} where
  starting _ _ at_r := by simp at at_r
  taken _ _ at_r := by simp at at_r
  written _ member := by simp at member
  claimed _ found := by simp at found

/-- A step that takes nothing past its read, and writes nothing, keeps `Placed`. -/
theorem Placed.frame (placed : Placed c s)
    (past : ∀ q taken, s'.requests q = some taken → Past c taken → s.requests q = some taken)
    (rows : s'.rows c = s.rows c)
    (writes : ∀ write ∈ s'.operations.writes, write ∈ s.operations.writes)
    (claimed : ∀ live, s'.operations.running.get c.key = some live →
      s'.operations.finished.get c.key = none) : Placed c s' where
  starting q request at_q mine := by
    rw [rows]
    exact placed.starting q request (past q _ at_q ⟨mine, rfl, by simp⟩) mine
  taken q request at_q mine := by
    rw [rows]
    obtain ⟨unwritten, row⟩ := placed.taken q request
      (at_q.imp (past q _ · ⟨mine, rfl, by simp⟩) (past q _ · ⟨mine, rfl, by simp⟩)) mine
    exact ⟨fun write member => unwritten write (writes write member), row⟩
  written write member mine := by
    rw [rows]
    exact placed.written write (writes write member) mine
  claimed := claimed

/-- What isn't remembered isn't later, unless a claim settles. -/
theorem Placed.claimed_of_forgets (placed : Placed c s) {finished : OrderedMap String FinishedOperation}
    (forgets : Forgets s.operations.finished finished) {live : LiveOperation}
    (found : s.operations.running.get c.key = some live) : finished.get c.key = none := by
  cases remembered : finished.get c.key with
  | none => rfl
  | some entry =>
    have before := forgets c.key entry remembered
    rw [placed.claimed live found] at before
    cases before

variable {outcome : RecordedOutcome} {now : Nat} {madeWith : String}

theorem Placed.claimed_of_settle (placed : Placed c s) {command : CommandId} {live : LiveOperation}
    (found : (s.settle r command madeWith outcome now).operations.running.get c.key = some live) :
    (s.settle r command madeWith outcome now).operations.finished.get c.key = none := by
  simp only [settle_running, OrderedMap.get_delete] at found
  split at found
  · cases found
  rename_i other
  cases remembered : (s.settle r command madeWith outcome now).operations.finished.get c.key with
  | none => rfl
  | some entry =>
    rcases settle_finished (r := r) remembered with ⟨same, -⟩ | ⟨-, before⟩
    · exact absurd same.symm other
    · rw [placed.claimed live found] at before
      cases before

theorem Placed.settle_put (placed : Placed c s) (idle : phase.claims = false) :
    Placed c ((s.settle r request.command madeWith outcome now).put r request phase) :=
  placed.frame (fun _ _ at_q past => (past_of_settle_put idle at_q past).1) rfl
    (fun _ member => member) (fun _ found => placed.claimed_of_settle (r := r) found)

/-- What is remembered of an ID is forgotten as it is claimed. -/
theorem recentOperation_none {operations : OperationRegistry} {key : String}
    (lapsed : (operations.recentOperation key now).1 = none) :
    (operations.recentOperation key now).2.finished.get key = none := by
  unfold OperationRegistry.recentOperation at lapsed ⊢
  cases found : operations.finished.get key with
  | none => exact found
  | some entry =>
    simp only [found] at lapsed ⊢
    split at lapsed
    · cases lapsed
    · rename_i late
      simp [late]

theorem Placed.journaled (placed : Placed c s) (now : Nat) :
    Placed c (s.journaled r request now) := by
  have idle : ∀ phase : RequestPhase, phase.claims = false → Placed c (s.put r request phase) :=
    fun phase none_held => placed.frame (fun _ _ at_q past => past_of_put_before (.inl none_held) at_q past) rfl
      (fun _ member => member) placed.claimed
  unfold RelayJournal.journaled
  dsimp only
  split
  · split
    · exact idle _ rfl
    · split
      · exact idle _ rfl
      · exact idle _ rfl
  rcases recentOperation_cases s.operations request.command.key now with
    ⟨entry, found, recalled⟩ | ⟨finished, forgets, recalled⟩
  · rw [recalled]
    exact idle _ rfl
  · have forgotten := recentOperation_none (congrArg Prod.fst recalled)
    rw [recalled] at forgotten ⊢
    refine placed.frame (fun _ _ at_q past => past_of_put_before (.inr rfl) at_q past) rfl
      (fun _ member => member) (fun live found => ?_)
    simp only [claim, put_operations, OrderedMap.get_set] at found ⊢
    split at found
    · rename_i same
      exact same ▸ forgotten
    · exact placed.claimed_of_forgets forgets found

/-- A change is recorded that the journal didn't know, as its claimant goes on or settles. -/
theorem Placed.record (placed : Placed c s) (record : RelayOperationRecord)
    (fresh : s.rows c = none) (rows : s'.rows c = some record)
    (running : record.status = .running)
    (writes : ∀ write ∈ s'.operations.writes, write ∈ s.operations.writes)
    (past : ∀ q taken, s'.requests q = some taken → Past c taken →
      taken.phase = .queued ∧ record.payloadSha256 = taken.request.digest)
    (claimed : ∀ live, s'.operations.running.get c.key = some live →
      s'.operations.finished.get c.key = none) : Placed c s' := by
  have unwritten : ∀ write ∈ s'.operations.writes, write.command ≠ c := by
    intro write member mine
    have row := placed.written write (writes write member) mine
    rw [fresh] at row
    cases row
  refine ⟨?_, ?_, fun _ _ _ => by rw [rows]; rfl, claimed⟩
  · intro q request at_q mine
    cases (past q _ at_q ⟨mine, rfl, by simp⟩).1
  · intro q request at_q mine
    refine ⟨unwritten, record, rows, running, ?_⟩
    rcases at_q with at_q | at_q
    · exact (past q _ at_q ⟨mine, rfl, by simp⟩).2
    · cases (past q _ at_q ⟨mine, rfl, by simp⟩).1

/-- A change in its lane ends or is turned away, and nothing else is past its read. -/
theorem Placed.finish (placed : Placed c s) (once : Once c s)
    (own : s.requests r = some ⟨request, claimed⟩) (claims : claimed.claims = true)
    (lane : claimed = .queued ∨ claimed = .running) {exit : Except ControlCause String}
    {aborted : Bool} {ended : CommandId → Option Bool} :
    Placed c ({ s with ended := ended }.finish r request exit aborted now) := by
  have left : ∀ q taken, ({ s with ended := ended }.finish r request exit aborted now).requests q =
      some taken → Past c taken → s.requests q = some taken ∧ q ≠ r :=
    fun _ _ at_q past => past_of_settle_put (s := s) rfl at_q past
  have unclaimed : ∀ live, ({ s with ended := ended }.finish r request exit aborted
      now).operations.running.get c.key = some live →
      ({ s with ended := ended }.finish r request exit aborted now).operations.finished.get c.key = none :=
    fun live found => placed.claimed_of_settle (r := r) found
  by_cases mine : request.command = c
  · have none_left : ∀ q taken, ({ s with ended := ended }.finish r request exit aborted
        now).requests q = some taken → ¬ Past c taken := by
      intro q taken at_q past
      obtain ⟨before, apart⟩ := left q taken at_q past
      exact apart (once.unique before past.1 past.2.1 own mine claims)
    have row : (s.rows c).isSome := by
      have queued : s.requests r = some ⟨request, .queued⟩ ∨ s.requests r = some ⟨request, .running⟩ := by
        rcases lane with rfl | rfl
        · exact .inl own
        · exact .inr own
      obtain ⟨-, record, found, -⟩ := placed.taken r request queued mine
      rw [found]
      rfl
    refine ⟨?_, ?_, fun _ _ _ => row, unclaimed⟩
    · exact fun q other at_q other_mine => absurd ⟨other_mine, rfl, by simp⟩ (none_left q _ at_q)
    · intro q other at_q other_mine
      rcases at_q with at_q | at_q
      · exact absurd ⟨other_mine, rfl, by simp⟩ (none_left q _ at_q)
      · exact absurd ⟨other_mine, rfl, by simp⟩ (none_left q _ at_q)
  · refine ⟨?_, ?_, ?_, unclaimed⟩
    · exact fun q other at_q other_mine =>
        placed.starting q other (left q _ at_q ⟨other_mine, rfl, by simp⟩).1 other_mine
    · intro q other at_q other_mine
      obtain ⟨unwritten, row⟩ := placed.taken q other (at_q.imp (fun h => (left q _ h ⟨other_mine, rfl, by simp⟩).1)
          (fun h => (left q _ h ⟨other_mine, rfl, by simp⟩).1)) other_mine
      refine ⟨fun write member => ?_, row⟩
      rcases List.mem_append.mp member with before | new
      · exact unwritten write before
      · rw [List.mem_singleton.mp new]
        exact mine
    · intro write member write_mine
      rcases List.mem_append.mp member with before | new
      · exact placed.written write before write_mine
      · rw [List.mem_singleton.mp new] at write_mine
        exact absurd write_mine mine

theorem write_finished (write : OutcomeWrite) (landed last : Bool) :
    (s.write write landed last).operations.finished = s.operations.finished := by
  cases last <;> rfl

theorem write_running (write : OutcomeWrite) (landed last : Bool) :
    (s.write write landed last).operations.running = s.operations.running := by
  cases last <;> rfl

theorem mem_write {write other : OutcomeWrite} {landed last : Bool}
    (member : other ∈ (s.write write landed last).operations.writes) :
    other ∈ s.operations.writes := by
  cases last with
  | false => exact member
  | true => exact List.mem_of_mem_erase member

theorem write_row (write : OutcomeWrite) (landed last : Bool) :
    (write.command = c ∧ (s.write write landed last).rows c = (s.rows c).map (·.finish write.finished)) ∨
    (s.write write landed last).rows c = s.rows c := by
  cases landed with
  | false => exact .inr rfl
  | true =>
    by_cases mine : write.command = c
    · left
      refine ⟨mine, ?_⟩
      simp [RelayJournal.write, finishOperation, mine]
    · right
      simp [RelayJournal.write, finishOperation, update_of_ne (Ne.symm mine)]

theorem Placed.write (placed : Placed c s) {write : OutcomeWrite}
    (pending : write ∈ s.operations.writes) (landed last : Bool) :
    Placed c (s.write write landed last) := by
  have unclaimed : ∀ live, (s.write write landed last).operations.running.get c.key = some live →
      (s.write write landed last).operations.finished.get c.key = none := by
    rw [write_running, write_finished]
    exact placed.claimed
  rcases write_row (s := s) (c := c) write landed last with ⟨mine, rows⟩ | rows
  · have row := placed.written write pending mine
    refine ⟨?_, ?_, ?_, unclaimed⟩
    · intro r request at_r request_mine
      rw [placed.starting r request at_r request_mine] at row
      cases row
    · intro r request at_r request_mine
      exact absurd mine ((placed.taken r request at_r request_mine).1 write pending)
    · intro _ _ _
      rw [rows]
      simpa using row
  · exact placed.frame (fun _ _ at_q _ => at_q) rows (fun _ member => mem_write member) unclaimed

theorem past_of_put_other (other : request.command ≠ c)
    (at_q : update s.requests r (some ⟨request, phase⟩) q = some taken)
    (past : Past c taken) : s.requests q = some taken := by
  by_cases here : q = r
  · subst here
    obtain rfl : (⟨request, phase⟩ : TakenRequest) = taken := by simpa using at_q
    exact absurd past.1 other
  · simpa [update_of_ne here] using at_q

/-- The journal knows nothing of the ID of the request that read it. -/
theorem Placed.proceed (placed : Placed c s) (once : Once c s)
    (own : s.requests r = some ⟨request, .reading⟩) (unknown : s.rows request.command = none)
    {now : Nat} : Placed c (s.readPrior r request now) := by
  unfold readPrior
  rw [unknown]
  dsimp only
  refine ⟨?_, ?_, placed.written, ?_⟩
  · intro q other at_q mine
    by_cases here : q = r
    · subst here
      obtain rfl : request = other := by
        simpa using congrArg (Option.map TakenRequest.request) at_q
      exact mine ▸ unknown
    · exact placed.starting q other (by simpa [update_of_ne here] using at_q) mine
  · intro q other at_q mine
    refine placed.taken q other (at_q.imp ?_ ?_) mine
    · intro found
      by_cases here : q = r
      · subst here
        simp at found
      · simpa [update_of_ne here] using found
    · intro found
      by_cases here : q = r
      · subst here
        simp at found
      · simpa [update_of_ne here] using found
  · intro live found
    simp only [put_operations, OrderedMap.get_set, CommandId.key_inj] at found ⊢
    split at found
    · rename_i mine
      obtain ⟨held, claimed, _⟩ := once.held r _ own mine rfl
      exact placed.claimed held claimed
    · exact placed.claimed live found

/-- The request that read the journal is recorded in it. -/
theorem Placed.start (placed : Placed c s) (once : Once c s)
    (own : s.requests r = some ⟨request, .starting⟩) {now : Nat} :
    Placed c ({ s with rows := s.rows.startOperation request.command request.digest now }.put
      r request .queued) := by
  by_cases mine : request.command = c
  · have fresh := placed.starting r request own mine
    subst mine
    refine placed.record ⟨request.digest, .running, none, none, false, now⟩ fresh ?_ rfl
      (fun _ member => member) ?_ placed.claimed
    · simp [startOperation, fresh]
    intro q taken at_q past
    by_cases here : q = r
    · subst here
      obtain rfl : (⟨request, .queued⟩ : TakenRequest) = taken := by simpa using at_q
      exact ⟨rfl, rfl⟩
    · have before : s.requests q = some taken := by
        simpa [update_of_ne here] using at_q
      exact absurd (once.unique before past.1 past.2.1 own rfl rfl) here
  · exact placed.frame (fun _ _ at_q past => past_of_put_other mine at_q past)
      (startOperation_other s.rows mine _ _) (fun _ member => member) placed.claimed

/-- The record fails, whether or not it reached the table. -/
theorem Placed.startFailed (placed : Placed c s) (once : Once c s)
    (own : s.requests r = some ⟨request, .starting⟩) {cause : ControlCause} {committed aborted : Bool}
    {now : Nat} :
    Placed c ({ s with
      rows := if committed then s.rows.startOperation request.command request.digest now
        else s.rows }.failBefore r request cause aborted now) := by
  by_cases recorded : committed = true ∧ request.command = c
  · obtain ⟨rfl, mine⟩ := recorded
    have fresh := placed.starting r request own mine
    subst mine
    refine placed.record ⟨request.digest, .running, none, none, false, now⟩ fresh ?_ rfl (fun _ member => member) ?_ ?_
    · simp [failBefore, startOperation, fresh]
    · intro q taken at_q past
      obtain ⟨before, apart⟩ := past_of_settle_put (s := s) rfl at_q past
      exact absurd (once.unique before past.1 past.2.1 own rfl rfl) apart
    · intro live found
      exact placed.claimed_of_settle (r := r) found
  · have rows : (if committed then s.rows.startOperation request.command request.digest now
        else s.rows) c = s.rows c := by
      split
      · rename_i landed
        exact startOperation_other s.rows (fun mine => recorded ⟨landed, mine⟩) _ _
      · rfl
    have left : Placed c { s with
        rows := if committed then s.rows.startOperation request.command request.digest now
          else s.rows } :=
      placed.frame (fun _ _ at_q _ => at_q) rows (fun _ member => member) placed.claimed
    apply Placed.settle_put
    · exact left
    · rfl

/-- A change whose turn came runs. -/
theorem Placed.begin (placed : Placed c s) (own : s.requests r = some ⟨request, .queued⟩) :
    Placed c (s.begin r request) := by
  have left : ∀ q other, q ≠ r → (s.begin r request).requests q = some other → s.requests q = some other := by
    intro q other here at_q
    simpa [RelayJournal.begin, update_of_ne here] using at_q
  refine ⟨?_, ?_, placed.written, placed.claimed⟩
  · intro q other at_q mine
    by_cases here : q = r
    · subst here
      simp [RelayJournal.begin] at at_q
    · exact placed.starting q other (left q _ here at_q) mine
  intro q other at_q mine
  by_cases here : q = r
  · subst here
    obtain rfl : request = other := by
      rcases at_q with at_q | at_q
      · simp [RelayJournal.begin] at at_q
      · simpa [RelayJournal.begin] using at_q
    exact placed.taken q request (.inl own) mine
  · exact placed.taken q other (at_q.imp (left q _ here) (left q _ here)) mine

theorem Placed.next (placed : Placed c s) (once : Once c s) (kept : KeepsRow c s e)
    (step : s.next e = some s') : Placed c s' := by
  have row := kept s' step
  cases stepped_of_next step with
  | request _ => exact placed.journaled _
  | @read r request now own =>
    cases known : s.rows request.command with
    | none => exact placed.proceed once own known
    | some prior =>
      unfold readPrior
      rw [known]
      exact placed.settle_put rfl
  | readFailed _ => exact placed.settle_put rfl
  | start own => exact placed.start once own
  | startFailed own => exact placed.startFailed once own
  | begin own => exact placed.begin own
  | reject own => exact placed.finish once own rfl (.inl rfl)
  | complete own => exact placed.finish once own rfl (.inr rfl)
  | write pending => exact placed.write pending _ _
  | drop _ =>
    exact placed.frame (fun _ _ at_q past => past_of_put_before (.inl rfl) at_q past) rfl
      (fun _ member => member) placed.claimed
  | @lookup l command now _ =>
    rcases lookupOperation_cases s l command now with step | ⟨_, _, step⟩ | ⟨_, _, forgets, step⟩
    · rw [step]
      exact placed.frame (fun _ _ at_q _ => at_q) rfl (fun _ member => member) placed.claimed
    · rw [step]
      exact placed.frame (fun _ _ at_q _ => at_q) rfl (fun _ member => member) placed.claimed
    · rw [step]
      exact placed.frame (fun _ _ at_q _ => at_q) rfl (fun _ member => member)
        (fun _ found => placed.claimed_of_forgets forgets found)
  | restart =>
    refine ⟨fun _ _ at_q => by simp [restart] at at_q, fun _ _ at_q => by simp [restart] at at_q,
      fun _ member => by simp [restart] at member, fun _ found => by simp [restart] at found⟩
  | prune =>
    exact placed.frame (fun _ _ at_q _ => at_q) (pruned_kept row) (fun _ member => member)
      placed.claimed
  | _ =>
    exact placed.frame (fun _ _ at_q _ => at_q) rfl (fun _ member => member) placed.claimed

/-! ## What is known of an ID after a step -/

/-- Two outcomes that say the same of a change. -/
structure Alike (outcome other : RecordedOutcome) : Prop where
  success : outcome.tellsSuccess = other.tellsSuccess
  isSuccess : outcome.isSuccess = other.isSuccess
  withdrawn : outcome.withdrawn = other.withdrawn
  interrupted : other = .interrupted → outcome = .interrupted

theorem Alike.refl (outcome : RecordedOutcome) : Alike outcome outcome :=
  ⟨rfl, rfl, rfl, fun same => same⟩

theorem Alike.trimmed (outcome : RecordedOutcome) : Alike outcome.trimmed outcome :=
  ⟨trimmed_tellsSuccess outcome, trimmed_isSuccess outcome, trimmed_withdrawn outcome, trimmed_interrupted⟩

theorem alike_finish (record : RelayOperationRecord) (exit : Except ControlCause String) :
    Alike (recordedOutcome (record.finish (outcomeOf exit).finished)) (outcomeOf exit) := by
  cases exit with
  | ok payload => exact ⟨rfl, rfl, rfl, fun cut => by cases cut⟩
  | error cause => exact .refl _

/-- Where an outcome that is known of an ID after a step comes from: what was known, a change that was cut off, or how a
request under the ID ended. -/
inductive Settles (c : CommandId) (s : RelayJournal) : JournalEvent → String → RecordedOutcome → Prop
  | known {e digest outcome} (stored : Stored c s digest outcome) : Settles c s e digest outcome
  | interrupted {e digest} : Settles c s e digest .interrupted
  | readFailed {r request message aborted now} (own : s.requests r = some ⟨request, .reading⟩)
      (mine : request.command = c) :
      Settles c s (.readFailed r message aborted now) request.digest
        (.failed (controlFailureFor (.unexpected message) false))
  | startFailed {r request message committed aborted now}
      (own : s.requests r = some ⟨request, .starting⟩) (mine : request.command = c) :
      Settles c s (.startFailed r message committed aborted now) request.digest
        (.failed (controlFailureFor (.unexpected message) false))
  | reject {r request error aborted now} (own : s.requests r = some ⟨request, .queued⟩) (mine : request.command = c) :
      Settles c s (.reject r error aborted now) request.digest (outcomeOf (.error (.laneRejected error)))
  | complete {r request exit aborted now} (own : s.requests r = some ⟨request, .running⟩) (mine : request.command = c) :
      Settles c s (.complete r exit aborted now) request.digest (outcomeOf (exit.mapError ExecutionFailure.cause))

variable {digest : String}

/-- What is known of an ID where a step changes none of it. -/
theorem Stored.frame (stored : Stored c s' digest outcome) (rows : s'.rows c = s.rows c)
    (writes : ∀ write ∈ s'.operations.writes, write ∈ s.operations.writes)
    (memory : ∀ entry, s'.operations.finished.get c.key = some entry →
      s.operations.finished.get c.key = some entry) : Stored c s digest outcome := by
  cases stored with
  | row found => exact .row (rows ▸ found)
  | write found member mine => exact .write (rows ▸ found) (writes _ member) mine
  | memory found => exact .memory (memory _ found)

/-- What is known of an ID once a claim settled: how it settled, or what was known. -/
theorem stored_of_settle {command : CommandId} {settled : RecordedOutcome}
    (stored : Stored c ((s.settle r command madeWith settled now).put r request phase) digest outcome) :
    Stored c s digest outcome ∨ (command = c ∧ digest = madeWith ∧ outcome = settled.trimmed) := by
  cases stored with
  | row found => exact .inl (.row found)
  | write found member mine => exact .inl (.write found member mine)
  | @memory entry found =>
    rcases settle_finished (r := r) found with ⟨same, settles⟩ | ⟨-, before⟩
    · refine Or.inr ⟨(CommandId.key_inj.mp same).symm, ?_, ?_⟩
      · exact congrArg SettledOperation.digest settles
      · exact congrArg SettledOperation.outcome settles
    · exact .inl (.memory before)

theorem stored_of_finish (placed : Placed c s) (own : s.requests r = some ⟨request, claimed⟩)
    (lane : claimed = .queued ∨ claimed = .running) {exit : Except ControlCause String}
    {aborted : Bool} {ended : CommandId → Option Bool}
    (stored : Stored c ({ s with ended := ended }.finish r request exit aborted now) digest outcome) :
    Stored c s digest outcome ∨ (request.command = c ∧ digest = request.digest ∧ Alike outcome (outcomeOf exit)) := by
  cases stored with
  | row found => exact .inl (.row found)
  | @write record write found member mine =>
    rcases List.mem_append.mp member with before | new
    · exact .inl (.write found before mine)
    obtain rfl := List.mem_singleton.mp new
    have queued : s.requests r = some ⟨request, .queued⟩ ∨ s.requests r = some ⟨request, .running⟩ := by
      rcases lane with rfl | rfl
      · exact .inl own
      · exact .inr own
    obtain ⟨-, record', found', -, same⟩ := placed.taken r request queued mine
    cases found.symm.trans found'
    exact .inr ⟨mine, same, alike_finish record exit⟩
  | @memory entry found =>
    rcases settle_finished (r := r) found with ⟨same, settles⟩ | ⟨-, before⟩
    · refine Or.inr ⟨(CommandId.key_inj.mp same).symm, ?_, ?_⟩
      · exact congrArg SettledOperation.digest settles
      · rw [congrArg SettledOperation.outcome settles]
        exact .trimmed _
    · exact .inl (.memory before)

/-- A record of a request says only that its change runs. -/
theorem stored_of_record (placed : Placed c s) (own : s.requests r = some ⟨request, .starting⟩) {rows : OperationRows}
    (recorded : rows = s.rows.startOperation request.command request.digest now ∨ rows = s.rows)
    (stored : Stored c { s with rows := rows } digest outcome) :
    Stored c s digest outcome ∨ outcome = .interrupted := by
  by_cases mine : rows = s.rows.startOperation request.command request.digest now ∧ request.command = c
  · obtain ⟨rfl, mine⟩ := mine
    have fresh := placed.starting r request own mine
    subst mine
    have row : ∀ {record}, s.rows.startOperation request.command request.digest now
        request.command = some record → record.status = .running := by
      intro record found
      simp only [startOperation, fresh, update_self, Option.some.injEq] at found
      rw [← found]
    cases stored with
    | row found => exact .inr (by simp [recordedOutcome, row found])
    | write found member mine =>
      have known := placed.written _ member mine
      rw [fresh] at known
      cases known
    | memory found => exact .inl (.memory found)
  · left
    refine stored.frame ?_ (fun _ member => member) (fun _ found => found)
    rcases recorded with rfl | rfl
    · exact startOperation_other s.rows (fun same => mine ⟨rfl, same⟩) _ _
    · rfl

@[simp] theorem finish_finish (record : RelayOperationRecord) (first last : FinishedOutcome) :
    (record.finish first).finish last = record.finish last := rfl

theorem stored_of_write {write : OutcomeWrite} (pending : write ∈ s.operations.writes)
    {landed last : Bool} (stored : Stored c (s.write write landed last) digest outcome) :
    Stored c s digest outcome := by
  rcases write_row (s := s) (c := c) write landed last with ⟨mine, rows⟩ | rows
  · have earlier : ∀ {record}, (s.write write landed last).rows c = some record →
        ∃ before, s.rows c = some before ∧ before.finish write.finished = record := by
      intro record found
      rw [rows, Option.map_eq_some_iff] at found
      exact found
    cases stored with
    | row found =>
      obtain ⟨before, known, rfl⟩ := earlier found
      have written : Stored c s before.payloadSha256
          (recordedOutcome (before.finish write.finished)) := .write known pending mine
      exact written
    | @write _ other found member other_mine =>
      obtain ⟨before, known, rfl⟩ := earlier found
      have written : Stored c s before.payloadSha256 (recordedOutcome (before.finish other.finished)) :=
        .write known (mem_write member) other_mine
      exact written
    | memory found => exact .memory (write_finished (s := s) write landed last ▸ found)
  · exact stored.frame rows (fun _ member => mem_write member)
      (fun _ found => write_finished (s := s) write landed last ▸ found)

theorem stored_of_prune (stored : Stored c (s.prune now) digest outcome) :
    Stored c s digest outcome := by
  cases stored with
  | row found => exact .row (Option.filter_eq_some_iff.mp found).1
  | write found member mine => exact .write (Option.filter_eq_some_iff.mp found).1 member mine
  | memory found => exact .memory found

/-- What a Relay that restarts knows was in its table, or was cut off. -/
theorem stored_of_restart (stored : Stored c (s.restart now) digest outcome) :
    Stored c s digest outcome ∨ outcome = .interrupted := by
  cases stored with
  | row found =>
    have kept := (Option.filter_eq_some_iff.mp found).1
    simp only [interruptRunningOperations, Option.map_eq_some_iff] at kept
    obtain ⟨record, known, rfl⟩ := kept
    split
    · exact .inr rfl
    · exact .inl (.row known)
  | write found member mine => exact absurd member (by simp [restart])
  | memory found => exact absurd found (by simp [restart])

/-- What is known of an ID after a step, and where it comes from. -/
theorem settles_of_next (placed : Placed c s) (step : s.next e = some s') (stored : Stored c s' digest outcome) :
    ∃ settled, Settles c s e digest settled ∧ Alike outcome settled := by
  have before : Stored c s digest outcome → ∃ settled, Settles c s e digest settled ∧ Alike outcome settled :=
    fun known => ⟨outcome, .known known, .refl _⟩
  cases stepped_of_next step with
  | @request r request now _ =>
    rcases journaled_cases s r request now with
      ⟨_, _, _, step⟩ | ⟨_, _, _, _, _, step⟩ | ⟨_, _, _, step⟩ | ⟨_, _, forgets, step⟩
    · rw [step] at stored
      exact before (stored.frame rfl (fun _ member => member) (fun _ found => found))
    · rw [step] at stored
      exact before (stored.frame rfl (fun _ member => member) (fun _ found => found))
    · rw [step] at stored
      exact before (stored.frame rfl (fun _ member => member) (fun _ found => found))
    · rw [step] at stored
      exact before (stored.frame rfl (fun _ member => member) (forgets c.key))
  | @read r request now own =>
    cases known : s.rows request.command with
    | none =>
      unfold readPrior at stored
      rw [known] at stored
      exact before (stored.frame rfl (fun _ member => member) (fun _ found => found))
    | some prior =>
      unfold readPrior at stored
      rw [known] at stored
      rcases stored_of_settle stored with unchanged | ⟨mine, rfl, rfl⟩
      · exact before unchanged
      · exact ⟨_, .known (.row (mine ▸ known)), .trimmed _⟩
  | readFailed own =>
    rcases stored_of_settle stored with unchanged | ⟨mine, rfl, rfl⟩
    · exact before unchanged
    · exact ⟨_, .readFailed own mine, .trimmed _⟩
  | @start r request now own =>
    rcases stored_of_record placed own (.inl rfl)
      (stored.frame rfl (fun _ member => member) (fun _ found => found)) with unchanged | rfl
    · exact before unchanged
    · exact ⟨_, .interrupted, .refl _⟩
  | @startFailed r request message committed aborted now own =>
    rcases stored_of_settle stored with left | ⟨mine, rfl, rfl⟩
    · have recorded : (if committed then s.rows.startOperation request.command request.digest now
          else s.rows) = s.rows.startOperation request.command request.digest now ∨
          (if committed then s.rows.startOperation request.command request.digest now
            else s.rows) = s.rows := by
        cases committed with
        | true => exact .inl rfl
        | false => exact .inr rfl
      rcases stored_of_record placed own recorded left with unchanged | rfl
      · exact before unchanged
      · exact ⟨_, .interrupted, .refl _⟩
    · exact ⟨_, .startFailed own mine, .trimmed _⟩
  | reject own =>
    rcases stored_of_finish placed own (.inl rfl) stored with unchanged | ⟨mine, rfl, alike⟩
    · exact before unchanged
    · exact ⟨_, .reject own mine, alike⟩
  | complete own =>
    rcases stored_of_finish placed own (.inr rfl) stored with unchanged | ⟨mine, rfl, alike⟩
    · exact before unchanged
    · exact ⟨_, .complete own mine, alike⟩
  | write pending => exact before (stored_of_write pending stored)
  | @lookup l command now _ =>
    rcases lookupOperation_cases s l command now with step | ⟨_, _, step⟩ | ⟨_, _, forgets, step⟩
    · rw [step] at stored
      exact before (stored.frame rfl (fun _ member => member) (fun _ found => found))
    · rw [step] at stored
      exact before (stored.frame rfl (fun _ member => member) (fun _ found => found))
    · rw [step] at stored
      exact before (stored.frame rfl (fun _ member => member) (forgets c.key))
  | restart =>
    rcases stored_of_restart stored with unchanged | rfl
    · exact before unchanged
    · exact ⟨_, .interrupted, .refl _⟩
  | prune => exact before (stored_of_prune stored)
  | _ => exact before (stored.frame rfl (fun _ member => member) (fun _ found => found))

end RelayJournal

namespace RelayJournal

variable {c : CommandId} {s s' : RelayJournal} {r : Nat} {request : ChangeRequest} {phase : RequestPhase}

theorem closed_of_finish (placed : Placed c s) (once : Once c s) {claimed : RequestPhase}
    (own : s.requests r = some ⟨request, claimed⟩) (claims : claimed.claims = true)
    (lane : claimed = .queued ∨ claimed = .running) (mine : request.command = c)
    {exit : Except ControlCause String} {aborted : Bool} {now : Nat}
    {ended : CommandId → Option Bool} :
    ({ s with ended := ended }.finish r request exit aborted now).Closed c := by
  have queued : s.requests r = some ⟨request, .queued⟩ ∨ s.requests r = some ⟨request, .running⟩ := by
    rcases lane with rfl | rfl
    · exact .inl own
    · exact .inr own
  obtain ⟨-, record, found, -⟩ := placed.taken r request queued mine
  refine ⟨?_, fun q taken at_q past => ?_⟩
  · have row : (s.rows c).isSome := by rw [found]; rfl
    exact row
  · obtain ⟨before, apart⟩ := past_of_settle_put (s := s) rfl at_q past
    exact apart (once.unique before past.1 past.2.1 own mine claims)

/-- Where a reply under an ID comes from, as it is made. -/
inductive Replies (c : CommandId) (s : RelayJournal) (e : JournalEvent) (request : ChangeRequest) :
    Reply → Prop
  | repeated {digest outcome settled} (settles : Settles c s e digest settled) (alike : Alike outcome settled) :
      Replies c s e request (repeatReply request ⟨digest, outcome⟩)
  | own {exit aborted}
      (plain : ∀ failure, exit = .error (.recorded failure) → failure.tellsSuccess = false ∧ failure.withdrawn = false)
      (settles : Settles c s e request.digest (outcomeOf exit)) :
      Replies c s e request (ownReply request exit aborted)
  | plain {reply} (untold : reply.tellsSuccess = false) (unwithdrawn : reply.withdrawn = false) :
      Replies c s e request reply

variable {other : ChangeRequest} {reply : Reply} {q : Nat}

theorem replies_of_settle_put {own : Reply} {settled : SettledOperation}
    (at_q : update (fun q => (s.requests q).map (·.resume r settled)) r
      (some ⟨request, .answered own⟩) q = some ⟨other, .answered reply⟩) :
    s.requests q = some ⟨other, .answered reply⟩ ∨
    (s.requests q = some ⟨other, .awaiting r⟩ ∧ reply = repeatReply other settled) ∨
    (q = r ∧ other = request ∧ reply = own) := by
  by_cases here : q = r
  · subst here
    simp only [update_self, Option.some.injEq, TakenRequest.mk.injEq, RequestPhase.answered.injEq] at at_q
    exact .inr (.inr ⟨rfl, at_q.1.symm, at_q.2.symm⟩)
  rw [update_of_ne here, Option.map_eq_some_iff] at at_q
  obtain ⟨before, found, resumed⟩ := at_q
  unfold TakenRequest.resume at resumed
  split at resumed
  · rename_i waits
    obtain ⟨request', phase'⟩ := before
    obtain rfl : phase' = .awaiting r := waits
    simp only [TakenRequest.mk.injEq, RequestPhase.answered.injEq] at resumed
    obtain ⟨rfl, rfl⟩ := resumed
    exact .inr (.inl ⟨found, rfl⟩)
  · rw [← resumed]
    exact .inl found

theorem replies_of_put (at_q : update s.requests r (some ⟨request, phase⟩) q = some ⟨other, .answered reply⟩) :
    s.requests q = some ⟨other, .answered reply⟩ ∨ (q = r ∧ other = request ∧ phase = .answered reply) := by
  by_cases here : q = r
  · subst here
    simp only [update_self, Option.some.injEq, TakenRequest.mk.injEq] at at_q
    exact .inr ⟨rfl, at_q.1.symm, at_q.2⟩
  · exact .inl (by simpa [update_of_ne here] using at_q)

theorem executionFailure_plain {exit : Except ExecutionFailure String} (failure : ControlFailure)
    (recorded : exit.mapError ExecutionFailure.cause = .error (.recorded failure)) :
    failure.tellsSuccess = false ∧ failure.withdrawn = false := by
  cases exit with
  | ok payload => cases recorded
  | error cause =>
    cases cause with
    | forbidden =>
      simp only [Except.mapError, ExecutionFailure.cause, Except.error.injEq, ControlCause.recorded.injEq] at recorded
      rw [← recorded]
      exact ⟨rfl, rfl⟩
    | _ => cases recorded

theorem replies_of_settled (joined : Joined c s) {claimed : RequestPhase}
    (own : s.requests r = some ⟨request, claimed⟩) {e : JournalEvent} {reply' : Reply} {madeWith : String} {outcome : RecordedOutcome}
    (at_q : update (fun q => (s.requests q).map (·.resume r ⟨madeWith, outcome⟩)) r
      (some ⟨request, .answered reply'⟩) q = some ⟨other, .answered reply⟩)
    (mine : other.command = c)
    (settles : request.command = c → Settles c s e madeWith outcome)
    (answers : request.command = c → Replies c s e request reply') :
    s.requests q = some ⟨other, .answered reply⟩ ∨ Replies c s e other reply := by
  rcases replies_of_settle_put at_q with before | ⟨waits, rfl⟩ | ⟨rfl, rfl, rfl⟩
  · exact .inl before
  · obtain ⟨taken, found, claimant_mine⟩ := joined.awaits q other r waits mine
    rw [own] at found
    cases found
    exact .inr (.repeated (settles claimant_mine) (.refl _))
  · exact .inr (answers mine)

/-- The replies under an ID after a step, and where they come from. -/
theorem replies_of_next (joined : Joined c s) {e : JournalEvent} (step : s.next e = some s')
    (at_q : s'.requests q = some ⟨other, .answered reply⟩) (mine : other.command = c) :
    s.requests q = some ⟨other, .answered reply⟩ ∨ Replies c s e other reply := by
  cases stepped_of_next step with
  | @request r request now _ =>
    rcases journaled_cases s r request now with
      ⟨_, _, _, step⟩ | ⟨_, _, _, _, apart, step⟩ | ⟨_, _, found, step⟩ | ⟨_, _, _, step⟩
    · rw [step] at at_q
      rcases replies_of_put at_q with before | ⟨_, _, told⟩
      · exact .inl before
      · cases told
    · rw [step] at at_q
      rcases replies_of_put at_q with before | ⟨_, rfl, told⟩
      · exact .inl before
      cases told
      right
      apply Replies.plain
      · simp only [repeatReply, apart, if_false]
        rfl
      · simp only [repeatReply, apart, if_false]
        rfl
    · rw [step] at at_q
      rcases replies_of_put at_q with before | ⟨_, rfl, told⟩
      · exact .inl before
      · cases told
        exact .inr (.repeated (.known (.memory (mine ▸ found))) (.refl _))
    · rw [step] at at_q
      rcases replies_of_put at_q with before | ⟨_, _, told⟩
      · exact .inl before
      · cases told
  | @read r request now own =>
    cases known : s.rows request.command with
    | none =>
      unfold readPrior at at_q
      rw [known] at at_q
      rcases replies_of_put at_q with before | ⟨_, _, told⟩
      · exact .inl before
      · cases told
    | some prior =>
      unfold readPrior at at_q
      rw [known] at at_q
      have settles : request.command = c → Settles c s (.read r now) prior.payloadSha256 (recordedOutcome prior) :=
        fun here => .known (.row (here ▸ known))
      exact replies_of_settled joined own at_q mine settles fun here => .repeated (settles here) (.refl _)
  | @readFailed r request message aborted now own =>
    refine replies_of_settled joined own at_q mine (.readFailed own) fun _ => ?_
    apply Replies.plain
    · cases aborted <;> rfl
    · cases aborted <;> rfl
  | start own =>
    rcases replies_of_put at_q with before | ⟨_, _, told⟩
    · exact .inl before
    · cases told
  | @startFailed r request message committed aborted now own =>
    refine replies_of_settled joined own at_q mine (.startFailed own) fun _ => ?_
    apply Replies.plain
    · cases aborted <;> rfl
    · cases aborted <;> rfl
  | begin own =>
    rcases replies_of_put at_q with before | ⟨_, _, told⟩
    · exact .inl before
    · cases told
  | reject own =>
    refine replies_of_settled joined own at_q mine (.reject own) fun here => ?_
    exact .own (fun failure recorded => by cases recorded) (.reject own here)
  | complete own =>
    refine replies_of_settled joined own at_q mine (.complete own) fun here => ?_
    exact .own executionFailure_plain (.complete own here)
  | drop own =>
    rcases replies_of_put at_q with before | ⟨_, _, told⟩
    · exact .inl before
    · cases told
  | @lookup l command now _ =>
    left
    rcases lookupOperation_cases s l command now with step | ⟨_, _, step⟩ | ⟨_, _, _, step⟩
    all_goals
      rw [step] at at_q
      exact at_q
  | restart => exact absurd at_q (by simp [restart])
  | _ => exact .inl at_q

end RelayJournal

end Kiln.Relay
