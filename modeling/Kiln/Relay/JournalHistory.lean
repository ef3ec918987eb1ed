import Kiln.Relay.JournalStores

/-!
# What a journal knows of a change, across restarts

A journal with the requests whose change began, and those whose change went through, since the
journal was made. What memory, the table and the writes still to come say of an ID fits that: a
success went through, nothing else is said of a change that did but that it was cut off, and a
change that was withdrawn never begins.
-/

namespace Kiln.Relay
open Kiln.Lib Kiln.Operations

/-! ## The history -/

/-- A journal, and the requests whose changes began and went through since it was made. -/
structure JournalHistory where
  journal : RelayJournal := {}
  began : List (Nat × ChangeRequest) := []
  went : List (Nat × ChangeRequest) := []

/-- A request as the journal has it. -/
def RelayJournal.noted (s : RelayJournal) (r : Nat) : List (Nat × ChangeRequest) :=
  match s.requests r with
  | some taken => [(r, taken.request)]
  | none => []

/-- The number of a request is never given twice. -/
def JournalHistory.fresh (h : JournalHistory) : JournalEvent → Bool
  | .request r _ _ => h.began.all fun entry => entry.1 ≠ r
  | _ => true

namespace JournalHistory

def next (h : JournalHistory) (e : JournalEvent) : Option JournalHistory :=
  if h.fresh e then
    (h.journal.next e).map fun journal =>
      { journal := journal
        began := h.began ++ match e with
          | .begin r => h.journal.noted r
          | _ => []
        went := h.went ++ match e with
          | .complete r (.ok _) _ _ => h.journal.noted r
          | _ => [] }
  else none

/-- A change under an ID went through. -/
def Won (c : CommandId) (h : JournalHistory) : Prop :=
  ∃ entry ∈ h.went, entry.2.command = c

/-- A change under an ID that asked for just that went through. -/
def WonWith (c : CommandId) (digest : String) (h : JournalHistory) : Prop :=
  ∃ entry ∈ h.went, entry.2.command = c ∧ entry.2.digest = digest

end JournalHistory

/-- An outcome under an ID fits its history. -/
structure JournalHistory.Fits (c : CommandId) (h : JournalHistory) (digest : String)
    (outcome : RecordedOutcome) : Prop where
  success : outcome.tellsSuccess = true → h.WonWith c digest
  failure : h.Won c → outcome.isSuccess = true ∨ outcome = .interrupted
  withdrawn : outcome.withdrawn = true → h.journal.started c = [] ∧ h.journal.Closed c

/-- A reply under an ID fits its history. -/
structure JournalHistory.ReplyFits (c : CommandId) (h : JournalHistory) (digest : String)
    (reply : Reply) : Prop where
  success : reply.tellsSuccess = true → h.WonWith c digest
  withdrawn : reply.withdrawn = true → h.journal.started c = [] ∧ h.journal.Closed c

/-! ## What is known of an ID fits its history -/

namespace JournalHistory

open RelayJournal

variable {c : CommandId} {h h' : JournalHistory} {e : JournalEvent} {digest : String} {outcome : RecordedOutcome}

/-- The step keeps the row of an ID, doesn't settle a change that went through with a read that failed, and isn't a
change that ran and says that it was withdrawn. -/
def Careful (c : CommandId) (h : JournalHistory) (e : JournalEvent) : Prop :=
  KeepsRow c h.journal e ∧
  match e with
  | .readFailed r _ _ _ => ∀ taken ∈ h.journal.requests r, taken.request.command = c →
      ∀ entry ∈ h.went, entry.2.command ≠ c
  | .complete r (.error failure) _ _ => ∀ taken ∈ h.journal.requests r,
      taken.request.command = c → (controlFailureFor failure.cause false).withdrawn = false
  | _ => True

instance (c : CommandId) (h : JournalHistory) : (e : JournalEvent) → Decidable (Careful c h e)
  | .readFailed .. | .complete _ (.error _) .. | .complete _ (.ok _) .. | .request .. | .read ..
  | .start .. | .startFailed .. | .begin _ | .reject .. | .write .. | .drop _ | .lookup ..
  | .lookupRead _ | .lookupFailed .. | .restart _ | .prune _ => instDecidableAnd

theorem journal_of_next (step : h.next e = some h') : h.journal.next e = some h'.journal := by
  unfold next at step
  split at step
  · obtain ⟨journal, found, rfl⟩ := Option.map_eq_some_iff.mp step
    exact found
  · cases step

variable {entry : Nat × ChangeRequest}

theorem began_mono (step : h.next e = some h') (member : entry ∈ h.began) : entry ∈ h'.began := by
  unfold next at step
  split at step
  · obtain ⟨journal, _, rfl⟩ := Option.map_eq_some_iff.mp step
    exact List.mem_append_left _ member
  · cases step

theorem went_mono (step : h.next e = some h') (member : entry ∈ h.went) : entry ∈ h'.went := by
  unfold next at step
  split at step
  · obtain ⟨journal, _, rfl⟩ := Option.map_eq_some_iff.mp step
    exact List.mem_append_left _ member
  · cases step

theorem mem_noted {s : RelayJournal} {r : Nat} :
    entry ∈ s.noted r ↔ entry.1 = r ∧ ∃ phase, s.requests r = some ⟨entry.2, phase⟩ := by
  unfold RelayJournal.noted
  cases found : s.requests r with
  | none => simp
  | some taken =>
    obtain ⟨request, phase⟩ := taken
    obtain ⟨number, other⟩ := entry
    simp only [List.mem_singleton, Prod.mk.injEq, Option.some.injEq, TakenRequest.mk.injEq]
    constructor
    · rintro ⟨rfl, rfl⟩
      exact ⟨rfl, phase, rfl, rfl⟩
    · rintro ⟨rfl, _, rfl, _⟩
      exact ⟨rfl, rfl⟩

/-- A change that is new among those that began was due in its lane. -/
theorem mem_began (step : h.next e = some h') (member : entry ∈ h'.began) : entry ∈ h.began ∨
      (e = .begin entry.1 ∧ h.journal.requests entry.1 = some ⟨entry.2, .queued⟩) := by
  have journal := journal_of_next step
  unfold next at step
  split at step
  · obtain ⟨_, _, rfl⟩ := Option.map_eq_some_iff.mp step
    rcases List.mem_append.mp member with before | new
    · exact .inl before
    right
    cases stepped_of_next journal with
    | @begin r request own =>
      obtain ⟨rfl, phase, found⟩ := mem_noted.mp new
      rw [own] at found
      cases found
      exact ⟨rfl, own⟩
    | _ => cases new
  · cases step

/-- A change that is new among those that went through ran, and ends with this step. -/
theorem mem_went (step : h.next e = some h') (member : entry ∈ h'.went) :
    entry ∈ h.went ∨ ∃ payload aborted now, e = .complete entry.1 (.ok payload) aborted now ∧
        h.journal.requests entry.1 = some ⟨entry.2, .running⟩ := by
  have journal := journal_of_next step
  unfold next at step
  split at step
  · obtain ⟨_, _, rfl⟩ := Option.map_eq_some_iff.mp step
    rcases List.mem_append.mp member with before | new
    · exact .inl before
    right
    cases stepped_of_next journal with
    | @complete r request exit aborted now own =>
      cases exit with
      | error failure => cases new
      | ok payload =>
        obtain ⟨rfl, phase, found⟩ := mem_noted.mp new
        rw [own] at found
        cases found
        exact ⟨payload, aborted, now, rfl, own⟩
    | _ => cases new
  · cases step

/-- A change that ended well is among those that went through. -/
theorem went_of_complete {r : Nat} {request : ChangeRequest} {payload : String} {aborted : Bool}
    {now : Nat} (step : h.next (.complete r (.ok payload) aborted now) = some h')
    (own : h.journal.requests r = some ⟨request, .running⟩) : (r, request) ∈ h'.went := by
  unfold next at step
  split at step
  · obtain ⟨_, _, rfl⟩ := Option.map_eq_some_iff.mp step
    exact List.mem_append_right _ (mem_noted.mpr ⟨rfl, _, own⟩)
  · cases step

/-- A change under an ID that went through did so before, or ends with this step. -/
theorem Won.of_next (won : h'.Won c) (step : h.next e = some h') :
    h.Won c ∨ ∃ r request payload aborted now, e = .complete r (.ok payload) aborted now ∧
      h.journal.requests r = some ⟨request, .running⟩ ∧ request.command = c := by
  obtain ⟨entry, member, mine⟩ := won
  rcases mem_went step member with before | ⟨payload, aborted, now, same, own⟩
  · exact .inl ⟨entry, before, mine⟩
  · exact .inr ⟨entry.1, entry.2, payload, aborted, now, same, own, mine⟩

theorem WonWith.next (won : h.WonWith c digest) (step : h.next e = some h') :
    h'.WonWith c digest := by
  obtain ⟨entry, member, mine⟩ := won
  exact ⟨entry, went_mono step member, mine⟩

theorem ReplyFits.next {reply : Reply} (fits : h.ReplyFits c digest reply)
    (kept : KeepsRow c h.journal e) (step : h.next e = some h') : h'.ReplyFits c digest reply where
  success told := (fits.success told).next step
  withdrawn told := by
    obtain ⟨unstarted, closed⟩ := fits.withdrawn told
    have journal := journal_of_next step
    exact ⟨(closed.started journal).trans unstarted, closed.next kept journal⟩

theorem Fits.alike {other : RecordedOutcome} (fits : h.Fits c digest outcome)
    (alike : Alike other outcome) : h.Fits c digest other where
  success told := fits.success (alike.success ▸ told)
  failure won := by
    rcases fits.failure won with success | cut
    · exact .inl (alike.isSuccess ▸ success)
    · exact .inr (alike.interrupted cut)
  withdrawn told := fits.withdrawn (alike.withdrawn ▸ told)

end JournalHistory

/-- What holds of an ID in a journal that keeps its row. -/
structure JournalHistory.Standing (c : CommandId) (h : JournalHistory) : Prop where
  once : RelayJournal.Once c h.journal
  recorded : RelayJournal.Recorded c h.journal
  joined : RelayJournal.Joined c h.journal
  placed : RelayJournal.Placed c h.journal
  closed : h.Won c → h.journal.Closed c
  fits : ∀ digest outcome, h.journal.Stored c digest outcome → h.Fits c digest outcome
  replies : ∀ r request reply, h.journal.requests r = some ⟨request, .answered reply⟩ →
    request.command = c → h.ReplyFits c request.digest reply
  began : ∀ entry ∈ h.began, entry.2.command = c → h.journal.started c ≠ []

namespace JournalHistory

open RelayJournal

variable {c : CommandId} {h h' : JournalHistory} {e : JournalEvent} {digest : String} {outcome : RecordedOutcome}

/-- Nothing is known of an ID whose change runs, but that it was cut off. -/
theorem Standing.running_unknown (standing : Standing c h) {r : Nat} {request : ChangeRequest}
    (own : h.journal.requests r = some ⟨request, .running⟩) (mine : request.command = c)
    (stored : h.journal.Stored c digest outcome) : outcome = .interrupted := by
  obtain ⟨unwritten, record, found, running, _⟩ :=
    standing.placed.taken r request (.inr own) mine
  cases stored with
  | row found' =>
    cases found.symm.trans found'
    simp [recordedOutcome, running]
  | write found' member write_mine => exact absurd write_mine (unwritten _ member)
  | memory remembered =>
    obtain ⟨live, claimed, _⟩ := standing.once.held r _ own mine rfl
    rw [standing.placed.claimed live claimed] at remembered
    cases remembered

/-- A request past its read has an ID under which nothing went through. -/
theorem Standing.not_won (standing : Standing c h) {r : Nat} {taken : TakenRequest}
    (own : h.journal.requests r = some taken) (past : Past c taken) : ¬ h.Won c :=
  fun won => (standing.closed won).2 r taken own past

theorem Standing.settles (standing : Standing c h) (careful : Careful c h e)
    (step : h.next e = some h') (settles : Settles c h.journal e digest outcome) :
    h'.Fits c digest outcome := by
  have journal := journal_of_next step
  have kept := careful.1
  have failing : ∀ outcome : RecordedOutcome, outcome.tellsSuccess = false →
      outcome.withdrawn = false → ¬ h'.Won c → h'.Fits c digest outcome :=
    fun outcome failed unwithdrawn unwon =>
      ⟨fun told => absurd (failed ▸ told) (by simp), fun won => absurd won unwon,
        fun told => absurd (unwithdrawn ▸ told) (by simp)⟩
  cases settles with
  | known stored =>
    have fits := standing.fits digest outcome stored
    refine ⟨fun told => (fits.success told).next step, fun won => ?_, fun told => ?_⟩
    · rcases won.of_next step with before | ⟨r, request, payload, aborted, now, _, own, mine⟩
      · exact fits.failure before
      · exact .inr (standing.running_unknown own mine stored)
    · obtain ⟨unstarted, closed⟩ := fits.withdrawn told
      exact ⟨(closed.started journal).trans unstarted, closed.next kept journal⟩
  | interrupted =>
    exact ⟨fun told => absurd told Bool.false_ne_true, fun _ => .inr rfl, fun told => absurd told Bool.false_ne_true⟩
  | readFailed own mine =>
    refine failing _ rfl rfl fun won => ?_
    rcases won.of_next step with ⟨entry, member, won_mine⟩ | ⟨_, _, _, _, _, same, _⟩
    · exact careful.2 _ own mine entry member won_mine
    · cases same
  | startFailed own mine =>
    refine failing _ rfl rfl fun won => ?_
    rcases won.of_next step with before | ⟨_, _, _, _, _, same, _⟩
    · exact standing.not_won own ⟨mine, rfl, by simp⟩ before
    · cases same
  | @reject r request error aborted now own mine =>
    have unwon : ¬ h'.Won c := fun won => by
      rcases won.of_next step with before | ⟨_, _, _, _, _, same, _⟩
      · exact standing.not_won own ⟨mine, rfl, by simp⟩ before
      · cases same
    refine ⟨fun told => ?_, fun won => absurd won unwon, fun _ => ?_⟩
    · have failed : (outcomeOf (.error (.laneRejected error))).tellsSuccess = false :=
        controlFailureFor_tellsSuccess false fun failure recorded => by cases recorded
      rw [failed] at told
      cases told
    · have after : h'.journal = h.journal.finish r request (.error (.laneRejected error)) aborted now := by
        simp only [RelayJournal.next, own, Option.some.injEq] at journal
        exact journal.symm
      rw [after]
      have unstarted := standing.once.waiting r request (.inr own) mine
      refine ⟨unstarted, ?_⟩
      exact closed_of_finish standing.placed standing.once own rfl (.inl rfl) mine
  | @complete r request exit aborted now own mine =>
    cases exit with
    | ok payload =>
      refine ⟨fun _ => ⟨_, went_of_complete step own, mine, rfl⟩, fun _ => .inl rfl,
        fun told => absurd told Bool.false_ne_true⟩
    | error failure =>
      refine failing _ (executionFailure_tellsSuccess failure false) (careful.2 _ own mine) fun won => ?_
      rcases won.of_next step with before | ⟨_, _, _, _, _, same, _⟩
      · exact standing.not_won own ⟨mine, rfl, by simp⟩ before
      · cases same

theorem Standing.answers (standing : Standing c h) (careful : Careful c h e)
    (step : h.next e = some h') {request : ChangeRequest} {reply : Reply}
    (replies : Replies c h.journal e request reply) : h'.ReplyFits c request.digest reply := by
  cases replies with
  | @repeated digest outcome settled settles alike =>
    have fits := (standing.settles careful step settles).alike alike
    obtain ⟨success, withdrawn⟩ := @repeatReply_tells request ⟨digest, outcome⟩
    refine ⟨fun told => ?_, fun told => fits.withdrawn (withdrawn told)⟩
    obtain ⟨same, told⟩ := success told
    exact same ▸ fits.success told
  | @own exit aborted plain settles =>
    have fits := standing.settles careful step settles
    cases exit with
    | ok payload =>
      refine ⟨fun _ => fits.success rfl, fun told => ?_⟩
      simp only [ownReply, sendResponse] at told
      split at told
      · exact absurd told (by simp [Reply.withdrawn, ControlFailure.withdrawn, responseTooLarge])
      · exact absurd told (by simp [Reply.withdrawn])
    | error cause =>
      refine ⟨fun told => ?_, fun told => ?_⟩
      · have failed : (controlFailureFor cause aborted).tellsSuccess = false :=
          controlFailureFor_tellsSuccess aborted fun failure recorded =>
            (plain failure (congrArg Except.error recorded)).1
        simp only [ownReply, Reply.tellsSuccess, failed] at told
        cases told
      · obtain ⟨error, rfl, cancelled⟩ := controlFailureFor_withdrawn
          (fun failure recorded => (plain failure (congrArg Except.error recorded)).2) told
        refine fits.withdrawn ?_
        obtain ⟨reason, message, blockedBy⟩ := error
        obtain rfl : reason = .cancelled := cancelled
        rfl
  | plain untold unwithdrawn =>
    exact ⟨fun told => absurd (untold ▸ told) (by simp), fun told => absurd (unwithdrawn ▸ told) (by simp)⟩

/-- A careful step keeps what holds of an ID. -/
theorem Standing.next (standing : Standing c h) (careful : Careful c h e)
    (step : h.next e = some h') : Standing c h' := by
  have journal := journal_of_next step
  have kept := careful.1
  have truly : ReadsTruly c h.journal e := by
    intro r now request _ _ _ unknown
    by_contra ran
    have row := standing.recorded.started ran
    rw [unknown] at row
    cases row
  refine
    { once := standing.once.next truly journal
      recorded := standing.recorded.next kept journal
      joined := standing.joined.next journal
      placed := standing.placed.next standing.once kept journal
      closed := ?_
      fits := ?_
      replies := ?_
      began := ?_ }
  · intro won
    rcases won.of_next step with before | ⟨r, request, payload, aborted, now, rfl, own, mine⟩
    · exact (standing.closed before).next kept journal
    · have after : h'.journal = h.journal.complete r request (.ok payload) aborted now := by
        simp only [RelayJournal.next, own, Option.some.injEq] at journal
        exact journal.symm
      rw [after]
      exact closed_of_finish standing.placed standing.once own rfl (.inr rfl) mine
  · intro digest outcome stored
    obtain ⟨settled, settles, alike⟩ := settles_of_next standing.placed journal stored
    exact (standing.settles careful step settles).alike alike
  · intro r request reply answered mine
    rcases replies_of_next standing.joined journal answered mine with before | replies
    · exact (standing.replies r request reply before mine).next kept step
    · exact standing.answers careful step replies
  intro entry member mine
  rcases mem_began step member with before | ⟨rfl, own⟩
  · intro unstarted
    have grows := started_mono (c := c) journal
    rw [unstarted, List.prefix_nil] at grows
    exact standing.began entry before mine grows
  · simp only [RelayJournal.next, own, Option.some.injEq] at journal
    rw [← journal]
    simp [RelayJournal.begin, mine]

theorem Standing.initial : Standing c {} where
  once := .initial
  recorded := ⟨fun _ _ at_r => by simp at at_r, fun ran => absurd rfl ran⟩
  joined := .initial
  placed := .initial
  closed won := by
    obtain ⟨entry, member, _⟩ := won
    cases member
  fits digest outcome stored := by
    cases stored with
    | row found => simp at found
    | write found _ _ => simp at found
    | memory found => simp at found
  replies _ _ _ answered := by simp at answered
  began _ member := absurd member (by simp)

/-! ## What a lookup is told -/

/-- What a lookup is told of an ID fits its history: a success went through, a failure didn't, what was withdrawn never
begins, and what the journal doesn't know never began. -/
structure LookupFits (c : CommandId) (h : JournalHistory) (digest : String)
    (lookup : OperationLookup) : Prop where
  success : ∀ result, lookup = .succeeded result → h.WonWith c digest
  failure : ∀ failure, lookup = .failed failure → ¬ h.Won c
  withdrawn : ∀ failure, lookup = .failed failure → failure.withdrawn = true →
    h.journal.started c = [] ∧ h.journal.Closed c
  unknown : lookup = .unknown → h.journal.started c = []
  /-- Nothing under the ID runs, unless the journal doesn't have it. -/
  idle : lookup ≠ .running → lookup ≠ .interrupted → h.journal.Closed c ∨ h.journal.rows c = none

/-- What memory and the table have of an ID is for this change. -/
def KnownAs (c : CommandId) (digest : String) (h : JournalHistory) : Prop :=
  (∀ record ∈ h.journal.rows c, record.payloadSha256 = digest) ∧
    ∀ entry ∈ h.journal.operations.finished.get c.key, entry.digest = digest

instance (c : CommandId) (digest : String) (h : JournalHistory) : Decidable (KnownAs c digest h) :=
  inferInstanceAs (Decidable (_ ∧ _))

theorem Fits.lookup (fits : h.Fits c digest outcome)
    (idle : lookupFor outcome ≠ .interrupted → h.journal.Closed c ∨ h.journal.rows c = none) :
    h.LookupFits c digest (lookupFor outcome) where
  success result told := by
    apply fits.success
    cases outcome with
    | succeeded kept payload => rfl
    | failed failure => cases told
    | interrupted => cases told
  failure failure told won := by
    rcases fits.failure won with success | rfl
    · cases outcome with
      | succeeded kept payload => cases kept <;> cases told
      | failed other => cases success
      | interrupted => cases told
    · cases told
  withdrawn failure told tells := by
    cases outcome with
    | succeeded kept payload => cases kept <;> cases told
    | failed other =>
      cases told
      exact fits.withdrawn tells
    | interrupted => cases told
  unknown told := by
    cases outcome with
    | succeeded kept payload => cases kept <;> cases told
    | failed other => cases told
    | interrupted => cases told
  idle _ final := idle final

/-- An ID nothing claims is closed, where the journal has it. -/
theorem Standing.closed_of_unclaimed (standing : Standing c h) (free : h.journal.operations.running.get c.key = none) :
    h.journal.Closed c ∨ h.journal.rows c = none := by
  cases found : h.journal.rows c with
  | none => exact .inr rfl
  | some record =>
    refine Or.inl ⟨by rw [found]; rfl, fun r taken at_r past => ?_⟩
    obtain ⟨live, claimed, _⟩ := standing.once.held r taken at_r past.1 past.2.1
    rw [free] at claimed
    cases claimed

theorem Standing.closed_of_row (standing : Standing c h) {record : RelayOperationRecord}
    (found : h.journal.rows c = some record) (ended : record.status ≠ .running) :
    h.journal.Closed c := by
  refine ⟨by rw [found]; rfl, ?_⟩
  rintro r ⟨request, phase⟩ at_r ⟨mine, claims, advanced⟩
  have lane : ∀ phase, h.journal.requests r = some ⟨request, phase⟩ → phase = .queued ∨ phase = .running → False := by
    intro phase at_r due
    have due' : h.journal.requests r = some ⟨request, .queued⟩ ∨ h.journal.requests r = some ⟨request, .running⟩ := by
      rcases due with rfl | rfl
      · exact .inl at_r
      · exact .inr at_r
    obtain ⟨-, record', found', running, -⟩ := standing.placed.taken r request due' mine
    cases found.symm.trans found'
    exact ended running
  cases phase with
  | reading => exact advanced rfl
  | starting =>
    have fresh := standing.placed.starting r request at_r mine
    rw [found] at fresh
    cases fresh
  | queued => exact lane _ at_r (.inl rfl)
  | running => exact lane _ at_r (.inr rfl)
  | _ => cases claims

theorem Standing.lookupAnswer_fits (standing : Standing c h) (known : KnownAs c digest h) :
    h.LookupFits c digest (lookupAnswer h.journal.rows c) := by
  unfold lookupAnswer
  cases found : h.journal.rows c with
  | none =>
    refine ⟨nofun, nofun, nofun, fun _ => ?_, fun _ _ => Or.inr found⟩
    by_contra ran
    have row := standing.recorded.started ran
    rw [found] at row
    cases row
  | some record =>
    have fits := standing.fits _ _ (.row found)
    rw [known.1 record found] at fits
    refine fits.lookup fun final => Or.inl (standing.closed_of_row found ?_)
    intro running
    exact final (by simp [recordedOutcome, running, lookupFor])

/-- What memory answers a lookup fits, or it says that the change runs. -/
theorem Standing.lookupOperation_fits (standing : Standing c h) (known : KnownAs c digest h)
    {l now : Nat} {lookup : OperationLookup}
    (answered : (h.journal.lookupOperation l c now).lookups l = some ⟨c, .answered lookup⟩) :
    h.LookupFits c digest lookup := by
  unfold RelayJournal.lookupOperation at answered
  split at answered
  · simp only [putLookup, Function.update_self, Option.some.injEq, TakenLookup.mk.injEq,
      LookupPhase.answered.injEq, true_and] at answered
    subst answered
    exact ⟨nofun, nofun, nofun, nofun, fun final => absurd rfl final⟩
  rename_i unclaimed
  have free : h.journal.operations.running.get c.key = none := by
    simpa [OrderedMap.has] using unclaimed
  rcases recentOperation_cases h.journal.operations c.key now with
    ⟨entry, found, recalled⟩ | ⟨finished, _, recalled⟩
  · rw [recalled] at answered
    simp only [putLookup, Function.update_self, Option.some.injEq, TakenLookup.mk.injEq,
      LookupPhase.answered.injEq, true_and] at answered
    subst answered
    have fits := standing.fits _ _ (.memory found)
    rw [known.2 entry found] at fits
    exact fits.lookup fun _ => standing.closed_of_unclaimed free
  · rw [recalled] at answered
    simp [putLookup] at answered

end JournalHistory

end Kiln.Relay
