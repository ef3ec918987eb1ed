import Kiln.Relay.Journal

/-!
# A change runs once

The claim on an operation ID is held in memory from the first request that carries the ID to
its outcome, and the journal has the ID before the change runs. So of all the requests that
carry it, over any restarts, failures and lapses of what is remembered, one at most runs.
-/

namespace Kiln.Relay
open Kiln.Lib Kiln.Operations Function

namespace RelayJournal

/-- What holds of the requests under one operation ID. -/
structure Once (c : CommandId) (s : RelayJournal) : Prop where
  /-- A request that claimed the ID is the one the registry names. -/
  held : ∀ r taken, s.requests r = some taken → taken.request.command = c → taken.phase.claims = true →
    ∃ live, s.operations.running.get c.key = some live ∧ live.claimant = r
  /-- Until its claimant's turn comes, the change hasn't run. -/
  waiting : ∀ r request, s.requests r = some ⟨request, .starting⟩ ∨
    s.requests r = some ⟨request, .queued⟩ → request.command = c → s.started c = []
  running : ∀ r request, s.requests r = some ⟨request, .running⟩ → request.command = c → s.started c = [request.digest]
  once : (s.started c).length ≤ 1

variable {c : CommandId} {s s' : RelayJournal} {r : Nat} {request : ChangeRequest} {phase : RequestPhase}

theorem Once.initial : Once c {} where
  held _ _ at_r := by simp at at_r
  waiting _ _ at_r := by simp at at_r
  running _ _ at_r := by simp at at_r
  once := by simp

variable {q : Nat}

/-- One request at a time holds the claim on an ID. -/
theorem Once.unique (once : Once c s) {a b : TakenRequest} (at_r : s.requests r = some a)
    (a_mine : a.request.command = c) (a_claims : a.phase.claims = true)
    (at_q : s.requests q = some b) (b_mine : b.request.command = c)
    (b_claims : b.phase.claims = true) : r = q := by
  obtain ⟨live, found, claimant⟩ := once.held r a at_r a_mine a_claims
  obtain ⟨live', found', claimant'⟩ := once.held q b at_q b_mine b_claims
  cases found.symm.trans found'
  exact claimant.symm.trans claimant'

/-- A step that makes no claim on the ID, and leaves its claimant's be, keeps `Once`. -/
theorem Once.frame (once : Once c s) (claims : ∀ q taken, s'.requests q = some taken → taken.request.command = c →
      taken.phase.claims = true → s.requests q = some taken)
    (registry : s'.operations.running.get c.key = s.operations.running.get c.key)
    (started : s'.started c = s.started c) : Once c s' where
  held q taken at_q mine claiming := by
    rw [registry]
    exact once.held q taken (claims q taken at_q mine claiming) mine claiming
  waiting q request at_q mine := by
    rw [started]
    refine once.waiting q request (at_q.imp ?_ ?_) mine
    · exact fun found => claims q _ found mine rfl
    · exact fun found => claims q _ found mine rfl
  running q request at_q mine := by
    rw [started]
    exact once.running q request (claims q _ at_q mine rfl) mine
  once := by rw [started]; exact once.once

variable {claimed : RequestPhase}

/-- A step of the claimant itself keeps `Once`, where its new phase fits what was run. -/
theorem Once.advance (once : Once c s) (own : s.requests r = some ⟨request, claimed⟩) (claims : claimed.claims = true)
    (mine : request.command = c) (own' : s'.requests r = some ⟨request, phase⟩)
    (others : ∀ q taken, q ≠ r → s'.requests q = some taken → taken.phase.claims = true → s.requests q = some taken)
    (held : phase.claims = true → ∃ live, s'.operations.running.get c.key = some live ∧ live.claimant = r)
    (waiting : phase = .starting ∨ phase = .queued → s'.started c = [])
    (running : phase = .running → s'.started c = [request.digest])
    (atMost : (s'.started c).length ≤ 1) : Once c s' := by
  have only : ∀ q taken, s'.requests q = some taken → taken.request.command = c →
      taken.phase.claims = true → q = r ∧ taken = ⟨request, phase⟩ := by
    intro q taken at_q taken_mine taken_claims
    by_cases same : q = r
    · subst same
      exact ⟨rfl, Option.some.inj (at_q.symm.trans own')⟩
    · have before := others q taken same at_q taken_claims
      exact absurd (once.unique before taken_mine taken_claims own mine claims) same
  refine ⟨?_, ?_, ?_, atMost⟩
  · intro q taken at_q taken_mine taken_claims
    obtain ⟨rfl, rfl⟩ := only q taken at_q taken_mine taken_claims
    exact held taken_claims
  · intro q other at_q other_mine
    rcases at_q with at_q | at_q
    · obtain ⟨-, same⟩ := only q _ at_q other_mine rfl
      exact waiting (Or.inl (congrArg TakenRequest.phase same).symm)
    · obtain ⟨-, same⟩ := only q _ at_q other_mine rfl
      exact waiting (Or.inr (congrArg TakenRequest.phase same).symm)
  · intro q other at_q other_mine
    obtain ⟨-, same⟩ := only q _ at_q other_mine rfl
    obtain rfl : other = request := congrArg TakenRequest.request same
    exact running (congrArg TakenRequest.phase same).symm

variable {taken : TakenRequest}

/-- A request answered, set to wait or dropped makes no claim. -/
theorem claims_of_put (idle : phase.claims = false)
    (at_q : (s.put r request phase).requests q = some taken) (claims : taken.phase.claims = true) :
    s.requests q = some taken := by
  by_cases same : q = r
  · subst same
    obtain rfl : (⟨request, phase⟩ : TakenRequest) = taken := by simpa using at_q
    rw [idle] at claims
    cases claims
  · simpa [update_of_ne same] using at_q

/-- A request of another ID never claims this one. -/
theorem claims_of_put_other (other : request.command ≠ c)
    (at_q : (s.put r request phase).requests q = some taken) (mine : taken.request.command = c) :
    s.requests q = some taken := by
  by_cases same : q = r
  · subst same
    obtain rfl : (⟨request, phase⟩ : TakenRequest) = taken := by simpa using at_q
    exact absurd mine other
  · simpa [update_of_ne same] using at_q

/-- A claim on an ID that nobody holds. -/
theorem Once.claim (once : Once c s) (free : s.operations.running.get request.command.key = none) :
    Once c (s.claim r request) := by
  by_cases mine : request.command = c
  · have only : ∀ q taken, (s.claim r request).requests q = some taken →
        taken.request.command = c → taken.phase.claims = true →
        q = r ∧ taken = ⟨request, .reading⟩ := by
      intro q taken at_q taken_mine claims
      by_cases own : q = r
      · subst own
        exact ⟨rfl, by simpa [RelayJournal.claim, eq_comm] using at_q⟩
      · have before : s.requests q = some taken := by
          simpa [RelayJournal.claim, update_of_ne own] using at_q
        obtain ⟨live, found, -⟩ := once.held q taken before taken_mine claims
        rw [← mine, free] at found
        cases found
    refine ⟨?_, ?_, ?_, once.once⟩
    · intro q taken at_q taken_mine claims
      obtain ⟨rfl, rfl⟩ := only q taken at_q taken_mine claims
      exact ⟨⟨none, q⟩, by simp [RelayJournal.claim, ← mine], rfl⟩
    · intro q other at_q other_mine
      rcases at_q with at_q | at_q
      · exact absurd (only q _ at_q other_mine rfl).2 (by simp)
      · exact absurd (only q _ at_q other_mine rfl).2 (by simp)
    · intro q other at_q other_mine
      exact absurd (only q _ at_q other_mine rfl).2 (by simp)
  · apply once.frame
    · exact fun q taken at_q taken_mine _ => claims_of_put_other mine at_q taken_mine
    · simp [RelayJournal.claim, mine]
    · rfl

theorem Once.journaled (once : Once c s) (now : Nat) : Once c (s.journaled r request now) := by
  have idle : ∀ phase : RequestPhase, phase.claims = false → Once c (s.put r request phase) :=
    fun phase none_held =>
      once.frame (fun _ _ at_q _ claims => claims_of_put none_held at_q claims) rfl rfl
  rcases journaled_cases s r request now with
    ⟨_, _, _, step⟩ | ⟨_, _, _, _, _, step⟩ | ⟨_, _, _, step⟩ | ⟨free, finished, _, step⟩
  · rw [step]; exact idle _ rfl
  · rw [step]; exact idle _ rfl
  · rw [step]; exact idle _ rfl
  · rw [step]
    have forgot : Once c { s with operations := { s.operations with finished := finished } } :=
      once.frame (fun _ _ at_q _ _ => at_q) rfl rfl
    exact forgot.claim free

theorem claims_of_settle_put {settled : SettledOperation} (idle : phase.claims = false)
    (at_q : update (fun q => (s.requests q).map (·.resume r settled)) r (some ⟨request, phase⟩) q = some taken)
    (claims : taken.phase.claims = true) : s.requests q = some taken ∧ q ≠ r := by
  by_cases same : q = r
  · subst same
    obtain rfl : (⟨request, phase⟩ : TakenRequest) = taken := by simpa using at_q
    rw [idle] at claims
    cases claims
  · rw [update_of_ne same] at at_q
    exact ⟨claims_of_resume at_q claims, same⟩

theorem Once.unclaimed (once : Once c s) (own : s.requests r = some ⟨request, claimed⟩) (claims : claimed.claims = true)
    (mine : request.command = c) (idle : phase.claims = false) {settled : SettledOperation}
    (at_q : update (fun q => (s.requests q).map (·.resume r settled)) r (some ⟨request, phase⟩) q = some taken)
    (taken_mine : taken.request.command = c) : taken.phase.claims = false := by
  by_contra still
  obtain ⟨before, apart⟩ := claims_of_settle_put idle at_q (by simpa using still)
  exact apart (once.unique before taken_mine (by simpa using still) own mine claims)

variable {now : Nat}

theorem Once.settle_put (once : Once c s) (own : s.requests r = some ⟨request, claimed⟩)
    (claims : claimed.claims = true) (idle : phase.claims = false) {madeWith : String}
    {outcome : RecordedOutcome} :
    Once c ((s.settle r request.command madeWith outcome now).put r request phase) := by
  by_cases mine : request.command = c
  · have none_left : ∀ q taken, update (fun q => (s.requests q).map (·.resume r ⟨madeWith, outcome⟩)) r
        (some ⟨request, phase⟩) q = some taken →
        taken.request.command = c → taken.phase.claims = false :=
      fun q taken => once.unclaimed own claims mine idle
    refine ⟨fun q taken at_q taken_mine still => ?_, fun q other at_q other_mine => ?_,
      fun q other at_q other_mine => ?_, once.once⟩
    · rw [none_left q taken at_q taken_mine] at still
      cases still
    · rcases at_q with at_q | at_q
      · cases none_left q _ at_q other_mine
      · cases none_left q _ at_q other_mine
    · cases none_left q _ at_q other_mine
  · exact once.frame (fun q taken at_q _ still => (claims_of_settle_put idle at_q still).1) (by simp [mine]) rfl

theorem Once.failBefore (once : Once c s) (own : s.requests r = some ⟨request, claimed⟩)
    (claims : claimed.claims = true) {cause : ControlCause} {aborted : Bool} :
    Once c (s.failBefore r request cause aborted now) :=
  once.settle_put own claims rfl

/-- A step that changes no request and no claim keeps `Once`. -/
theorem Once.same (once : Once c s) (same : s'.requests = s.requests)
    (registry : s'.operations.running = s.operations.running)
    (started : s'.started = s.started) : Once c s' :=
  once.frame (fun q taken at_q _ _ => by rwa [same] at at_q) (by rw [registry]) (by rw [started])

theorem Once.finish (once : Once c s) (own : s.requests r = some ⟨request, claimed⟩)
    (claims : claimed.claims = true) {exit : Except ControlCause String} {aborted : Bool} :
    Once c (s.finish r request exit aborted now) := by
  have settled : Once c ((s.settle r request.command request.digest (outcomeOf exit) now).put
      r request (.answered (ownReply request exit aborted))) := once.settle_put own claims rfl
  exact settled.same rfl rfl rfl

theorem Once.proceed (once : Once c s) {claimed : RequestPhase}
    (own : s.requests r = some ⟨request, claimed⟩) (claims : claimed.claims = true)
    (own' : s'.requests = update s.requests r (some ⟨request, phase⟩))
    (registry : ∀ key, key ≠ request.command.key → s'.operations.running.get key = s.operations.running.get key)
    (held : request.command = c → ∃ live, s'.operations.running.get c.key = some live ∧ live.claimant = r)
    (elsewhere : request.command ≠ c → s'.started c = s.started c)
    (waiting : request.command = c → phase = .starting ∨ phase = .queued → s'.started c = [])
    (running : request.command = c → phase = .running → s'.started c = [request.digest])
    (atMost : (s'.started c).length ≤ 1) : Once c s' := by
  have others : ∀ q taken, q ≠ r → s'.requests q = some taken → s.requests q = some taken := by
    intro q taken apart at_q
    simpa [own', update_of_ne apart] using at_q
  by_cases mine : request.command = c
  · exact once.advance own claims mine (by simp [own'])
      (fun q taken apart at_q _ => others q taken apart at_q) (fun _ => held mine)
      (waiting mine) (running mine) atMost
  apply once.frame
  · intro q taken at_q taken_mine _
    by_cases same : q = r
    · subst same
      obtain rfl : (⟨request, phase⟩ : TakenRequest) = taken := by simpa [own'] using at_q
      exact absurd taken_mine mine
    · exact others q taken same at_q
  · exact registry c.key (fun same => mine (CommandId.key_inj.mp same).symm)
  · exact elsewhere mine

/-- A read of the journal that finds nothing finds nothing of a change that ran. -/
def ReadsTruly (c : CommandId) (s : RelayJournal) (e : JournalEvent) : Prop :=
  ∀ r now request, e = .read r now → s.requests r = some ⟨request, .reading⟩ →
    request.command = c → s.rows c = none → s.started c = []

variable {e : JournalEvent}

theorem Once.next (once : Once c s) (truly : ReadsTruly c s e) (step : s.next e = some s') :
    Once c s' := by
  cases stepped_of_next step with
  | request _ => exact once.journaled _
  | @read r request now own =>
    unfold readPrior
    split
    · exact once.settle_put own rfl rfl
    rename_i unknown
    refine once.proceed own rfl rfl ?_ ?_ (fun _ => rfl) ?_ (fun _ h => by cases h) once.once
    · intro key apart
      simp [Ne.symm apart]
    · intro mine
      exact ⟨⟨some request.digest, r⟩, by simp [mine], rfl⟩
    · intro mine _
      exact truly r now request rfl own mine (mine ▸ unknown)
  | readFailed own => exact once.settle_put own rfl rfl
  | start own =>
    refine once.proceed own rfl rfl (fun _ _ => rfl) ?_ (fun _ => rfl) ?_ (fun _ h => by cases h) once.once
    · exact fun mine => once.held _ _ own mine rfl
    · exact fun mine _ => once.waiting _ _ (Or.inl own) mine
  | startFailed own =>
    have recorded : ∀ rows, Once c { s with rows := rows } := fun rows =>
      once.frame (fun _ _ at_q _ _ => at_q) rfl rfl
    apply Once.failBefore
    · exact recorded _
    · exact own
    · rfl
  | @begin r request own =>
    have started : request.command = c → s.started c = [] := once.waiting r request (Or.inr own)
    refine once.proceed own rfl rfl (fun _ _ => rfl) ?_ ?_ (fun _ h => by simp at h) ?_ ?_
    · exact fun mine => once.held _ _ own mine rfl
    · intro elsewhere
      simp [RelayJournal.begin, update_of_ne (Ne.symm elsewhere)]
    · intro mine _
      simp [RelayJournal.begin, mine, started mine]
    · by_cases mine : request.command = c
      · simp [RelayJournal.begin, mine, started mine]
      · simpa [RelayJournal.begin, update_of_ne (Ne.symm mine)] using once.once
  | reject own => exact once.finish own rfl
  | complete own =>
    apply Once.finish
    · exact once.same rfl rfl rfl
    · exact own
    · rfl
  | write _ => exact once.same rfl (by unfold RelayJournal.write; split <;> rfl) rfl
  | drop _ => exact once.frame (fun _ _ at_q _ claims => claims_of_put rfl at_q claims) rfl rfl
  | @lookup l command now _ =>
    rcases lookupOperation_cases s l command now with step | ⟨_, _, step⟩ | ⟨_, _, _, step⟩
    · rw [step]; exact once.same rfl rfl rfl
    · rw [step]; exact once.same rfl rfl rfl
    · rw [step]; exact once.same rfl rfl rfl
  | lookupRead _ => exact once.same rfl rfl rfl
  | lookupFailed _ => exact once.same rfl rfl rfl
  | restart =>
    exact ⟨fun _ _ at_q => by simp [restart] at at_q, fun _ _ at_q => by simp [restart] at at_q,
      fun _ _ at_q => by simp [restart] at at_q, once.once⟩
  | prune => exact once.same rfl rfl rfl

/-- The step leaves the journal's row of an ID. -/
def KeepsRow (c : CommandId) (s : RelayJournal) (e : JournalEvent) : Prop :=
  ∀ s' ∈ s.next e, (s.rows c).isSome → (s'.rows c).isSome

instance (c : CommandId) (s : RelayJournal) (e : JournalEvent) : Decidable (KeepsRow c s e) :=
  inferInstanceAs (Decidable (∀ s' ∈ s.next e, (s.rows c).isSome → (s'.rows c).isSome))

/-- A change is in the journal before it runs. -/
structure Recorded (c : CommandId) (s : RelayJournal) : Prop where
  queued : ∀ r request, s.requests r = some ⟨request, .queued⟩ → request.command = c → (s.rows c).isSome
  started : s.started c ≠ [] → (s.rows c).isSome

theorem startOperation_isSome (rows : OperationRows) (command : CommandId) (digest : String)
    (now : Nat) : (rows.startOperation command digest now command).isSome := by
  cases found : rows command with
  | none => simp [OperationRows.startOperation, found]
  | some record => simp [OperationRows.startOperation, found]

theorem startOperation_other (rows : OperationRows) {command : CommandId} (other : command ≠ c)
    (digest : String) (now : Nat) : rows.startOperation command digest now c = rows c := by
  cases found : rows command with
  | none => simp [OperationRows.startOperation, found, update_of_ne (Ne.symm other)]
  | some record => simp [OperationRows.startOperation, found]

/-- A step that queues and starts nothing keeps `Recorded`, while the row stays. -/
theorem Recorded.frame (recorded : Recorded c s) (kept : (s.rows c).isSome → (s'.rows c).isSome)
    (queued : ∀ q taken, s'.requests q = some taken → taken.phase = .queued → s.requests q = some taken)
    (started : s'.started c = s.started c) : Recorded c s' where
  queued q request at_q mine := kept (recorded.queued q request (queued q _ at_q rfl) mine)
  started some_started := kept (recorded.started (started ▸ some_started))

theorem queued_of_put (idle : phase ≠ .queued)
    (at_q : (s.put r request phase).requests q = some taken) (queued : taken.phase = .queued) :
    s.requests q = some taken := by
  by_cases same : q = r
  · subst same
    obtain rfl : (⟨request, phase⟩ : TakenRequest) = taken := by simpa using at_q
    exact absurd queued idle
  · simpa [update_of_ne same] using at_q

theorem Recorded.next (recorded : Recorded c s) (kept : KeepsRow c s e) (step : s.next e = some s') :
    Recorded c s' := by
  have row := kept s' step
  cases stepped_of_next step with
  | @request r request now _ =>
    rcases journaled_cases s r request now with
      ⟨_, _, _, step⟩ | ⟨_, _, _, _, _, step⟩ | ⟨_, _, _, step⟩ | ⟨_, _, _, step⟩
    all_goals
      rw [step] at row ⊢
      exact recorded.frame row (fun _ _ at_q queued => queued_of_put (by simp) at_q queued) rfl
  | @read r request now own =>
    unfold readPrior at row ⊢
    split at row
    · exact recorded.frame row (fun _ _ at_q queued => (claims_of_settle_put rfl at_q (by rw [queued]; rfl)).1) rfl
    · exact recorded.frame row (fun _ _ at_q queued => queued_of_put (by simp) at_q queued) rfl
  | readFailed _ =>
    exact recorded.frame row (fun _ _ at_q queued => (claims_of_settle_put rfl at_q (by rw [queued]; rfl)).1) rfl
  | @start r request now own =>
    refine ⟨fun q other at_q mine => ?_, fun some_started => row (recorded.started some_started)⟩
    by_cases same : q = r
    · subst same
      obtain rfl : request = other := by
        simpa using congrArg (Option.map TakenRequest.request) at_q
      subst mine
      exact startOperation_isSome s.rows request.command request.digest now
    · exact row (recorded.queued q other (by simpa [update_of_ne same] using at_q) mine)
  | startFailed _ =>
    refine recorded.frame row ?_ rfl
    intro q taken at_q queued
    exact (claims_of_settle_put rfl at_q (by rw [queued]; rfl)).1
  | @begin r request own =>
    refine ⟨fun q other at_q mine => row (recorded.queued q other ?_ mine), ?_⟩
    · exact queued_of_put (by simp) at_q rfl
    · intro some_started
      by_cases mine : request.command = c
      · exact row (recorded.queued r request own mine)
      · refine row (recorded.started ?_)
        simpa [RelayJournal.begin, update_of_ne (Ne.symm mine)] using some_started
  | reject _ =>
    exact recorded.frame row (fun _ _ at_q queued => (claims_of_settle_put rfl at_q (by rw [queued]; rfl)).1) rfl
  | complete _ =>
    exact recorded.frame row (fun _ _ at_q queued => (claims_of_settle_put rfl at_q (by rw [queued]; rfl)).1) rfl
  | write _ => exact recorded.frame row (fun _ _ at_q _ => at_q) rfl
  | drop _ =>
    exact recorded.frame row (fun _ _ at_q queued => queued_of_put (by simp) at_q queued) rfl
  | @lookup l command now _ =>
    rcases lookupOperation_cases s l command now with step | ⟨_, _, step⟩ | ⟨_, _, _, step⟩
    all_goals
      rw [step] at row ⊢
      exact recorded.frame row (fun _ _ at_q _ => at_q) rfl
  | lookupRead _ => exact recorded.frame row (fun _ _ at_q _ => at_q) rfl
  | lookupFailed _ => exact recorded.frame row (fun _ _ at_q _ => at_q) rfl
  | restart => exact recorded.frame row (fun _ _ at_q => by simp [restart] at at_q) rfl
  | prune => exact recorded.frame row (fun _ _ at_q _ => at_q) rfl

/-- What no step undoes: a change that ran has run. -/
theorem started_mono (step : s.next e = some s') : s.started c <+: s'.started c := by
  cases stepped_of_next step with
  | @request r request now _ =>
    rcases journaled_cases s r request now with
      ⟨_, _, _, step⟩ | ⟨_, _, _, _, _, step⟩ | ⟨_, _, _, step⟩ | ⟨_, _, _, step⟩
    all_goals
      rw [step]
      exact List.prefix_refl _
  | @read r request now own =>
    unfold readPrior
    split
    · exact List.prefix_refl _
    · exact List.prefix_refl _
  | @begin r request own =>
    by_cases mine : request.command = c
    · simp [RelayJournal.begin, mine]
    · simp [RelayJournal.begin, update_of_ne (Ne.symm mine)]
  | @lookup l command now _ =>
    rcases lookupOperation_cases s l command now with step | ⟨_, _, step⟩ | ⟨_, _, _, step⟩
    all_goals
      rw [step]
      exact List.prefix_refl _
  | _ => exact List.prefix_refl _

/-- The runs that leave the journal's row of an ID. -/
def keeping (c : CommandId) : System RelayJournal JournalEvent :=
  system.restrict (KeepsRow c)

/-- While its row is kept, an ID's invariants hold of every run. -/
theorem once_of_reachable (reached : (keeping c).Reachable s) : Once c s ∧ Recorded c s := by
  refine reached.invariant (I := fun s => Once c s ∧ Recorded c s) ?_ ?_
  · rintro s rfl
    exact ⟨.initial, ⟨fun _ _ at_q => by simp at at_q, fun ran => absurd rfl ran⟩⟩
  rintro s e s' ⟨once, recorded⟩ ⟨kept, step⟩
  refine ⟨once.next ?_ step, recorded.next kept step⟩
  intro r now request _ _ _ unknown
  by_contra ran
  have row := recorded.started ran
  rw [unknown] at row
  cases row

/-- While its row is kept, the change under an ID is started once at most, whatever the requests
    that carry the ID, failures, lapses and restarts; what is running under it is the request
    that was started; and once one was, it stays the only one, so that none that asks for
    something else is ever run. -/
theorem started_at_most_once (c : CommandId) {s s' : RelayJournal} {es : List JournalEvent}
    (reached : (keeping c).Reachable s) (later : (keeping c).Run s es s') :
    (s'.started c).length ≤ 1 ∧
    (∀ r request, s'.requests r = some ⟨request, .running⟩ → request.command = c →
      s'.started c = [request.digest]) ∧
    ∀ digest, digest ∈ s.started c → s'.started c = [digest] := by
  have once := (once_of_reachable (reached.run later)).1
  refine ⟨once.once, once.running, fun digest ran => ?_⟩
  have extends_started : s.started c <+: s'.started c := by
    clear once ran
    induction later with
    | nil => exact List.prefix_refl _
    | snoc before last ih => exact ih.trans (started_mono last.2)
  have still : digest ∈ s'.started c := extends_started.subset ran
  obtain ⟨only, eq⟩ := List.length_eq_one_iff.mp
    (Nat.le_antisymm once.once (List.length_pos_of_mem still))
  rw [eq, List.mem_singleton] at still
  rw [eq, still]

/-- A client, a command ID and two requests under it. -/
def hearth : ClientId := ⟨"hearth", by decide⟩

def deletion : CommandId := ⟨hearth, "delete-1"⟩

def deleteApp (digest : String) : ChangeRequest := ⟨deletion, "app.delete", digest, 100⟩

/-- A deletion runs, is cut off by a restart and asked for again, and another request reuses its ID. -/
def cutOffDeletion : List JournalEvent :=
  [.request 0 (deleteApp "a") 1, .request 1 (deleteApp "a") 1, .read 0 1, .start 0 2, .begin 0,
    .restart 3, .request 0 (deleteApp "b") 4, .read 0 4, .request 1 (deleteApp "a") 5]

theorem started_at_most_once_deletion :
    ∃ s, (keeping deletion).Reachable s ∧ s.started deletion = ["a"] ∧
      ((s.started deletion).length ≤ 1 ∧
      (∀ r request, s.requests r = some ⟨request, .running⟩ → request.command = deletion →
        s.started deletion = [request.digest]) ∧
      ∀ digest, digest ∈ s.started deletion → s.started deletion = [digest]) := by
  have reached := System.reachable_of_guardedRunAll (· = {}) next (KeepsRow deletion) rfl
    cutOffDeletion (by decide)
  exact ⟨_, reached, by decide, started_at_most_once deletion reached (.nil _)⟩

end RelayJournal

end Kiln.Relay
