import Kiln.Relay.JournalAnswers

/-!
# Repeats and lookups are told the truth

A repeat of a change is answered from memory, from the journal, or with what the claim it waits
for settles with. All three are true while no answer comes from a journal in doubt, and two runs
show what is told otherwise.
-/

namespace Kiln.Relay
open Kiln.Lib Kiln.Operations Function

namespace RelayJournal

/-- The claims on an ID, and the requests that wait for one, are about that ID. -/
structure Joined (c : CommandId) (s : RelayJournal) : Prop where
  named : ∀ live, s.operations.running.get c.key = some live →
    ∃ taken, s.requests live.claimant = some taken ∧ taken.request.command = c
  awaits : ∀ q request r, s.requests q = some ⟨request, .awaiting r⟩ → request.command = c →
    ∃ taken, s.requests r = some taken ∧ taken.request.command = c

variable {c : CommandId} {s s' : RelayJournal} {r : Nat} {request : ChangeRequest} {phase : RequestPhase}

theorem Joined.initial : Joined c {} where
  named live found := by simp at found
  awaits q request r at_q := by simp at at_q

/-- A step keeps `Joined` where it keeps what each request asks for, and a new claim or wait is about the ID it is made
for. -/
theorem Joined.frame (joined : Joined c s) (kept : ∀ q taken, s.requests q = some taken →
      ∃ taken', s'.requests q = some taken' ∧ taken'.request = taken.request)
    (named : ∀ live, s'.operations.running.get c.key = some live → s.operations.running.get c.key = some live ∨
      ∃ taken, s'.requests live.claimant = some taken ∧ taken.request.command = c)
    (awaits : ∀ q request r, s'.requests q = some ⟨request, .awaiting r⟩ → request.command = c →
      s.requests q = some ⟨request, .awaiting r⟩ ∨
      ∃ taken, s.requests r = some taken ∧ taken.request.command = c) : Joined c s' := by
  have carried : ∀ r, (∃ taken, s.requests r = some taken ∧ taken.request.command = c) →
      ∃ taken, s'.requests r = some taken ∧ taken.request.command = c := by
    rintro r ⟨taken, at_r, mine⟩
    obtain ⟨taken', at_r', same⟩ := kept r taken at_r
    exact ⟨taken', at_r', same ▸ mine⟩
  refine ⟨fun live found => ?_, fun q request r at_q mine => ?_⟩
  · rcases named live found with before | new
    · exact carried _ (joined.named live before)
    · exact new
  · rcases awaits q request r at_q mine with before | new
    · exact carried r (joined.awaits q request r before mine)
    · exact carried r new

/-- The request itself, in whatever phase, or a new one. -/
theorem kept_of_update (requests : Nat → Option TakenRequest)
    (own : ∀ taken, requests r = some taken → taken.request = request) (q : Nat)
    (taken : TakenRequest) (at_q : requests q = some taken) :
    ∃ taken', update requests r (some ⟨request, phase⟩) q = some taken' ∧ taken'.request = taken.request := by
  by_cases same : q = r
  · subst same
    exact ⟨⟨request, phase⟩, by simp, (own taken at_q).symm⟩
  · exact ⟨taken, by simpa [update_of_ne same] using at_q, rfl⟩

variable {other : ChangeRequest} {q : Nat}

theorem awaiting_of_update {requests : Nat → Option TakenRequest} (busy : ∀ a, phase ≠ .awaiting a) {a : Nat}
    (at_q : update requests r (some ⟨request, phase⟩) q = some ⟨other, .awaiting a⟩) :
    requests q = some ⟨other, .awaiting a⟩ := by
  by_cases same : q = r
  · subst same
    have phases : phase = .awaiting a := by
      simpa using congrArg (Option.map TakenRequest.phase) at_q
    exact absurd phases (busy a)
  · simpa [update_of_ne same] using at_q

theorem Joined.put (joined : Joined c s) (own : ∀ taken, s.requests r = some taken →
      taken.request = request) (busy : ∀ a, phase ≠ .awaiting a)
    (requests : s'.requests = update s.requests r (some ⟨request, phase⟩))
    (named : ∀ live, s'.operations.running.get c.key = some live →
      s.operations.running.get c.key = some live ∨ request.command = c ∧ live.claimant = r) :
    Joined c s' := by
  refine joined.frame ?_ ?_ ?_
  · intro q taken at_q
    rw [requests]
    exact kept_of_update s.requests own q taken at_q
  · intro live found
    rcases named live found with before | ⟨mine, claimant⟩
    · exact Or.inl before
    · exact Or.inr ⟨⟨request, phase⟩, by rw [requests, claimant]; simp, mine⟩
  · intro q other a at_q _
    rw [requests] at at_q
    exact Or.inl (awaiting_of_update busy at_q)

variable {settled : SettledOperation}

theorem awaiting_of_resume {a : Nat} (at_q : (s.requests q).map (·.resume r settled) = some ⟨other, .awaiting a⟩) :
    s.requests q = some ⟨other, .awaiting a⟩ := by
  obtain ⟨earlier, found, resumed⟩ := Option.map_eq_some_iff.mp at_q
  unfold TakenRequest.resume at resumed
  split at resumed
  · cases resumed
  · rw [found, resumed]

theorem Joined.settle_put (joined : Joined c s) (own : ∀ taken, s.requests r = some taken →
      taken.request = request) (busy : ∀ a, phase ≠ .awaiting a)
    (requests : s'.requests = update (fun q => (s.requests q).map (·.resume r settled)) r (some ⟨request, phase⟩))
    (running : s'.operations.running = s.operations.running.delete request.command.key) :
    Joined c s' := by
  have resumed : ∀ q taken, s.requests q = some taken → ∃ taken',
      (s.requests q).map (·.resume r settled) = some taken' ∧ taken'.request = taken.request := by
    intro q taken at_q
    refine ⟨taken.resume r settled, by simp [at_q], ?_⟩
    unfold TakenRequest.resume
    split
    · rfl
    · rfl
  refine joined.frame ?_ ?_ ?_
  · intro q taken at_q
    rw [requests]
    obtain ⟨taken', at_q', same⟩ := resumed q taken at_q
    have own' : ∀ taken, (s.requests r).map (·.resume r settled) = some taken → taken.request = request := by
      intro taken at_r
      obtain ⟨before, found, rfl⟩ := Option.map_eq_some_iff.mp at_r
      obtain ⟨_, equal, same⟩ := resumed r before found
      rw [found] at equal
      cases equal
      exact same.trans (own before found)
    obtain ⟨last, at_last, same'⟩ :=
      kept_of_update (fun q => (s.requests q).map (·.resume r settled)) own' q taken' at_q'
    exact ⟨last, at_last, same'.trans same⟩
  · intro live found
    rw [running, OrderedMap.get_delete] at found
    split at found
    · cases found
    · exact Or.inl found
  · intro q other a at_q _
    rw [requests] at at_q
    exact Or.inl (awaiting_of_resume (awaiting_of_update busy at_q))

/-- Every step keeps `Joined`. -/
theorem Joined.next (joined : Joined c s) {e : JournalEvent} (step : s.next e = some s') :
    Joined c s' := by
  have same : ∀ {r request phase}, s.requests r = some ⟨request, phase⟩ →
      ∀ taken, s.requests r = some taken → taken.request = request := by
    intro r request phase own taken at_r
    rw [own] at at_r
    cases at_r
    rfl
  cases stepped_of_next step with
  | @request r request now unused =>
    have own : ∀ taken, s.requests r = some taken → taken.request = request := by
      simp [unused]
    rcases journaled_cases s r request now with
      ⟨live, found, _, step⟩ | ⟨_, _, _, _, _, step⟩ | ⟨_, _, _, step⟩ | ⟨_, _, _, step⟩
    · rw [step]
      refine joined.frame (fun q taken at_q => kept_of_update s.requests own q taken at_q)
        (fun _ found => Or.inl found) ?_
      intro q other a at_q mine
      by_cases same : q = r
      · subst same
        obtain ⟨rfl, rfl⟩ : request = other ∧ live.claimant = a := by simpa using at_q
        exact Or.inr (joined.named live (mine ▸ found))
      · exact Or.inl (by simpa [update_of_ne same] using at_q)
    · rw [step]; exact joined.put own (by simp) rfl (fun _ found => Or.inl found)
    · rw [step]; exact joined.put own (by simp) rfl (fun _ found => Or.inl found)
    · rw [step]
      refine joined.put own (by simp) rfl ?_
      intro live found
      simp only [claim, put_operations, OrderedMap.get_set, CommandId.key_inj] at found
      split at found
      · cases found
        exact Or.inr ⟨‹_›, rfl⟩
      · exact Or.inl found
  | @read r request now own =>
    unfold readPrior
    split
    · exact joined.settle_put (same own) (by simp) rfl rfl
    refine joined.put (same own) (by simp) rfl ?_
    intro live found
    simp only [put_operations, OrderedMap.get_set, CommandId.key_inj] at found
    split at found
    · cases found
      exact Or.inr ⟨‹_›, rfl⟩
    · exact Or.inl found
  | readFailed own => exact joined.settle_put (same own) (by simp) rfl rfl
  | start own => exact joined.put (same own) (by simp) rfl (fun _ found => Or.inl found)
  | startFailed own =>
    refine joined.settle_put (same own) ?_ rfl rfl
    simp
  | begin own => exact joined.put (same own) (by simp) rfl (fun _ found => Or.inl found)
  | reject own => exact joined.settle_put (same own) (by simp) rfl rfl
  | complete own => exact joined.settle_put (same own) (by simp) rfl rfl
  | @write write landed last _ =>
    refine joined.frame (fun q taken at_q => ⟨taken, at_q, rfl⟩) (fun live found => Or.inl ?_)
      (fun _ _ _ at_q _ => Or.inl at_q)
    cases last with
    | false => exact found
    | true => exact found
  | drop own => exact joined.put (same own) (by simp) rfl (fun _ found => Or.inl found)
  | @lookup l command now _ =>
    rcases lookupOperation_cases s l command now with step | ⟨_, _, step⟩ | ⟨_, _, _, step⟩
    all_goals
      rw [step]
      exact joined.frame (fun q taken at_q => ⟨taken, at_q, rfl⟩) (fun _ found => Or.inl found)
        (fun _ _ _ at_q _ => Or.inl at_q)
  | restart =>
    refine ⟨fun live found => ?_, fun q request r at_q => ?_⟩
    · simp [restart] at found
    · simp [restart] at at_q
  | _ =>
    exact joined.frame (fun q taken at_q => ⟨taken, at_q, rfl⟩) (fun _ found => Or.inl found)
      (fun _ _ _ at_q _ => Or.inl at_q)

/-- A claim whose change is known to be its own: the journal knew nothing of it. -/
def Past (c : CommandId) (taken : TakenRequest) : Prop :=
  taken.request.command = c ∧ taken.phase.claims = true ∧ taken.phase ≠ .reading

/-- The registry names a digest under an ID only for a claim that is past its read. -/
def Sure (c : CommandId) (s : RelayJournal) : Prop :=
  ∀ live, s.operations.running.get c.key = some live → live.digest ≠ none →
    ∃ taken, s.requests live.claimant = some taken ∧ Past c taken

theorem Sure.frame (sure : Sure c s)
    (registry : ∀ live, s'.operations.running.get c.key = some live → live.digest ≠ none →
      s.operations.running.get c.key = some live)
    (kept : ∀ q taken, s.requests q = some taken → Past c taken →
      ∃ taken', s'.requests q = some taken' ∧ Past c taken') : Sure c s' := by
  intro live found named
  obtain ⟨taken, claimant, past⟩ := sure live (registry live found named) named
  exact kept _ taken claimant past

theorem past_of_put (own : ∀ taken, s.requests r = some taken → ¬ Past c taken)
    (q : Nat) (taken : TakenRequest) (at_q : s.requests q = some taken) (past : Past c taken) :
    ∃ taken', update s.requests r (some ⟨request, phase⟩) q = some taken' ∧ Past c taken' := by
  have apart : q ≠ r := by
    rintro rfl
    exact own taken at_q past
  exact ⟨taken, by simpa [update_of_ne apart] using at_q, past⟩

theorem past_of_advance (own : ∃ claimed, s.requests r = some ⟨request, claimed⟩)
    (claims : phase.claims = true) (advanced : phase ≠ .reading)
    (q : Nat) (taken : TakenRequest) (at_q : s.requests q = some taken) (past : Past c taken) :
    ∃ taken', update s.requests r (some ⟨request, phase⟩) q = some taken' ∧ Past c taken' := by
  by_cases same : q = r
  · subst same
    obtain ⟨claimed, own⟩ := own
    rw [own] at at_q
    cases at_q
    exact ⟨⟨request, phase⟩, by simp, past.1, claims, advanced⟩
  · exact ⟨taken, by simpa [update_of_ne same] using at_q, past⟩

theorem Sure.settle_put (sure : Sure c s) {claimed : RequestPhase} (own : s.requests r = some ⟨request, claimed⟩)
    (requests : s'.requests = update (fun q => (s.requests q).map (·.resume r settled)) r (some ⟨request, phase⟩))
    (running : s'.operations.running = s.operations.running.delete request.command.key) :
    Sure c s' := by
  intro live found named
  simp only [running, OrderedMap.get_delete, CommandId.key_inj] at found
  split at found
  · cases found
  rename_i other
  obtain ⟨taken, claimant, past⟩ := sure live found named
  have apart : live.claimant ≠ r := by
    intro same
    rw [same, own] at claimant
    cases claimant
    exact other past.1
  refine ⟨taken, ?_, past⟩
  have waits : taken.phase ≠ .awaiting r := by
    intro awaiting
    have claims := past.2.1
    rw [awaiting] at claims
    cases claims
  simp [requests, update_of_ne apart, claimant, TakenRequest.resume, waits]

theorem Sure.next (sure : Sure c s) {e : JournalEvent} (step : s.next e = some s') :
    Sure c s' := by
  cases stepped_of_next step with
  | @request r request now unused =>
    have own : ∀ taken, s.requests r = some taken → ¬ Past c taken := by simp [unused]
    rcases journaled_cases s r request now with
      ⟨_, _, _, step⟩ | ⟨_, _, _, _, _, step⟩ | ⟨_, _, _, step⟩ | ⟨_, _, _, step⟩
    · rw [step]; exact sure.frame (fun _ found _ => found) (past_of_put own)
    · rw [step]; exact sure.frame (fun _ found _ => found) (past_of_put own)
    · rw [step]; exact sure.frame (fun _ found _ => found) (past_of_put own)
    rw [step]
    refine sure.frame (fun live found named => ?_) (past_of_put own)
    simp only [claim, put_operations, OrderedMap.get_set] at found
    split at found
    · cases found
      exact absurd rfl named
    · exact found
  | @read r request now own =>
    unfold readPrior
    split
    · exact sure.settle_put own rfl rfl
    intro live found named
    simp only [put_operations, OrderedMap.get_set, CommandId.key_inj] at found
    split at found
    · cases found
      exact ⟨⟨request, .starting⟩, by simp, ‹_›, rfl, by simp⟩
    · obtain ⟨taken, claimant, past⟩ := sure live found named
      exact past_of_advance (s := s) ⟨_, own⟩ rfl (by simp) _ taken claimant past
  | readFailed own => exact sure.settle_put own rfl rfl
  | start own =>
    exact sure.frame (fun _ found _ => found) (past_of_advance ⟨_, own⟩ rfl (by simp))
  | startFailed own =>
    apply sure.settle_put own
    · rfl
    · rfl
  | begin own =>
    exact sure.frame (fun _ found _ => found) (past_of_advance ⟨_, own⟩ rfl (by simp))
  | reject own => exact sure.settle_put own rfl rfl
  | complete own => exact sure.settle_put own rfl rfl
  | @write write landed last _ =>
    refine sure.frame (fun live found _ => ?_) (fun q taken at_q past => ⟨taken, at_q, past⟩)
    cases last with
    | false => exact found
    | true => exact found
  | @drop r request claimant own =>
    refine sure.frame (fun _ found _ => found) (past_of_put ?_)
    intro taken at_r past
    rw [own] at at_r
    cases at_r
    cases past.2.1
  | @lookup l command now _ =>
    rcases lookupOperation_cases s l command now with step | ⟨_, _, step⟩ | ⟨_, _, _, step⟩
    all_goals
      rw [step]
      exact sure.frame (fun _ found _ => found) (fun q taken at_q past => ⟨taken, at_q, past⟩)
  | restart => exact fun live found => by simp [restart] at found
  | _ => exact sure.frame (fun _ found _ => found) (fun q taken at_q past => ⟨taken, at_q, past⟩)

/-! ## The answers of a step -/

/-- A request is answered in this step. -/
def Answered (s s' : RelayJournal) (r : Nat) (request : ChangeRequest) (reply : Reply) : Prop :=
  s'.requests r = some ⟨request, .answered reply⟩ ∧ s.requests r ≠ some ⟨request, .answered reply⟩

/-- A lookup is answered in this step. -/
def LookedUp (s s' : RelayJournal) (l : Nat) (command : CommandId) (lookup : OperationLookup) :
    Prop :=
  s'.lookups l = some ⟨command, .answered lookup⟩ ∧ s.lookups l ≠ some ⟨command, .answered lookup⟩

/-- What a step answers of the change under an ID is true: once it went through, each request for the same is told of
success, and a lookup finds it succeeded, or some repeat of it on its way; once it failed, none is told that it
succeeded. -/
structure AnswersTruly (c : CommandId) (s s' : RelayJournal) : Prop where
  requests : ∀ r request reply, Answered s s' r request reply → request.command = c →
    (s'.ended c = some true → s'.started c = [request.digest] → reply.tellsSuccess = true) ∧
    (s'.ended c = some false → reply.tellsSuccess = false)
  lookups : ∀ l lookup, LookedUp s s' l c lookup →
    (s'.ended c = some true → lookup = .running ∨ ∃ result, lookup = .succeeded result) ∧
    (s'.ended c = some false → ∀ result, lookup ≠ .succeeded result)

/-- A step that answers nobody. -/
theorem AnswersTruly.none (requests : ∀ q other reply, s'.requests q = some ⟨other, .answered reply⟩ →
      s.requests q = some ⟨other, .answered reply⟩)
    (lookups : ∀ l command lookup, s'.lookups l = some ⟨command, .answered lookup⟩ →
      s.lookups l = some ⟨command, .answered lookup⟩) : AnswersTruly c s s' where
  requests r request reply answered := absurd (requests r request reply answered.1) answered.2
  lookups l lookup looked := absurd (lookups l c lookup looked.1) looked.2

theorem AnswersTruly.of_lookup {l : Nat} {command : CommandId} {lookupPhase : LookupPhase}
    (own : ∀ lookup, lookupPhase = .answered lookup → command = c →
      (s'.ended c = some true → lookup = .running ∨ ∃ result, lookup = .succeeded result) ∧
      (s'.ended c = some false → ∀ result, lookup ≠ .succeeded result))
    (requests : s'.requests = s.requests)
    (lookups : s'.lookups = update s.lookups l (some ⟨command, lookupPhase⟩)) :
    AnswersTruly c s s' where
  requests _ _ _ answered := absurd (requests ▸ answered.1) answered.2
  lookups k lookup looked := by
    obtain ⟨at_k, new⟩ := looked
    rw [lookups] at at_k
    by_cases same : k = l
    · subst same
      have both : (⟨command, lookupPhase⟩ : TakenLookup) = ⟨c, .answered lookup⟩ := by
        simpa using at_k
      cases both
      exact own lookup rfl rfl
    · exact absurd (by simpa [update_of_ne same] using at_k) new

theorem answered_of_put {reply : Reply}
    (at_q : update s.requests r (some ⟨request, phase⟩) q = some ⟨other, .answered reply⟩) :
    (q = r ∧ request = other ∧ phase = .answered reply) ∨ s.requests q = some ⟨other, .answered reply⟩ := by
  by_cases same : q = r
  · subst same
    have both : (⟨request, phase⟩ : TakenRequest) = ⟨other, .answered reply⟩ := by
      simpa using at_q
    cases both
    exact Or.inl ⟨rfl, rfl, rfl⟩
  · exact Or.inr (by simpa [update_of_ne same] using at_q)

theorem AnswersTruly.of_put (own : ∀ reply, phase = .answered reply → request.command = c →
      (s'.ended c = some true → s'.started c = [request.digest] → reply.tellsSuccess = true) ∧
      (s'.ended c = some false → reply.tellsSuccess = false))
    (requests : s'.requests = update s.requests r (some ⟨request, phase⟩))
    (lookups : s'.lookups = s.lookups) : AnswersTruly c s s' where
  requests q other reply answered mine := by
    obtain ⟨at_q, new⟩ := answered
    rw [requests] at at_q
    rcases answered_of_put at_q with ⟨-, rfl, rfl⟩ | before
    · exact own reply rfl mine
    · exact absurd before new
  lookups _ _ looked := absurd (lookups ▸ looked.1) looked.2

theorem AnswersTruly.of_settle (joined : Joined c s)
    (at_r : ∀ taken, s.requests r = some taken → taken.request = request)
    (truth : request.command = c → Truth s' c settled)
    (own : ∀ reply, phase = .answered reply → request.command = c →
      (s'.ended c = some true → s'.started c = [request.digest] → reply.tellsSuccess = true) ∧
      (s'.ended c = some false → reply.tellsSuccess = false))
    (requests : s'.requests = update (fun q => (s.requests q).map (·.resume r settled)) r (some ⟨request, phase⟩))
    (lookups : s'.lookups = s.lookups) : AnswersTruly c s s' where
  requests q other reply answered mine := by
    obtain ⟨at_q, new⟩ := answered
    rw [requests] at at_q
    by_cases same : q = r
    · subst same
      have both : (⟨request, phase⟩ : TakenRequest) = ⟨other, .answered reply⟩ := by
        simpa using at_q
      cases both
      exact own reply rfl mine
    rw [update_of_ne same] at at_q
    obtain ⟨earlier, found, resumed⟩ := Option.map_eq_some_iff.mp at_q
    unfold TakenRequest.resume at resumed
    split at resumed
    · -- It waited for this claim.
      rename_i waited
      obtain ⟨asked, phase'⟩ := earlier
      dsimp only at waited resumed
      subst waited
      cases resumed
      obtain ⟨taken, claimant, claimant_mine⟩ := joined.awaits q other r found mine
      exact (truth (at_r taken claimant ▸ claimant_mine)).repeatReply other
    · rw [resumed] at found
      exact absurd found new
  lookups _ _ looked := absurd (lookups ▸ looked.1) looked.2

/-- The runs in which, while the row of an ID is kept, no answer comes from a journal in doubt. -/
def undisturbed (c : CommandId) : System RelayJournal JournalEvent :=
  system.restrict fun s e => KeepsRow c s e ∧ Undisturbed c s e

/-- What holds of an ID in every such run. -/
structure Kept (c : CommandId) (s : RelayJournal) : Prop where
  once : Once c s
  recorded : Recorded c s
  faithful : Faithful c s
  joined : Joined c s
  sure : Sure c s

theorem kept_of_reachable (reached : (undisturbed c).Reachable s) : Kept c s := by
  refine reached.invariant (I := Kept c) ?_ ?_
  · rintro s rfl
    refine ⟨.initial, ⟨fun _ _ at_q => by simp at at_q, fun ran => absurd rfl ran⟩, .initial,
      .initial, fun live found => by simp at found⟩
  rintro s e s' ⟨once, recorded, faithful, joined, sure⟩ ⟨⟨keeps, clear⟩, step⟩
  have truly : ReadsTruly c s e := by
    intro r now request _ _ _ unknown
    by_contra ran
    have row := recorded.started ran
    rw [unknown] at row
    cases row
  exact ⟨once.next truly step, recorded.next keeps step,
    faithful.next once keeps clear step, joined.next step, sure.next step⟩

/-- A change that a claim is past its read for hasn't ended. -/
theorem Kept.past_not_ended (kept : Kept c s) {taken : TakenRequest}
    (at_r : s.requests r = some taken) (past : Past c taken) : s.ended c = none := by
  obtain ⟨request, phase⟩ := taken
  obtain ⟨mine, claims, advanced⟩ := past
  cases phase with
  | reading => exact absurd rfl advanced
  | starting => exact kept.faithful.not_ended (kept.faithful.starting r request at_r mine)
  | queued => exact (kept.faithful.taken r request (Or.inl at_r) mine).1
  | running => exact (kept.faithful.taken r request (Or.inr at_r) mine).1
  | _ => cases claims

theorem ownReply_truly {exit : Except ControlCause String} {aborted : Bool}
    (plain : ∀ cause, exit = .error cause → (controlFailureFor cause aborted).tellsSuccess = false)
    (truth : Truth s' c ⟨request.digest, outcomeOf exit⟩) :
    (s'.ended c = some true → s'.started c = [request.digest] → (ownReply request exit aborted).tellsSuccess = true) ∧
    (s'.ended c = some false → (ownReply request exit aborted).tellsSuccess = false) := by
  cases exit with
  | ok payload =>
    refine ⟨fun _ _ => by simp [ownReply], fun ended => ?_⟩
    cases truth.failure ended
  | error cause =>
    refine ⟨fun ended => ?_, fun _ => plain cause rfl⟩
    obtain ⟨-, kept, payload, outcome⟩ := truth.success ended
    cases outcome

/-- What is told of an ID whose change hasn't ended can't be wrong. -/
theorem untold {reply : Reply} (running : s'.ended c = none) :
    (s'.ended c = some true → s'.started c = [request.digest] → reply.tellsSuccess = true) ∧
    (s'.ended c = some false → reply.tellsSuccess = false) :=
  ⟨fun h => by simp [running] at h, fun h => by simp [running] at h⟩

/-- In every run that keeps the row of an ID and answers from no journal in doubt, each answer
    about the ID is true to how its change ended. -/
theorem answers_truly (c : CommandId) {s s' : RelayJournal} {e : JournalEvent}
    (reached : (undisturbed c).Reachable s) (step : (undisturbed c).step s e s') :
    AnswersTruly c s s' := by
  have kept := kept_of_reachable reached
  have faithful := kept.faithful
  obtain ⟨⟨_, clear⟩, step⟩ := step
  have same : ∀ {r request phase}, s.requests r = some ⟨request, phase⟩ →
      ∀ taken, s.requests r = some taken → taken.request = request := by
    intro r request phase own taken at_r
    rw [own] at at_r
    cases at_r
    rfl
  cases stepped_of_next step with
  | @request r request now unused =>
    rcases journaled_cases s r request now with
      ⟨_, _, _, step⟩ | ⟨live, digest, found, named, other, step⟩ | ⟨_, entry, found, step⟩ |
      ⟨_, _, _, step⟩
    · rw [step]; exact .of_put (by simp) rfl rfl
    · rw [step]
      refine .of_put (fun reply _ mine => untold ?_) rfl rfl
      obtain ⟨taken, claimant, past⟩ := kept.sure live (mine ▸ found) (by simp [named])
      exact kept.past_not_ended claimant past
    · rw [step]
      refine .of_put (fun reply answer mine => ?_) rfl rfl
      cases answer
      exact ((faithful.remembered entry (mine ▸ found)).congr rfl rfl).repeatReply request
    · rw [step]; exact .of_put (by simp) rfl rfl
  | @read r request now own =>
    unfold readPrior
    split
    · rename_i prior found
      have truth := fun mine : request.command = c =>
        faithful.read_truth clear own mine (mine ▸ found)
      refine .of_settle kept.joined (same own) (fun mine => (truth mine).congr rfl rfl)
        (fun reply answer mine => ?_) rfl rfl
      cases answer
      exact ((truth mine).congr rfl rfl).repeatReply request
    · exact .of_put (by simp) rfl rfl
  | @readFailed r request message aborted now own =>
    refine .of_settle kept.joined (same own)
      (fun mine => (readFailed_truth clear own mine).congr rfl rfl)
      (fun reply answer mine => ?_) rfl rfl
    cases answer
    exact ⟨fun ended => absurd ended (clear _ own mine),
      fun _ => controlFailureFor_tellsSuccess aborted (by simp)⟩
  | start own => exact .of_put (by simp) rfl rfl
  | @startFailed r request message committed aborted now own =>
    have running : request.command = c → s.ended c = none := fun mine =>
      faithful.not_ended (faithful.starting r request own mine)
    refine .of_settle kept.joined (same own) (fun mine => .of_running (running mine))
      (fun reply answer mine => untold (running mine)) rfl rfl
  | begin own => exact .of_put (by simp) rfl rfl
  | @reject r request error aborted now own =>
    have running : request.command = c → s.ended c = none := fun mine =>
      (faithful.taken r request (Or.inl own) mine).1
    exact .of_settle kept.joined (same own) (fun mine => .of_running (running mine))
      (fun reply answer mine => untold (running mine)) rfl rfl
  | @complete r request exit aborted now own =>
    have truth := faithful.complete_truth kept.once own exit
    refine .of_settle kept.joined (same own) (fun mine => (truth mine).congr rfl rfl)
      (fun reply answer mine => ?_) rfl rfl
    cases answer
    refine ownReply_truly (fun cause failed => ?_) ((truth mine).congr rfl rfl)
    cases exit with
    | ok payload => cases failed
    | error failure =>
      cases failed
      exact executionFailure_tellsSuccess failure aborted
  | write _ => exact .none (fun _ _ _ at_q => at_q) (fun _ _ _ at_l => at_l)
  | drop _ => exact .of_put (by simp) rfl rfl
  | @lookup l command now _ =>
    rcases lookupOperation_cases s l command now with
      step | ⟨entry, found, step⟩ | ⟨_, finished, _, step⟩
    · rw [step]
      refine .of_lookup (fun lookup answer mine => ?_) rfl rfl
      cases answer
      exact ⟨fun _ => Or.inl rfl, fun _ _ => by simp⟩
    · rw [step]
      refine .of_lookup (fun lookup answer mine => ?_) rfl rfl
      cases answer
      have told := (faithful.remembered entry (mine ▸ found)).lookupFor
      exact ⟨fun ended => Or.inr (told.1 ended), told.2⟩
    · rw [step]
      refine .of_lookup (fun lookup answer mine => ?_) rfl rfl
      cases answer
  | @lookupRead l command own =>
    refine .of_lookup (fun lookup answer mine => ?_) rfl rfl
    cases answer
    subst mine
    cases found : s.rows command with
    | none =>
      have running : s.ended command = none := faithful.not_ended found
      have vacuous : ∀ ended, s.ended command ≠ some ended := by simp [running]
      exact ⟨fun h => absurd h (vacuous _), fun h => absurd h (vacuous _)⟩
    | some record =>
      have told := ((faithful.row record found).settled
        (fun ended => clear _ own rfl ended record found)).lookupFor
      simp only [lookupAnswer, found]
      exact ⟨fun ended => Or.inr (told.1 ended), told.2⟩
  | lookupFailed _ =>
    refine .of_lookup (fun lookup answer mine => ?_) rfl rfl
    cases answer
  | restart =>
    refine .none (fun q other reply at_q => ?_) (fun l command lookup at_l => ?_)
    · simp [restart] at at_q
    · simp [restart] at at_l
  | prune => exact .none (fun _ _ _ at_q => at_q) (fun _ _ _ at_l => at_l)

/-- A deletion that goes through. -/
def deletionRuns : List JournalEvent :=
  [.request 0 (deleteApp "a") 0, .read 0 0, .start 0 0, .begin 0, .complete 0 (.ok "done") false 0]

/-- The write of a deletion's outcome. -/
def deletionSucceeded : OutcomeWrite := ⟨deletion, (RecordedOutcome.succeeded true "done").finished⟩

theorem answers_truly_deletion :
    ∃ s s', (undisturbed deletion).Reachable s ∧
      (undisturbed deletion).step s (.read 1 recentOperationMs) s' ∧
      s'.ended deletion = some true ∧
      s'.requests 1 = some ⟨deleteApp "a", .answered (.error resultUnavailable)⟩ ∧
      AnswersTruly deletion s s' := by
  have reached := System.reachable_of_guardedRunAll (· = {}) next
    (fun s e => KeepsRow deletion s e ∧ Undisturbed deletion s e) rfl
    (deletionRuns ++ [.write deletionSucceeded true true,
      .request 1 (deleteApp "a") recentOperationMs]) (by decide)
  refine ⟨_, _, reached, ⟨by decide, (Option.some_get (by decide)).symm⟩, by decide, by decide, ?_⟩
  exact answers_truly deletion reached ⟨by decide, (Option.some_get (by decide)).symm⟩

/-- A deletion went through, and once memory has dropped its outcome a repeat is told otherwise:
    that it was interrupted, while the outcome isn't written yet, or that it failed, where the
    repeat's own read of the journal did. -/
theorem answers_not_truly :
    (∃ s s', (keeping deletion).Reachable s ∧
      (keeping deletion).step s (.read 1 recentOperationMs) s' ∧
      s'.ended deletion = some true ∧ s'.started deletion = ["a"] ∧
      s'.requests 1 = some ⟨deleteApp "a", .answered (.error operationInterrupted)⟩ ∧
      ¬ AnswersTruly deletion s s') ∧
    ∃ s s', (keeping deletion).Reachable s ∧
      (keeping deletion).step s (.readFailed 1 "database is locked" false recentOperationMs) s' ∧
      s'.ended deletion = some true ∧ s'.started deletion = ["a"] ∧
      s'.requests 1 = some ⟨deleteApp "a",
        .answered (.error ⟨"operation_failed", "database is locked", false⟩)⟩ ∧
      ¬ AnswersTruly deletion s s' := by
  constructor
  · have reached := System.reachable_of_guardedRunAll (· = {}) next (KeepsRow deletion) rfl
      (deletionRuns ++ [.request 1 (deleteApp "a") recentOperationMs]) (by decide)
    refine ⟨_, _, reached, ⟨by decide, (Option.some_get (by decide)).symm⟩, by decide, by decide,
      by decide, fun truly => ?_⟩
    have told := (truly.requests 1 (deleteApp "a") (.error operationInterrupted)
      ⟨by decide, by decide⟩ rfl).1 (by decide) (by decide)
    cases told
  · have reached := System.reachable_of_guardedRunAll (· = {}) next (KeepsRow deletion) rfl
      (deletionRuns ++ [.write deletionSucceeded true true,
        .request 1 (deleteApp "a") recentOperationMs]) (by decide)
    refine ⟨_, _, reached, ⟨by decide, (Option.some_get (by decide)).symm⟩, by decide, by decide,
      by decide, fun truly => ?_⟩
    have told := (truly.requests 1 (deleteApp "a")
      (.error ⟨"operation_failed", "database is locked", false⟩)
      ⟨by decide, by decide⟩ rfl).1 (by decide) (by decide)
    cases told

end RelayJournal

end Kiln.Relay
