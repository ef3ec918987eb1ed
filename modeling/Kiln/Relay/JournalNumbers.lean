import Kiln.Relay.JournalHistory

/-!
# Requests keep their numbers

A request keeps what it asked for from the step that takes it, and its phase only goes on: a
change that runs was due, and is answered as it ends. So a request whose change began runs or is
answered, and one whose change went through is told so.
-/

namespace Kiln.Relay
open Kiln.Lib Kiln.Operations Function

namespace RelayJournal

/-- How the phase of a request goes on in a step. -/
inductive Moves (e : JournalEvent) (r : Nat) (request : ChangeRequest) :
    RequestPhase → RequestPhase → Prop
  | stays {phase : RequestPhase} : Moves e r request phase phase
  | advances {phase phase' : RequestPhase} (still : phase ≠ .running)
      (unanswered : ∀ reply, phase ≠ .answered reply) (after : phase' ≠ .running)
      (claims : phase'.claims = true → phase.claims = true) :
      Moves e r request phase phase'
  | begins (due : e = .begin r) : Moves e r request .queued .running
  | ends {exit aborted now} (ended : e = .complete r exit aborted now) : Moves e r request .running
        (.answered (ownReply request (exit.mapError ExecutionFailure.cause) aborted))

variable {s s' : RelayJournal} {e : JournalEvent} {r : Nat} {request : ChangeRequest} {phase : RequestPhase}

variable {phase' : RequestPhase} {request' : ChangeRequest} {q : Nat}

theorem moves_of_put {phase₀ phase'' : RequestPhase} (own : s.requests r = some ⟨request, phase₀⟩)
    (at_q : update s.requests r (some ⟨request, phase'⟩) q = some ⟨request', phase''⟩)
    (moves : Moves e r request phase₀ phase') :
    ∃ before, s.requests q = some ⟨request', before⟩ ∧ Moves e q request' before phase'' := by
  by_cases here : q = r
  · subst here
    rw [update_self] at at_q
    cases at_q
    exact ⟨phase₀, own, moves⟩
  · rw [update_of_ne here] at at_q
    exact ⟨phase'', at_q, .stays⟩

/-- A request as its claim settles: others that wait for it are answered. -/
theorem moves_of_settle_put {phase₀ phase'' : RequestPhase}
    {settled : SettledOperation} (own : s.requests r = some ⟨request, phase₀⟩)
    (at_q : update (fun q => (s.requests q).map (·.resume r settled)) r
      (some ⟨request, phase'⟩) q = some ⟨request', phase''⟩)
    (moves : Moves e r request phase₀ phase') :
    ∃ before, s.requests q = some ⟨request', before⟩ ∧ Moves e q request' before phase'' := by
  by_cases here : q = r
  · subst here
    rw [update_self] at at_q
    cases at_q
    exact ⟨phase₀, own, moves⟩
  rw [update_of_ne here] at at_q
  obtain ⟨⟨request₀, before⟩, found, resumed⟩ := Option.map_eq_some_iff.mp at_q
  unfold TakenRequest.resume at resumed
  split at resumed
  · rename_i waits
    cases resumed
    change before = .awaiting r at waits
    subst waits
    exact ⟨.awaiting r, found, .advances nofun nofun nofun nofun⟩
  · obtain ⟨rfl, rfl⟩ := TakenRequest.mk.inj resumed
    exact ⟨before, found, .stays⟩

/-- A request that comes isn't running. -/
theorem moves_of_fresh_put (at_q : update s.requests r (some ⟨request, phase⟩) q = some ⟨request', phase'⟩)
    (still : phase ≠ .running) :
    (q = r ∧ request' = request ∧ phase' ≠ .running) ∨ s.requests q = some ⟨request', phase'⟩ := by
  by_cases here : q = r
  · subst here
    rw [update_self] at at_q
    cases at_q
    exact .inl ⟨rfl, rfl, still⟩
  · rw [update_of_ne here] at at_q
    exact .inr at_q

theorem moves_of_next (step : s.next e = some s') (at_r : s'.requests r = some ⟨request, phase'⟩) :
    (s.requests r = none ∧ phase' ≠ .running ∧ ∃ now, e = .request r request now) ∨
      ∃ phase, s.requests r = some ⟨request, phase⟩ ∧ Moves e r request phase phase' := by
  have same : s.requests r = some ⟨request, phase'⟩ →
      ∃ phase, s.requests r = some ⟨request, phase⟩ ∧ Moves e r request phase phase' :=
    fun found => ⟨phase', found, .stays⟩
  cases stepped_of_next step with
  | @request r₀ request₀ now unused =>
    have put : ∀ {phase}, update s.requests r₀ (some ⟨request₀, phase⟩) r = some ⟨request, phase'⟩ →
        phase ≠ RequestPhase.running → (s.requests r = none ∧ phase' ≠ .running ∧
            ∃ now', JournalEvent.request r₀ request₀ now = .request r request now') ∨
          ∃ phase, s.requests r = some ⟨request, phase⟩ ∧ Moves (.request r₀ request₀ now) r request phase phase' := by
      intro phase at_r still
      rcases moves_of_fresh_put at_r still with ⟨rfl, rfl, still'⟩ | before
      · exact .inl ⟨unused, still', now, rfl⟩
      · exact .inr (same before)
    rcases journaled_cases s r₀ request₀ now with
      ⟨_, _, _, step⟩ | ⟨_, _, _, _, _, step⟩ | ⟨_, _, _, step⟩ | ⟨_, _, _, step⟩
    all_goals
      rw [step] at at_r
      exact put at_r nofun
  | @read r₀ request₀ now own =>
    right
    unfold readPrior at at_r
    split at at_r
    · exact moves_of_settle_put own at_r (.advances nofun nofun nofun fun _ => rfl)
    · exact moves_of_put own at_r (.advances nofun nofun nofun fun _ => rfl)
  | readFailed own => exact .inr (moves_of_settle_put own at_r (.advances nofun nofun nofun fun _ => rfl))
  | start own => exact .inr (moves_of_put own at_r (.advances nofun nofun nofun fun _ => rfl))
  | startFailed own => exact .inr (moves_of_settle_put own at_r (.advances nofun nofun nofun fun _ => rfl))
  | begin own => exact .inr (moves_of_put own at_r (.begins rfl))
  | reject own => exact .inr (moves_of_settle_put own at_r (.advances nofun nofun nofun fun _ => rfl))
  | complete own => exact .inr (moves_of_settle_put own at_r (.ends rfl))
  | drop own => exact .inr (moves_of_put own at_r (.advances nofun nofun nofun nofun))
  | @lookup l command now _ =>
    right
    rcases lookupOperation_cases s l command now with step | ⟨_, _, step⟩ | ⟨_, _, _, step⟩
    all_goals
      rw [step] at at_r
      exact same at_r
  | restart => exact absurd at_r (by simp [restart])
  | write _ => exact .inr (same at_r)
  | lookupRead _ => exact .inr (same at_r)
  | lookupFailed _ => exact .inr (same at_r)
  | prune => exact .inr (same at_r)

theorem Moves.claims {phase : RequestPhase} (moves : Moves e r request phase phase')
    (claims : phase'.claims = true) : phase.claims = true := by
  cases moves with
  | stays => exact claims
  | advances _ _ _ before => exact before claims
  | begins => rfl
  | ends => cases claims

theorem lookup_of_next (step : s.next e = some s') {l : Nat} {c : CommandId} {phase : LookupPhase}
    (at_l : s'.lookups l = some ⟨c, phase⟩) :
    s.lookups l = some ⟨c, phase⟩ ∨ (∃ now, e = .lookup l c now ∧ s.lookups l = none ∧ s' = s.lookupOperation l c now) ∨
      (e = .lookupRead l ∧ s.lookups l = some ⟨c, .reading⟩ ∧ phase = .answered (lookupAnswer s.rows c)) ∨
      (s.lookups l = some ⟨c, .reading⟩ ∧ ∃ failure, phase = .failed failure) := by
  cases stepped_of_next step with
  | @request r₀ request₀ now unused =>
    left
    rcases journaled_cases s r₀ request₀ now with
      ⟨_, _, _, step⟩ | ⟨_, _, _, _, _, step⟩ | ⟨_, _, _, step⟩ | ⟨_, _, _, step⟩
    all_goals
      rw [step] at at_l
      exact at_l
  | @read r₀ request₀ now own =>
    unfold readPrior at at_l
    split at at_l
    · exact .inl at_l
    · exact .inl at_l
  | @lookup l₀ command now unused =>
    by_cases here : l = l₀
    · subst here
      have mine : command = c := by
        rcases lookupOperation_cases s l command now with step | ⟨_, _, step⟩ | ⟨_, _, _, step⟩
        all_goals
          rw [step] at at_l
          simp only [putLookup, update_self, Option.some.injEq, TakenLookup.mk.injEq] at at_l
          exact at_l.1
      subst mine
      exact .inr (.inl ⟨now, rfl, unused, rfl⟩)
    · left
      rcases lookupOperation_cases s l₀ command now with step | ⟨_, _, step⟩ | ⟨_, _, _, step⟩
      all_goals
        rw [step] at at_l
        simpa [putLookup, here] using at_l
  | @lookupRead l₀ command own =>
    by_cases here : l = l₀
    · subst here
      simp only [putLookup, update_self, Option.some.injEq, TakenLookup.mk.injEq] at at_l
      obtain ⟨rfl, rfl⟩ := at_l
      exact .inr (.inr (.inl ⟨rfl, own, rfl⟩))
    · exact .inl (by simpa [putLookup, here] using at_l)
  | @lookupFailed l₀ command message aborted own =>
    by_cases here : l = l₀
    · subst here
      simp only [putLookup, update_self, Option.some.injEq, TakenLookup.mk.injEq] at at_l
      obtain ⟨rfl, rfl⟩ := at_l
      exact .inr (.inr (.inr ⟨own, _, rfl⟩))
    · exact .inl (by simpa [putLookup, here] using at_l)
  | restart => exact absurd at_l (by simp [restart])
  | readFailed _ => exact .inl at_l
  | start _ => exact .inl at_l
  | startFailed _ => exact .inl at_l
  | begin _ => exact .inl at_l
  | reject _ => exact .inl at_l
  | complete _ => exact .inl at_l
  | drop _ => exact .inl at_l
  | write _ => exact .inl at_l
  | prune => exact .inl at_l

end RelayJournal

namespace JournalHistory

variable {h h' : JournalHistory} {e : JournalEvent}

/-- The requests whose change began, or went through, as the journal still has them. -/
structure Ran (h : JournalHistory) : Prop where
  running : ∀ r request, h.journal.requests r = some ⟨request, .running⟩ → (r, request) ∈ h.began
  began : ∀ entry ∈ h.began, ∀ taken, h.journal.requests entry.1 = some taken →
    taken.phase = .running ∨ ∃ reply, taken.phase = .answered reply
  went : ∀ entry ∈ h.went, entry ∈ h.began ∧ ∀ taken, h.journal.requests entry.1 = some taken →
    ∃ reply, taken.phase = .answered reply ∧ reply.tellsSuccess = true

theorem Ran.initial : Ran {} := by
  constructor <;> simp

/-- A request whose number the history has isn't new. -/
theorem not_fresh {r now : Nat} {request : ChangeRequest} (step : h.next (.request r request now) = some h')
    {entry : Nat × ChangeRequest} (member : entry ∈ h.began) : entry.1 ≠ r := by
  unfold next at step
  split at step
  · rename_i fresh
    simpa using List.all_eq_true.mp fresh entry member
  · cases step

theorem Ran.next (ran : Ran h) (step : h.next e = some h') : Ran h' := by
  have journal := journal_of_next step
  refine ⟨fun r request at_r => ?_, fun entry member taken at_r => ?_, fun entry member => ?_⟩
  · rcases RelayJournal.moves_of_next journal at_r with ⟨_, still, _⟩ | ⟨phase, before, moves⟩
    · exact absurd rfl still
    · cases moves with
      | stays => exact began_mono step (ran.running r request before)
      | advances _ _ after _ => exact absurd rfl after
      | begins due =>
        subst due
        unfold JournalHistory.next at step
        split at step
        · obtain ⟨_, _, rfl⟩ := Option.map_eq_some_iff.mp step
          exact List.mem_append_right _ (mem_noted.mpr ⟨rfl, _, before⟩)
        · cases step
  · obtain ⟨request, phase'⟩ := taken
    rcases mem_began step member with before | ⟨rfl, due⟩
    · rcases RelayJournal.moves_of_next journal at_r with ⟨_, _, now, rfl⟩ | ⟨phase, found, moves⟩
      · exact absurd rfl (not_fresh step before)
      · have begun := ran.began entry before _ found
        cases moves with
        | stays => exact begun
        | advances still unanswered _ _ =>
          rcases begun with running | ⟨reply, answered⟩
          · exact absurd running still
          · exact absurd answered (unanswered reply)
        | begins => exact .inl rfl
        | ends => exact .inr ⟨_, rfl⟩
    · left
      simp only [RelayJournal.next, due, Option.some.injEq] at journal
      rw [← journal] at at_r
      simp only [RelayJournal.begin, RelayJournal.put_requests, update_self,
        Option.some.injEq, TakenRequest.mk.injEq] at at_r
      exact at_r.2.symm
  · rcases mem_went step member with before | ⟨payload, aborted, now, rfl, own⟩
    · obtain ⟨begun, told⟩ := ran.went entry before
      refine ⟨began_mono step begun, ?_⟩
      rintro ⟨request, phase'⟩ at_r
      rcases RelayJournal.moves_of_next journal at_r with ⟨_, _, now, rfl⟩ | ⟨phase, found, moves⟩
      · exact absurd rfl (not_fresh step begun)
      obtain ⟨reply, answered, success⟩ := told _ found
      cases moves with
      | stays => exact ⟨reply, answered, success⟩
      | advances _ unanswered _ _ => exact absurd answered (unanswered reply)
      | begins => cases answered
      | ends => cases answered
    · refine ⟨began_mono step (ran.running entry.1 entry.2 own), ?_⟩
      intro taken at_r
      simp only [RelayJournal.next, own, Option.some.injEq] at journal
      rw [← journal] at at_r
      simp only [RelayJournal.complete, RelayJournal.finish, RelayJournal.put_requests,
        update_self, Option.some.injEq] at at_r
      subst at_r
      exact ⟨_, rfl, sendResponse_tellsSuccess entry.2 payload⟩

end JournalHistory

end Kiln.Relay
