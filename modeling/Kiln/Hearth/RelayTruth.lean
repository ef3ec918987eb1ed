import Kiln.Hearth.RelayWire

/-!
# A caller is told the truth about its change

What a caller is resumed with, beside what became of its change at the Relay
(`relay-connection.ts:1105-1230`, `2112-2249` over `control-socket.ts:640-751`, `1076-1217`). An
answer that a change went through comes from one that did. An answer that it failed, or that it
didn't run, comes from a Relay that has answered it, or refused it, or knows nothing of it; the
last one is only true where nothing that was sent before is still on its way.
-/

namespace Kiln.Hearth
open Kiln.Lib Kiln.Relay RelayJournal JournalHistory List

/-! ## What an answer tells -/

namespace RequestAnswer

/-- The change went through. -/
def tellsSuccess : RequestAnswer → Bool
  | response _ | succeeded _ => true
  | error failure => failure.tellsSuccess
  | _ => false

/-- The change didn't go through. -/
def tellsFailure : RequestAnswer → Bool
  | error failure => !failure.tellsSuccess
  | notSent _ | failed _ | withdrawn | unreached => true
  | _ => false

/-- The change didn't run. -/
def tellsNotRun : RequestAnswer → Bool
  | error failure => failure.withdrawn
  | notSent _ | withdrawn | unreached => true
  | _ => false

/-- What is told is of the operation ID, not only of the caller's own request. -/
def ofCommand : RequestAnswer → Bool
  | error failure => failure.withdrawn
  | failed _ | withdrawn | unreached => true
  | _ => false

end RequestAnswer

/-- The requests an answer to a caller is about: its own, and those before it under its ID where the answer is of the
ID. -/
def Within (ofCommand : Bool) (c : CommandId) (i j : Nat) (request : ChangeRequest) : Prop :=
  j = i ∨ (ofCommand = true ∧ request.command = c ∧ j ≤ i)

instance (ofCommand : Bool) (c : CommandId) (i j : Nat) (request : ChangeRequest) :
    Decidable (Within ofCommand c i j request) :=
  inferInstanceAs (Decidable (_ ∨ _))

theorem Within.le {ofCommand : Bool} {c : CommandId} {i j : Nat} {request : ChangeRequest}
    (within : Within ofCommand c i j request) : j ≤ i := by
  rcases within with rfl | ⟨_, _, bound⟩
  · exact le_rfl
  · exact bound

/-- A frame brings one of the requests an answer is about. -/
def ControlFrame.Brings (frame : ControlFrame) (ofCommand : Bool) (c : CommandId) (i : Nat) : Prop :=
  match frame with
  | change j request _ => Within ofCommand c i j request
  | lookup _ _ _ => False

instance (frame : ControlFrame) (ofCommand : Bool) (c : CommandId) (i : Nat) :
    Decidable (frame.Brings ofCommand c i) := by
  unfold ControlFrame.Brings
  split <;> infer_instance

theorem ControlFrame.Brings.le {frame : ControlFrame} {ofCommand : Bool} {c : CommandId} {i : Nat}
    (brings : frame.Brings ofCommand c i) : frame.id ≤ i := by
  cases frame with
  | change => exact Within.le brings
  | lookup => exact brings.elim

/-! ## What stays as it is said to be -/

namespace Wire

variable {w w' : Wire} {e : LinkEvent} {ofCommand : Bool} {c : CommandId} {i : Nat}

/-- None of the requests an answer is about is on its way, or has still to run. -/
def Spent (ofCommand : Bool) (c : CommandId) (i : Nat) (w : Wire) : Prop :=
  (∀ frame ∈ w.onWay, ¬ frame.2.Brings ofCommand c i) ∧
    ∀ j ≤ i, ∀ taken ∈ w.relay.journal.requests j, taken.phase.claims = true → ¬ Within ofCommand c i j taken.request

instance (ofCommand : Bool) (c : CommandId) (i : Nat) (w : Wire) :
    Decidable (Spent ofCommand c i w) :=
  inferInstanceAs (Decidable (_ ∧ _))

/-- What happens at the journal with an event. -/
def journaled : LinkEvent → Option JournalEvent
  | .proceed _ frame now => some (frame.journaled now)
  | .journal e => some e
  | .restart now => some (.restart now)
  | _ => none

/-- A log of what happened to the requests of a journal: it starts empty, and only a request past
    its read comes to it. -/
structure Logs (log : JournalHistory → List (Nat × ChangeRequest)) : Prop where
  initial : log {} = []
  grows : ∀ h e h', h.next e = some h' → ∀ entry ∈ log h', entry ∈ log h ∨
    ∃ phase, h.journal.requests entry.1 = some ⟨entry.2, phase⟩ ∧ phase.claims = true ∧ phase ≠ .reading

theorem logs_began : Logs JournalHistory.began where
  initial := rfl
  grows _ _ _ step _ member := by
    rcases mem_began step member with before | ⟨_, due⟩
    · exact .inl before
    · exact .inr ⟨_, due, rfl, nofun⟩

theorem logs_went : Logs JournalHistory.went where
  initial := rfl
  grows _ _ _ step _ member := by
    rcases mem_went step member with before | ⟨_, _, _, _, own⟩
    · exact .inl before
    · exact .inr ⟨_, own, rfl, nofun⟩

/-- None of the requests an answer is about is in a log, or will be. -/
structure Never (log : JournalHistory → List (Nat × ChangeRequest)) (ofCommand : Bool)
    (c : CommandId) (i : Nat) (w : Wire) : Prop where
  relay : ∀ entry ∈ log w.relay, ¬ Within ofCommand c i entry.1 entry.2
  earlier : ∀ h ∈ w.earlier, ∀ entry ∈ log h, entry.1 ≠ i
  ended : w.relay.journal.Closed c ∨ w.Spent ofCommand c i

theorem Spent.frames (spent : Spent ofCommand c i w) (relay : w'.relay = w.relay)
    (fewer : ∀ frame ∈ w'.onWay, frame ∈ w.onWay ∨ i < frame.2.id) : Spent ofCommand c i w' := by
  refine ⟨fun frame member brings => ?_, relay ▸ spent.2⟩
  rcases fewer frame member with before | later
  · exact spent.1 frame before brings
  · exact absurd brings.le (Nat.not_le_of_lt later)

theorem Spent.step (spent : Spent ofCommand c i w) {e : JournalEvent} {relay : JournalHistory}
    (step : w.relay.next e = some relay)
    (request : ∀ r q now, e = .request r q now → ¬ Within ofCommand c i r q) :
    Spent ofCommand c i { w with relay := relay } := by
  refine ⟨spent.1, fun j bound taken found claims => ?_⟩
  obtain ⟨q, phase⟩ := taken
  rcases moves_of_next (journal_of_next step) found with
    ⟨_, _, now, rfl⟩ | ⟨phase', before, moves⟩
  · exact request j q now rfl
  · exact spent.2 j bound ⟨q, phase'⟩ before (moves.claims claims)

/-- The number of a caller, with what it sent under the ID. -/
structure Sender (c : CommandId) (i : Nat) (w : Wire) : Prop where
  bound : i < w.nextId
  mine : ∀ q j, w.sent i = some (q, j) → q.command = c
  sent : (w.sent i).isSome

variable {log : JournalHistory → List (Nat × ChangeRequest)}

theorem Never.step (never : Never log ofCommand c i w) (logs : Logs log) (numbered : Numbered w)
    (sender : Sender c i w) {e : JournalEvent} {relay : JournalHistory}
    (step : w.relay.next e = some relay) (careful : Careful c w.relay e)
    (request : ∀ r q now, e = .request r q now → w.Spent ofCommand c i → ¬ Within ofCommand c i r q) :
    Never log ofCommand c i { w with relay := relay } where
  relay := by
    intro entry member within
    rcases logs.grows _ _ _ step entry member with before | ⟨phase, found, claims, advanced⟩
    · exact never.relay entry before within
    rcases never.ended with closed | spent
    · have mine : entry.2.command = c := by
        rcases within with rfl | ⟨_, mine, _⟩
        · obtain ⟨⟨q, j⟩, sent⟩ := Option.isSome_iff_exists.mp sender.sent
          obtain rfl : entry.2 = q := ((numbered.requests _ _ found).2 q j sent).1
          exact sender.mine _ j sent
        · exact mine
      exact closed.2 entry.1 _ found ⟨mine, claims, advanced⟩
    · exact spent.2 entry.1 within.le _ found claims within
  earlier := never.earlier
  ended := by
    rcases never.ended with closed | spent
    · exact .inl (closed.next careful.1 (journal_of_next step))
    · exact .inr (spent.step step fun r q now same => request r q now same spent)

theorem Never.frames (never : Never log ofCommand c i w) (relay : w'.relay = w.relay) (earlier : w'.earlier = w.earlier)
    (fewer : ∀ frame ∈ w'.onWay, frame ∈ w.onWay ∨ i < frame.2.id) :
    Never log ofCommand c i w' where
  relay := relay ▸ never.relay
  earlier := earlier ▸ never.earlier
  ended := never.ended.imp (fun closed => relay ▸ closed) fun spent => spent.frames relay fewer

/-- What never is in a log stays out of it, in every step that is careful of the ID. -/
theorem Never.next (never : Never log ofCommand c i w) (logs : Logs log) (numbered : Numbered w)
    (sender : Sender c i w) (careful : ∀ je ∈ journaled e, Careful c w.relay je)
    (step : w.Stepped e w') : Never log ofCommand c i w' := by
  have placed : ∀ {frame k reaches frames lost}, Places frame k reaches frames lost →
      frame.id = w.nextId → ∀ other ∈ (w.unread ++ frames) ++ w.taken, other ∈ w.onWay ∨ i < other.2.id := by
    intro frame k reaches frames lost places same other member
    cases places with
    | sent =>
      simp only [onWay, mem_append, mem_singleton] at member ⊢
      rcases member with (before | rfl) | before
      · exact .inl (.inl before)
      · exact .inr (same ▸ sender.bound)
      · exact .inl (.inr before)
    | lost =>
      rw [append_nil] at member
      exact .inl member
  have fewer : ∀ {unread taken : List (Nat × ControlFrame)}, unread.Sublist w.unread →
      taken.Sublist w.taken → ∀ frame ∈ unread ++ taken, frame ∈ w.onWay ∨ i < frame.2.id :=
    fun left right frame member => Or.inl ((left.append right).subset member)
  cases step with
  | same => exact never
  | request _ _ places => exact never.frames rfl rfl (placed places rfl)
  | ask _ places => exact never.frames rfl rfl (placed places rfl)
  | sendFailed => exact never.frames rfl rfl (fewer filter_sublist (Sublist.refl _))
  | turnAway => exact never.frames rfl rfl (fewer erase_sublist (Sublist.refl _))
  | @read _ k frame unread _ =>
    refine never.frames rfl rfl fun other member => Or.inl ?_
    rcases mem_append.mp member with left | right
    · exact mem_append_left _ (mem_of_mem_erase left)
    · rcases mem_append.mp right with before | new
      · exact mem_append_right _ before
      · obtain rfl := mem_singleton.mp new
        exact mem_append_left _ unread
  | refuse => exact never.frames rfl rfl (fewer (Sublist.refl _) erase_sublist)
  | @proceed k now frame relay taken step =>
    have stepped := never.step logs numbered sender step (careful _ rfl) fun r q now' asked spent => by
      cases frame with
      | lookup => cases asked
      | change id request named =>
        cases asked
        exact spent.1 _ (mem_append_right _ taken)
    exact stepped.frames rfl rfl (fewer (Sublist.refl _) erase_sublist)
  | send => exact never.frames rfl rfl (fewer (Sublist.refl _) (Sublist.refl _))
  | hangUp => exact never.frames rfl rfl (fewer filter_sublist filter_sublist)
  | journal step unrequested =>
    have stepped := never.step logs numbered sender step (careful _ rfl) fun r q now same =>
      absurd same (unrequested r q now)
    exact stepped.frames rfl rfl (fewer (Sublist.refl _) (Sublist.refl _))
  | @journalRequest q now relay step =>
    have stepped := never.step logs numbered sender step (careful _ rfl) fun r q' now' same _ => by
      cases same
      exact fun within => absurd within.le (Nat.not_le_of_lt sender.bound)
    exact stepped.frames rfl rfl (fewer (Sublist.refl _) (Sublist.refl _))
  | journalLookup step =>
    have stepped := never.step logs numbered sender step (careful _ rfl) (by rintro _ _ _ ⟨⟩)
    exact stepped.frames rfl rfl (fewer (Sublist.refl _) (Sublist.refl _))
  | restart step =>
    have stepped := never.step logs numbered sender step (careful _ rfl) (by rintro _ _ _ ⟨⟩)
    exact stepped.frames rfl rfl (fewer (nil_sublist _) (nil_sublist _))
  | rebuild =>
    refine ⟨fun entry member => ?_, fun h member entry inside => ?_, .inr ⟨by rintro _ ⟨⟩, by rintro _ _ _ ⟨⟩⟩⟩
    · change entry ∈ log {} at member
      rw [logs.initial] at member
      cases member
    · rcases mem_cons.mp member with rfl | before
      · exact fun same => never.relay entry inside (.inl same)
      · exact never.earlier h before entry inside

/-! ## True answers -/

/-- What an answer to a caller tells is so, and stays so. -/
structure AnswerTrue (c : CommandId) (i : Nat) (digest : String) (w : Wire)
    (answer : RequestAnswer) : Prop where
  success : answer.tellsSuccess = true → ∃ entry ∈ w.went, entry.2.command = c ∧ entry.2.digest = digest
  failure : answer.tellsFailure = true → Never JournalHistory.went answer.ofCommand c i w
  notRun : answer.tellsNotRun = true → Never JournalHistory.began answer.ofCommand c i w

variable {digest : String} {answer : RequestAnswer}

theorem AnswerTrue.unknown (unknown : answer.outcomeUnknown = true) :
    AnswerTrue c i digest w answer := by
  cases answer with
  | forgotten => exact ⟨nofun, nofun, nofun⟩
  | restarted => exact ⟨nofun, nofun, nofun⟩
  | dropped => exact ⟨nofun, nofun, nofun⟩
  | closed => exact ⟨nofun, nofun, nofun⟩
  | timedOut => exact ⟨nofun, nofun, nofun⟩
  | _ => cases unknown

theorem mem_went_next (step : w.Stepped e w') {entry : Nat × ChangeRequest} (member : entry ∈ w.went) :
    entry ∈ w'.went := by
  have relay : ∀ {je : JournalEvent} {relay : JournalHistory}, w.relay.next je = some relay →
      entry ∈ relay.went ++ w.earlier.flatMap (·.went) := by
    intro je relay step
    rcases mem_append.mp member with before | earlier
    · exact mem_append_left _ (went_mono step before)
    · exact mem_append_right _ earlier
  cases step with
  | proceed _ step => exact relay step
  | journal step => exact relay step
  | journalRequest step => exact relay step
  | journalLookup step => exact relay step
  | restart step => exact relay step
  | rebuild =>
    change entry ∈ [] ++ (w.relay :: w.earlier).flatMap (·.went)
    simpa [went] using member
  | _ => exact member

theorem AnswerTrue.next (true' : AnswerTrue c i digest w answer) (numbered : Numbered w)
    (sender : Sender c i w) (careful : ∀ je ∈ journaled e, Careful c w.relay je)
    (step : w.Stepped e w') : AnswerTrue c i digest w' answer where
  success told := by
    obtain ⟨entry, member, same⟩ := true'.success told
    exact ⟨entry, mem_went_next step member, same⟩
  failure told := (true'.failure told).next logs_went numbered sender careful step
  notRun told := (true'.notRun told).next logs_began numbered sender careful step

/-- What never runs never goes through. -/
theorem Never.went (never : Never JournalHistory.began ofCommand c i w) (numbered : Numbered w) :
    Never JournalHistory.went ofCommand c i w where
  relay entry member := never.relay entry (numbered.ran.went entry member).1
  earlier h member entry inside :=
    never.earlier h member entry (numbered.ranEarlier h member entry inside)
  ended := never.ended

variable {q : ChangeRequest} {j : ChangeJournal}

theorem Numbered.not_earlier (numbered : Numbered w) (sent : w.sent i = some (q, j))
    (current : j.journalId = w.journalId) :
    ∀ h ∈ w.earlier, ∀ entry ∈ h.began, entry.1 ≠ i := by
  rintro h member entry inside rfl
  have older := (numbered.earlier entry (mem_flatMap.mpr ⟨h, member, inside⟩)).2 q j sent
  omega

theorem spent_own (off : ∀ frame ∈ w.onWay, frame.2.id ≠ i)
    (still : ∀ taken ∈ w.relay.journal.requests i, taken.phase.claims = false) :
    Spent false c i w := by
  refine ⟨fun frame member brings => ?_, fun j _ taken found claims within => ?_⟩
  · obtain ⟨k, frame⟩ := frame
    cases frame with
    | lookup => exact brings
    | change j q named =>
      rcases brings with rfl | ⟨told, _⟩
      · exact off _ member rfl
      · cases told
  · rcases within with rfl | ⟨told, _⟩
    · rw [still taken found] at claims
      cases claims
    · cases told

theorem never_unheard (unheard : w.relay.journal.requests i = none)
    (unbegun : ∀ entry ∈ w.began, entry.1 ≠ i) (off : i ∉ w.onWay.map (·.2.id)) :
    Never JournalHistory.began false c i w where
  relay entry member within := by
    rcases within with same | ⟨told, _⟩
    · exact unbegun entry (mem_append_left _ member) same
    · cases told
  earlier h member entry inside :=
    unbegun entry (mem_append_right _ (mem_flatMap.mpr ⟨h, member, inside⟩))
  ended := by
    refine Or.inr (spent_own (fun frame here same => off ?_) fun taken found => ?_)
    · exact same ▸ mem_map_of_mem here
    · rw [unheard] at found
      cases found

theorem Numbered.never_closed (numbered : Numbered w) (standing : w.relay.Standing c)
    (sent : w.sent i = some (q, j)) (mine : q.command = c) (current : j.journalId = w.journalId)
    (unstarted : w.relay.journal.started c = [])
    (ended : w.relay.journal.Closed c ∨ w.Spent true c i) :
    Never JournalHistory.began true c i w where
  relay entry member within := by
    have same : entry.2.command = c := by
      rcases within with rfl | ⟨_, same, _⟩
      · obtain rfl : entry.2 = q := ((numbered.began entry member).2 q j sent).1
        exact mine
      · exact same
    exact standing.began entry member same unstarted
  earlier := numbered.not_earlier sent current
  ended := ended

theorem Numbered.reply_true (numbered : Numbered w) (standing : w.relay.Standing c)
    {request : ChangeRequest} {reply : Reply} (sent : w.sent i = some (q, j)) (mine : q.command = c)
    (answered : w.relay.journal.requests i = some ⟨request, .answered reply⟩) :
    AnswerTrue c i q.digest w (.ofReply reply) := by
  obtain ⟨_, own⟩ := numbered.requests i _ answered
  obtain ⟨same, current⟩ := own q j sent
  obtain rfl : request = q := same
  have fits := standing.replies i request reply answered mine
  have off : ∀ frame ∈ w.onWay, frame.2.id ≠ i := by
    rintro frame member rfl
    have unheard := (numbered.unheard _ (.inr (mem_map_of_mem member))).2.1
    rw [unheard] at answered
    cases answered
  have still : ∀ taken ∈ w.relay.journal.requests i, taken.phase.claims = false := by
    intro taken found
    rw [answered] at found
    cases found
    rfl
  have withdrawn : reply.withdrawn = true → Never JournalHistory.began true c i w := by
    intro told
    obtain ⟨unstarted, closed⟩ := fits.withdrawn told
    exact numbered.never_closed standing sent mine current unstarted (.inl closed)
  cases reply with
  | response payload =>
    refine ⟨fun _ => ?_, nofun, nofun⟩
    obtain ⟨entry, member, same⟩ := fits.success rfl
    exact ⟨entry, mem_append_left _ member, same⟩
  | error failure =>
    refine ⟨fun told => ?_, fun told => ?_, fun told => ?_⟩
    · obtain ⟨entry, member, same⟩ := fits.success told
      exact ⟨entry, mem_append_left _ member, same⟩
    · cases away : failure.withdrawn with
      | true =>
        have never := (withdrawn away).went numbered
        simpa only [RequestAnswer.ofReply, RequestAnswer.ofCommand, away] using never
      | false =>
        have failed : failure.tellsSuccess = false := by
          simpa [RequestAnswer.ofReply, RequestAnswer.tellsFailure] using told
        simp only [RequestAnswer.ofReply, RequestAnswer.ofCommand, away]
        refine ⟨fun entry member within => ?_, fun h member entry inside => ?_, .inr (spent_own off still)⟩
        · rcases within with rfl | ⟨told, _⟩
          · obtain ⟨reply, answered', success⟩ := (numbered.ran.went entry member).2 _ answered
            cases answered'
            change failure.tellsSuccess = true at success
            rw [failed] at success
            cases success
          · cases told
        · exact numbered.not_earlier sent current h member entry (numbered.ranEarlier h member entry inside)
    · have away : failure.withdrawn = true := told
      have never := withdrawn away
      simpa only [RequestAnswer.ofReply, RequestAnswer.ofCommand, away] using never

theorem refusal_tells (refusal : RequestRefusal) :
    refusal.failure.tellsSuccess = false ∧ refusal.failure.withdrawn = false := by
  cases refusal with
  | unchecked message aborted => cases aborted <;> exact ⟨rfl, rfl⟩
  | _ => exact ⟨rfl, rfl⟩

theorem Numbered.refusal_true (numbered : Numbered w) (refusal : RequestRefusal)
    (unheard : w.relay.journal.requests i = none) (unbegun : ∀ entry ∈ w.began, entry.1 ≠ i)
    (off : i ∉ w.onWay.map (·.2.id)) :
    AnswerTrue c i digest w (.ofReply (.error refusal.failure)) := by
  obtain ⟨failed, unwithdrawn⟩ := refusal_tells refusal
  refine ⟨fun told => ?_, fun _ => ?_, fun told => ?_⟩
  · change refusal.failure.tellsSuccess = true at told
    rw [failed] at told
    cases told
  · have never := (never_unheard (c := c) unheard unbegun off).went numbered
    simpa only [RequestAnswer.ofReply, RequestAnswer.ofCommand, unwithdrawn] using never
  · change refusal.failure.withdrawn = true at told
    rw [unwithdrawn] at told
    cases told

theorem Numbered.lookup_true (numbered : Numbered w) (standing : w.relay.Standing c)
    {lookup : OperationLookup} (sent : w.sent i = some (q, j)) (mine : q.command = c)
    (current : j.journalId = w.journalId) (fits : w.relay.LookupFits c q.digest lookup)
    (spent : w.relay.journal.rows c = none → w.Spent true c i)
    (settled : settledBy lookup = some answer) : AnswerTrue c i q.digest w answer := by
  have ended : lookup ≠ .running → lookup ≠ .interrupted → w.relay.journal.Closed c ∨ w.Spent true c i := by
    intro idle uncut
    exact (fits.idle idle uncut).imp id spent
  cases lookup with
  | running => cases settled
  | succeeded result =>
    cases settled
    refine ⟨fun _ => ?_, by rintro ⟨⟩, by rintro ⟨⟩⟩
    obtain ⟨entry, member, same⟩ := fits.success result rfl
    exact ⟨entry, mem_append_left _ member, same⟩
  | failed failure =>
    by_cases away : failure.code = "operation_withdrawn"
    · obtain rfl : RequestAnswer.withdrawn = answer := by simpa [settledBy, away] using settled
      have told : failure.withdrawn = true := by simpa [ControlFailure.withdrawn] using away
      obtain ⟨unstarted, closed⟩ := fits.withdrawn failure rfl told
      have never := numbered.never_closed standing sent mine current unstarted (.inl closed)
      exact ⟨by rintro ⟨⟩, fun _ => never.went numbered, fun _ => never⟩
    obtain rfl : RequestAnswer.failed failure = answer := by simpa [settledBy, away] using settled
    refine ⟨by rintro ⟨⟩, fun _ => ⟨fun entry member within => ?_, fun h member entry inside => ?_,
      ended (by rintro ⟨⟩) (by rintro ⟨⟩)⟩, by rintro ⟨⟩⟩
    · have same : entry.2.command = c := by
        rcases within with rfl | ⟨_, same, _⟩
        · obtain rfl : entry.2 = q :=
            ((numbered.began entry (numbered.ran.went entry member).1).2 q j sent).1
          exact mine
        · exact same
      exact fits.failure failure rfl ⟨entry, member, same⟩
    · exact numbered.not_earlier sent current h member entry (numbered.ranEarlier h member entry inside)
  | unknown =>
    cases settled
    have never := numbered.never_closed standing sent mine current (fits.unknown rfl)
      (ended (by rintro ⟨⟩) (by rintro ⟨⟩))
    exact ⟨by rintro ⟨⟩, fun _ => never.went numbered, fun _ => never⟩
  | interrupted =>
    cases settled
    exact .unknown rfl

/-! ## Every answer on the wire is true -/

/-- The lookup that an event has the journal look for. -/
def looks : LinkEvent → Option Nat
  | .proceed _ (.lookup l _ _) _ => some l
  | .journal (.lookupRead l) => some l
  | _ => none

/-- A lookup made for a change finds what is of that change; and where it finds nothing, nothing that was sent under the
ID up to that change is still on its way. -/
def LooksTruly (c : CommandId) (w : Wire) (e : LinkEvent) : Prop :=
  ∀ l ∈ looks e, ∀ i ∈ w.asked l, ∀ sent ∈ w.sent i, sent.1.command = c → KnownAs c sent.1.digest w.relay ∧
      (w.relay.journal.rows c = none → w.Spent true c i)

instance (c : CommandId) (w : Wire) (e : LinkEvent) : Decidable (LooksTruly c w e) :=
  inferInstanceAs (Decidable (∀ l ∈ looks e, ∀ i ∈ w.asked l, ∀ sent ∈ w.sent i, _ → _ ∧ _))

/-- The answers to a caller, on the wire or at the Relay, are true. -/
structure Truth (c : CommandId) (w : Wire) : Prop where
  standing : w.relay.Standing c
  unreplied : ∀ i, w.nextId ≤ i → w.replies i = none
  replies : ∀ i q j reply, w.replies i = some (.reply reply) → w.sent i = some (q, j) →
    q.command = c → AnswerTrue c i q.digest w (.ofReply reply)
  lookups : ∀ l i q j lookup answer, w.replies l = some (.lookup lookup) ∨
      (∃ c', w.relay.journal.lookups l = some ⟨c', .answered lookup⟩) →
    w.asked l = some i → w.sent i = some (q, j) → q.command = c →
      settledBy lookup = some answer → AnswerTrue c i q.digest w answer

theorem Truth.initial : Truth c (ControlLink.wire {}) where
  standing := .initial
  unreplied _ _ := rfl
  replies _ _ _ _ found := by cases found
  lookups _ _ _ _ _ _ found := by
    rcases found with found | ⟨_, found⟩
    · cases found
    · cases found

/-- Where what a request is answered with comes from. -/
inductive Replied (w w' : Wire) (i : Nat) : ServerMessage → Prop
  | refused {refusal : RequestRefusal} (here : i ∈ w.onWay.map (·.2.id))
      (off : i ∉ w'.onWay.map (·.2.id)) (relay : w'.relay = w.relay)
      (earlier : w'.earlier = w.earlier) : Replied w w' i (.reply (.error refusal.failure))
  | own {request : ChangeRequest} {reply : Reply}
      (answered : w.relay.journal.requests i = some ⟨request, .answered reply⟩) :
      Replied w w' i (.reply reply)
  | found {c : CommandId} {lookup : OperationLookup}
      (answered : w.relay.journal.lookups i = some ⟨c, .answered lookup⟩) :
      Replied w w' i (.lookup lookup)
  | failed {c : CommandId} {failure : ControlFailure}
      (answered : w.relay.journal.lookups i = some ⟨c, .failed failure⟩) :
      Replied w w' i (.reply (.error failure))

theorem replied_update {id : Nat} {message message' : ServerMessage}
    (found : Function.update w.replies id (some message) i = some message')
    (replied : Replied w w' id message) : w.replies i = some message' ∨ Replied w w' i message' := by
  by_cases here : i = id
  · subst here
    rw [Function.update_self] at found
    cases found
    exact .inr replied
  · rw [Function.update_of_ne here] at found
    exact .inl found

theorem replies_of_next (numbered : Numbered w) (step : w.Stepped e w') {message : ServerMessage}
    (found : w'.replies i = some message) :
    w.replies i = some message ∨ Replied w w' i message := by
  cases step with
  | @turnAway _ k frame unread =>
    refine replied_update found (.refused ?_ ?_ rfl rfl)
    · exact mem_map_of_mem (mem_append_left _ unread)
    intro member
    obtain ⟨g, here, same⟩ := mem_map.mp member
    rcases mem_append.mp here with left | right
    · have other := numbered.unique (mem_append_left _ (mem_of_mem_erase left)) (mem_append_left _ unread) same
      subst other
      have nodup := numbered.nodup
      rw [onWay, map_append] at nodup
      exact (Nodup.of_map _ nodup.of_append_left).not_mem_erase left
    · exact numbered.unread_ne_taken unread right same.symm
  | @refuse _ k frame refusal taken =>
    refine replied_update found (.refused ?_ (numbered.not_mem_erase taken) rfl rfl)
    exact mem_map_of_mem (mem_append_right _ taken)
  | send answered =>
    apply replied_update found
    rcases answered with ⟨_, _, rfl, own⟩ | ⟨_, _, rfl, own⟩ | ⟨_, _, rfl, own⟩
    · exact .own own
    · exact .found own
    · exact .failed own
  | _ => exact .inl found

/-- A caller was there before, or has just come. -/
theorem sent_of_next (step : w.Stepped e w') {sent : ChangeRequest × ChangeJournal}
    (found : w'.sent i = some sent) : w.sent i = some sent ∨ i = w.nextId := by
  cases step with
  | request =>
    by_cases here : i = w.nextId
    · exact .inr here
    · exact .inl ((Function.update_of_ne here ..).symm.trans found)
  | _ => exact .inl found

/-- A lookup was made before, or has just been made. -/
theorem asked_of_next (step : w.Stepped e w') {l : Nat} (found : w'.asked l = some i) :
    w.asked l = some i ∨ (l = w.nextId ∧ w'.relay = w.relay ∧ w'.replies = w.replies ∧ w'.sent = w.sent) := by
  cases step with
  | ask =>
    by_cases here : l = w.nextId
    · exact .inr ⟨here, rfl, rfl, rfl⟩
    · exact .inl ((Function.update_of_ne here ..).symm.trans found)
  | _ => exact .inl found

theorem nextId_of_next (step : w.Stepped e w') : w.nextId ≤ w'.nextId := by
  cases step with
  | request => exact Nat.le_succ _
  | ask => exact Nat.le_succ _
  | journalRequest => exact Nat.le_succ _
  | journalLookup => exact Nat.le_succ _
  | _ => exact le_rfl

theorem relay_of_next (step : w.Stepped e w') :
    w'.relay = w.relay ∨ w'.relay = {} ∨ ∃ je ∈ journaled e, w.relay.next je = some w'.relay := by
  cases step with
  | proceed _ step => exact .inr (.inr ⟨_, rfl, step⟩)
  | journal step => exact .inr (.inr ⟨_, rfl, step⟩)
  | journalRequest step => exact .inr (.inr ⟨_, rfl, step⟩)
  | journalLookup step => exact .inr (.inr ⟨_, rfl, step⟩)
  | restart step => exact .inr (.inr ⟨_, rfl, step⟩)
  | rebuild => exact .inr (.inl rfl)
  | _ => exact .inl rfl

/-- A lookup that is answered with a step was answered before, or is looked for with it. -/
theorem found_of_next (numbered : Numbered w) (step : w.Stepped e w') {l : Nat} {c' : CommandId}
    {lookup : OperationLookup} (asked : w.asked l = some i)
    (found : w'.relay.journal.lookups l = some ⟨c', .answered lookup⟩) :
    w.relay.journal.lookups l = some ⟨c', .answered lookup⟩ ∨ (looks e = some l ∧
        (∃ q j, w.sent i = some (q, j) ∧ q.command = c' ∧ j.journalId = w.journalId) ∧
        (lookup = lookupAnswer w.relay.journal.rows c' ∨ ∃ now, (w.relay.journal.lookupOperation l c' now).lookups l =
            some ⟨c', .answered lookup⟩)) := by
  cases step with
  | @proceed k now frame relay taken goes =>
    have journal := journal_of_next goes
    cases frame with
    | change id request named =>
      rcases lookup_of_next journal found with
        before | ⟨_, told, _⟩ | ⟨told, _⟩ | ⟨_, _, failed⟩
      · exact .inl before
      · cases told
      · cases told
      · cases failed
    | lookup id command J =>
      rcases lookup_of_next journal found with
        before | ⟨now', told, _, same⟩ | ⟨told, _⟩ | ⟨_, _, failed⟩
      · exact .inl before
      · obtain ⟨rfl, rfl, rfl⟩ := JournalEvent.lookup.inj told
        obtain ⟨_, i', q, j, asked', sent, mine, current⟩ :=
          numbered.lookup k id command J (mem_append_right _ taken)
        rw [asked] at asked'
        cases asked'
        have here := numbered.taken _ taken J rfl
        exact .inr ⟨rfl, ⟨q, j, sent, mine, current.trans here⟩, .inr ⟨now, same ▸ found⟩⟩
      · cases told
      · cases failed
  | journal goes _ unasked =>
    have journal := journal_of_next goes
    rcases lookup_of_next journal found with
      before | ⟨_, told, _⟩ | ⟨rfl, reading, answered⟩ | ⟨_, _, failed⟩
    · exact .inl before
    · exact absurd told (unasked _ _ _)
    · have there := (numbered.lookups l _ reading).2.2 i asked
      exact .inr ⟨rfl, there, .inl (LookupPhase.answered.inj answered)⟩
    · cases failed
  | journalRequest goes =>
    have journal := journal_of_next goes
    rcases lookup_of_next journal found with
      before | ⟨_, told, _⟩ | ⟨told, _⟩ | ⟨_, _, failed⟩
    · exact .inl before
    · cases told
    · cases told
    · cases failed
  | journalLookup goes =>
    have journal := journal_of_next goes
    rcases lookup_of_next journal found with
      before | ⟨_, told, _⟩ | ⟨told, _⟩ | ⟨_, _, failed⟩
    · exact .inl before
    · cases told
      rw [numbered.fresh.2.1] at asked
      cases asked
    · cases told
    · cases failed
  | restart goes =>
    have journal := journal_of_next goes
    rcases lookup_of_next journal found with
      before | ⟨_, told, _⟩ | ⟨told, _⟩ | ⟨_, _, failed⟩
    · exact .inl before
    · cases told
    · cases told
    · cases failed
  | rebuild => cases found
  | _ => exact .inl found

/-- The answers stay true in every step that is careful of the ID and looks truly. -/
theorem Truth.next (truth : Truth c w) (numbered : Numbered w) (careful : ∀ je ∈ journaled e, Careful c w.relay je)
    (looking : LooksTruly c w e) (step : w.Stepped e w') : Truth c w' := by
  have numbered' := numbered.next step
  have sender : ∀ {i q j}, w.sent i = some (q, j) → q.command = c → Sender c i w := by
    intro i q j sent mine
    refine ⟨(numbered.sent i q j sent).1, fun q' j' sent' => ?_, by rw [sent]; rfl⟩
    rw [sent] at sent'
    cases sent'
    exact mine
  have unsent : ∀ {i q j message}, w'.sent i = some (q, j) → w'.replies i = some message → w.sent i = some (q, j) := by
    intro i q j message sent replied
    rcases sent_of_next step sent with before | rfl
    · exact before
    rcases replies_of_next numbered step replied with before | replied
    · rw [truth.unreplied _ le_rfl] at before
      cases before
    obtain ⟨_, _, unheard, _, _, off⟩ := numbered.fresh
    cases replied with
    | refused here => exact absurd here off
    | own answered =>
      rw [unheard] at answered
      cases answered
    | found answered => exact absurd (numbered.lookups _ _ answered).1 (lt_irrefl _)
    | failed answered => exact absurd (numbered.lookups _ _ answered).1 (lt_irrefl _)
  refine ⟨?_, fun i later => ?_, fun i q j reply replied sent mine => ?_,
    fun l i q j lookup answer found asked sent mine settled => ?_⟩
  · rcases relay_of_next step with same | fresh | ⟨je, told, goes⟩
    · exact same ▸ truth.standing
    · exact fresh ▸ .initial
    · exact truth.standing.next (careful je told) goes
  · cases found : w'.replies i with
    | none => rfl
    | some message =>
      have later := (nextId_of_next step).trans later
      rcases replies_of_next numbered step found with before | replied
      · rw [truth.unreplied i later] at before
        cases before
      exfalso
      cases replied with
      | refused here => exact absurd (numbered.unheard i (.inr here)).1 (Nat.not_lt_of_le later)
      | own answered => exact absurd (numbered.requests i _ answered).1 (Nat.not_lt_of_le later)
      | found answered => exact absurd (numbered.lookups i _ answered).1 (Nat.not_lt_of_le later)
      | failed answered => exact absurd (numbered.lookups i _ answered).1 (Nat.not_lt_of_le later)
  · have sent := unsent sent replied
    have known := sender sent mine
    rcases replies_of_next numbered step replied with before | fresh
    · exact (truth.replies i q j reply before sent mine).next numbered known careful step
    cases fresh with
    | @refused refusal here off relay earlier =>
      obtain ⟨_, unheard, unbegun⟩ := numbered.unheard i (.inr here)
      refine numbered'.refusal_true refusal (relay ▸ unheard) ?_ off
      rw [began, relay, earlier]
      exact unbegun
    | own answered =>
      have answer := numbered.reply_true truth.standing sent mine answered
      exact answer.next numbered known careful step
    | failed answered =>
      rw [(numbered.lookups i _ answered).2.1] at sent
      cases sent
  · have carry : ∀ {i q j answer}, w.sent i = some (q, j) → q.command = c →
        AnswerTrue c i q.digest w answer → AnswerTrue c i q.digest w' answer :=
      fun sent mine answer => answer.next numbered (sender sent mine) careful step
    have asked : w.asked l = some i := by
      rcases asked_of_next step asked with before | ⟨rfl, relay, replies, _⟩
      · exact before
      -- A lookup that was just made isn't answered yet.
      exfalso
      rcases found with replied | ⟨c', answered⟩
      · rw [replies, truth.unreplied _ le_rfl] at replied
        cases replied
      · rw [relay] at answered
        exact absurd (numbered.lookups _ _ answered).1 (lt_irrefl _)
    have sent : w.sent i = some (q, j) := by
      rcases sent_of_next step sent with before | rfl
      · exact before
      · have known := (numbered.asked l _ asked).2
        rw [numbered.fresh.1] at known
        cases known
    rcases found with replied | ⟨c', answered⟩
    · rcases replies_of_next numbered step replied with before | fresh
      · exact carry sent mine (truth.lookups l i q j lookup answer (.inl before) asked sent mine settled)
      · cases fresh with
        | found answered =>
          exact carry sent mine (truth.lookups l i q j lookup answer (.inr ⟨_, answered⟩) asked sent mine settled)
    rcases found_of_next numbered step asked answered with before | ⟨looked, there, from'⟩
    · exact carry sent mine (truth.lookups l i q j lookup answer (.inr ⟨_, before⟩) asked sent mine settled)
    · obtain ⟨q', j', sent', same, current⟩ := there
      rw [sent] at sent'
      cases sent'
      obtain rfl := same.symm.trans mine
      obtain ⟨known, spent⟩ := looking l looked i asked _ sent mine
      refine carry sent mine (numbered.lookup_true truth.standing sent mine current ?_ spent settled)
      rcases from' with rfl | ⟨now, operated⟩
      · exact truth.standing.lookupAnswer_fits known
      · exact truth.standing.lookupOperation_fits known operated

end Wire

namespace ControlLink

variable {s s' : ControlLink} {e : LinkEvent} {c : CommandId}

/-- The step reports a failed send in time, and for an operation ID: it is careful at the journal, and looks truly. -/
def Faithful (c : CommandId) (s : ControlLink) (e : LinkEvent) : Prop :=
  s.FailsInTime e ∧ (∀ je ∈ Wire.journaled e, Careful c s.relay je) ∧ Wire.LooksTruly c s.wire e

instance (c : CommandId) (s : ControlLink) (e : LinkEvent) : Decidable (Faithful c s e) :=
  inferInstanceAs (Decidable (_ ∧ _ ∧ _))

/-- What holds in every state that faithful steps lead to. -/
structure Sound (c : CommandId) (s : ControlLink) : Prop where
  attended : s.Attended
  seated : s.Seated
  numbered : s.wire.Numbered
  truth : s.wire.Truth c
  told : ∀ i q j answer, s.callers i = some ⟨q, j, .told answer⟩ → q.command = c →
    Wire.AnswerTrue c i q.digest s.wire answer

theorem Sound.initial : Sound c {} where
  attended := .initial
  seated := .initial
  numbered := .initial
  truth := .initial
  told _ _ _ _ found := by cases found

variable {i : Nat}

theorem wire_sent {caller : Caller} (found : s.callers i = some caller) :
    s.wire.sent i = some (caller.request, caller.journal) := by
  simp [wire, found, Caller.sent]

/-- A request whose frame is never handed over doesn't run. -/
theorem notSent_true (sound : Sound c s) {cause : String} {digest : String}
    (step : s.next (.sendFailed i cause) = some s') :
    Wire.AnswerTrue c i digest s'.wire (.notSent cause) := by
  have wired := wire_of_next sound.attended sound.seated step
  have numbered' := sound.numbered.next wired
  have lost : i ∈ s'.wire.lost := by
    cases stepped_of_next step with
    | sendFailed =>
      rw [wire_resume]
      exact mem_append_right _ mem_cons_self
  obtain ⟨_, unheard, unbegun⟩ := numbered'.unheard i (.inl lost)
  have never := Wire.never_unheard (c := c) unheard unbegun (numbered'.apart i lost)
  exact ⟨nofun, fun _ => never.went numbered', fun _ => never⟩

theorem Sound.next (sound : Sound c s) (faithful : Faithful c s e) (step : s.next e = some s') :
    Sound c s' := by
  obtain ⟨attended, seated, numbered, truth, told⟩ := sound
  obtain ⟨timely, careful, looking⟩ := faithful
  have wired := wire_of_next attended seated step
  refine
    { attended := attended.next timely step
      seated := seated.next step
      numbered := numbered.next wired
      truth := truth.next numbered careful looking wired
      told := fun i q j answer found mine => ?_ }
  have carry : s.wire.sent i = some (q, j) → Wire.AnswerTrue c i q.digest s.wire answer →
      Wire.AnswerTrue c i q.digest s'.wire answer := by
    intro sent answer
    refine answer.next numbered ⟨(numbered.sent i q j sent).1, fun q' j' sent' => ?_, ?_⟩ careful wired
    · rw [sent] at sent'
      cases sent'
      exact mine
    · rw [sent]
      rfl
  cases turns_of_next attended step i with
  | stays same =>
    rw [same] at found
    exact carry (wire_sent found) (told i q j answer found mine)
  | comes _ here =>
    rw [found] at here
    cases here
  | interrupted _ gone =>
    rw [found] at gone
    cases gone
  | @told request journal answer' waits here tells =>
    rw [found] at here
    cases here
    have sent := wire_sent waits
    cases tells with
    | unknown unknown => exact .unknown unknown
    | notSent failed =>
      subst failed
      exact notSent_true ⟨attended, seated, numbered, truth, told⟩ step
    | reply answered => exact carry sent (truth.replies i q j _ answered sent mine)
    | lookup asked answered settled =>
      exact carry sent (truth.lookups _ i q j _ answer (.inl answered) asked sent mine settled)

theorem sound (reached : (system.restrict (Faithful c)).Reachable s) : Sound c s := by
  refine System.Reachable.invariant ?_ ?_ reached
  · rintro s rfl
    exact .initial
  · rintro s e s' before ⟨faithful, step⟩
    exact before.next faithful step

/-- A caller that was told, or gave up, is told nothing more. -/
theorem settled_of_next (attended : s.Attended) (step : s.next e = some s') {caller : Caller}
    (found : s.callers i = some caller) (ended : caller.state ≠ .waiting) :
    s'.callers i = some caller := by
  cases turns_of_next attended step i with
  | stays same => exact same.trans found
  | comes fresh _ =>
    have bound := (attended.sent i _ _ (wire_sent found)).1
    omega
  | interrupted waits _ =>
    rw [found] at waits
    cases waits
    exact absurd rfl ended
  | told waits _ _ =>
    rw [found] at waits
    cases waits
    exact absurd rfl ended

/-- What a caller that was told something can rely on. -/
structure ToldTruly (s : ControlLink) (i : Nat) (request : ChangeRequest) (answer : RequestAnswer) :
    Prop where
  /-- A change under its ID that asked for just that went through. -/
  success : answer.tellsSuccess = true →
    ∃ entry ∈ s.went, entry.2.command = request.command ∧ entry.2.digest = request.digest
  /-- Its own request never went through. -/
  failure : answer.tellsFailure = true → ∀ entry ∈ s.went, entry.1 ≠ i
  /-- Nor did one before it, in this journal, that had its ID. -/
  failureOfCommand : answer.tellsFailure = true → answer.ofCommand = true →
    ∀ entry ∈ s.relay.went, entry.2.command = request.command → i < entry.1
  /-- Its own request never began. -/
  notRun : answer.tellsNotRun = true → ∀ entry ∈ s.began, entry.1 ≠ i
  notRunOfCommand : answer.tellsNotRun = true → answer.ofCommand = true →
    ∀ entry ∈ s.relay.began, entry.2.command = request.command → i < entry.1

theorem never_mem {log : JournalHistory → List (Nat × ChangeRequest)} {ofCommand : Bool}
    (never : Wire.Never log ofCommand c i s.wire) :
    (∀ entry ∈ log s.relay ++ s.earlier.flatMap log, entry.1 ≠ i) ∧
      (ofCommand = true → ∀ entry ∈ log s.relay, entry.2.command = c → i < entry.1) := by
  refine ⟨fun entry member same => ?_, fun told entry member mine => ?_⟩
  · rcases mem_append.mp member with here | before
    · exact never.relay entry here (.inl same)
    · obtain ⟨h, member, inside⟩ := mem_flatMap.mp before
      exact never.earlier h member entry inside same
  · by_contra early
    exact never.relay entry member (.inr ⟨told, mine, Nat.le_of_not_lt early⟩)

/-- Hearth never misreports a change, in any run whose steps are faithful to its operation ID. -/
theorem change_never_misreported (c : CommandId) (s : ControlLink)
    (reached : (system.restrict (Faithful c)).Reachable s) :
    -- a caller is resumed once: it always can be, and isn't again
    (∀ i caller, s.callers i = some caller →
      (caller.state = .waiting → ∃ s', s.next (.timeout i) = some s' ∧
        s'.callers i = some { caller with state := .told .timedOut }) ∧
      (caller.state ≠ .waiting → ∀ es s', (system.restrict (Faithful c)).Run s es s' →
        s'.callers i = some caller)) ∧
    -- every entry has what waits for it
    (∀ id entry, s.hearth.pending.get id = some entry →
      match entry.operationId with
      | some operationId => s.Waits id operationId entry.journal
      | none => ∃ pass operationId change, s.hearth.pass = some pass ∧
          pass.lookup = some (id, operationId, change)) ∧
    (∀ operationId change, s.hearth.unsettled.get operationId = some change →
      s.Waits change.caller operationId change.journal) ∧
    -- and what a caller is told of its change is so
    ∀ i caller answer, s.callers i = some caller → caller.state = .told answer →
      caller.request.command = c → s.ToldTruly i caller.request answer := by
  obtain ⟨attended, _, numbered, _, told⟩ := sound reached
  refine ⟨fun i caller found => ⟨fun waits => ?_, fun ended es s' run => ?_⟩,
    fun id entry found => ?_, fun operationId change found => (attended.unsettled _ _ found).1,
    fun i caller answer found state mine => ?_⟩
  · obtain ⟨request, journal, state⟩ := caller
    obtain rfl : state = .waiting := waits
    refine ⟨(s.abandon i request.command.operationId).resume i .timedOut, ?_, ?_⟩
    · simp only [next, found]
    · simp [resume, abandon, found, Caller.resume]
  · have stays := System.Run.relates (R := fun s s' => s.callers i = some caller →
      s'.callers i = some caller) (fun s => sound (c := c)) (fun _ same => same) ?_ reached run
    · exact stays found
    · rintro r m e m' sound before ⟨_, step⟩ found
      exact settled_of_next sound.attended step (before found) ended
  · cases kind : entry.operationId with
    | some operationId => exact attended.change id entry operationId found kind
    | none => exact attended.lookup id entry found kind
  · obtain ⟨request, journal, _⟩ := caller
    obtain rfl := state
    obtain rfl : request.command = c := mine
    have truly := told i request journal answer found rfl
    exact
      { success := truly.success
        failure := fun tells => (never_mem (truly.failure tells)).1
        failureOfCommand := fun tells => (never_mem (truly.failure tells)).2
        notRun := fun tells => (never_mem (truly.notRun tells)).1
        notRunOfCommand := fun tells => (never_mem (truly.notRun tells)).2 }

/-- A deletion is sent on a connection. -/
def deletionSent : List LinkEvent :=
  [.connect RelayJournal.hearth, .request "delete-1" "app.delete" "a" 100 1000 0 none]

/-- It runs, and its reply comes back. -/
def deletionAnswered : List LinkEvent :=
  [.read 0, .proceed 0 (.change 0 (deleteApp "a") none) 0, .journal (.read 0 0),
    .journal (.start 0 0), .journal (.begin 0), .journal (.complete 0 (.ok "done") false 0),
    .send 0, .receive 0]

theorem change_never_misreported_deletion :
    ∃ s, (system.restrict (Faithful RelayJournal.deletion)).Reachable s ∧
      ∃ caller, s.callers 0 = some caller ∧ caller.state = .told (.response "done") ∧
        s.ToldTruly 0 caller.request (.response "done") := by
  have reached := System.reachable_of_guardedRunAll (· = ({} : ControlLink)) next
    (Faithful RelayJournal.deletion) rfl (deletionSent ++ deletionAnswered) (by decide)
  refine ⟨_, reached, ⟨RelayJournal.deleteApp "a", ⟨RelayJournal.hearth, 0⟩, .told (.response "done")⟩,
    by decide, rfl, ?_⟩
  exact (change_never_misreported RelayJournal.deletion _ reached).2.2.2 0 _ _ (by decide) rfl rfl

/-- The connection drops, and the change is looked up over the next one before the Relay has read its frame on the
first; then it reads it, and the change runs. -/
def deletionOvertaken : List LinkEvent :=
  [.dropped, .connect RelayJournal.hearth, .pass 0, .ask 0, .read 1,
    .proceed 1 (.lookup 1 RelayJournal.deletion 0) 0, .journal (.lookupRead 1), .send 1,
    .receiveLookup, .read 0, .proceed 0 (.change 0 (RelayJournal.deleteApp "a") none) 0,
    .journal (.read 0 0), .journal (.start 0 0), .journal (.begin 0)]

/-- A caller is told that its change never reached the Relay, and the change runs all the same. And
    a send that is reported to fail once its change waits to be looked up leaves an entry whose
    caller has gone. -/
theorem change_misreported :
    (∃ s, system.Reachable s ∧ ∃ caller, s.callers 0 = some caller ∧
      caller.state = .told .unreached ∧ (0, caller.request) ∈ s.began) ∧
    ∃ s, system.Reachable s ∧ ∃ change caller, s.hearth.unsettled.get "delete-1" = some change ∧
      s.callers change.caller = some caller ∧ caller.state ≠ .waiting := by
  constructor
  · have reached := System.reachable_of_runAll (· = ({} : ControlLink)) next rfl
      (deletionSent ++ deletionOvertaken) (by decide)
    refine ⟨_, reached, ⟨RelayJournal.deleteApp "a", ⟨RelayJournal.hearth, 0⟩, .told .unreached⟩,
      by decide, rfl, by decide⟩
  · have reached := System.reachable_of_runAll (· = ({} : ControlLink)) next rfl
      (deletionSent ++ [.dropped, .sendFailed 0 "write EPIPE"]) (by decide)
    refine ⟨_, reached, ⟨1000, ⟨RelayJournal.hearth, 0⟩, 0⟩,
      ⟨RelayJournal.deleteApp "a", ⟨RelayJournal.hearth, 0⟩, .told (.notSent "write EPIPE")⟩,
      by decide, by decide, nofun⟩

end ControlLink

end Kiln.Hearth
