import Kiln.Hearth.RelayCallers
import Kiln.Relay.JournalNumbers

/-!
# What is on its way between Hearth and the Relay

The frames in the Relay's sessions, and the requests and lookups its journal has, are each one of
those that Hearth sent, under its own number and once (`relay-connection.ts:1135-1170`,
`control-socket.ts:621-751`). A journal that was rebuilt answers nothing sent for another one.
-/

namespace Kiln.Hearth
open Kiln.Lib Kiln.Relay List Function

/-! ## What a step does on the wire -/

namespace Wire

/-- The frames in the Relay's sessions. -/
def onWay (w : Wire) : List (Nat × ControlFrame) :=
  w.unread ++ w.taken

def began (w : Wire) : List (Nat × ChangeRequest) :=
  w.relay.began ++ w.earlier.flatMap (·.began)

def went (w : Wire) : List (Nat × ChangeRequest) :=
  w.relay.went ++ w.earlier.flatMap (·.went)

/-- A frame is sent in a session that the Relay has, or is lost. -/
inductive Places (frame : ControlFrame) (k : Nat) (reaches : Prop) :
    List (Nat × ControlFrame) → List Nat → Prop
  | sent (reach : reaches) : Places frame k reaches [(k, frame)] []
  | lost : Places frame k reaches [] [frame.id]

theorem Places.imp {frame : ControlFrame} {k : Nat} {reaches reaches' : Prop}
    {frames : List (Nat × ControlFrame)} {lost : List Nat}
    (places : Places frame k reaches frames lost) (imp : reaches → reaches') :
    Places frame k reaches' frames lost := by
  cases places with
  | sent reach => exact .sent (imp reach)
  | lost => exact .lost

/-- `w.Stepped e w'`: what an event does on the wire. -/
inductive Stepped (w : Wire) : LinkEvent → Wire → Prop
  | same {e : LinkEvent} : Stepped w e w
  | request {e : LinkEvent} {request : ChangeRequest} {journal : ChangeJournal} {k : Nat}
      {named : Option Nat} {frames : List (Nat × ControlFrame)} {lost : List Nat}
      (known : journal.journalId ≤ w.journalId) (names : ∀ J ∈ named, journal.journalId = J)
      (places : Places (.change w.nextId request named) k
        (named = none → journal.journalId = w.journalId) frames lost) :
      Stepped w e
        { w with
          sent := update w.sent w.nextId (some (request, journal))
          unread := w.unread ++ frames
          lost := w.lost ++ lost
          nextId := w.nextId + 1 }
  | ask {e : LinkEvent} {i k : Nat} {request : ChangeRequest} {journal : ChangeJournal}
      {frames : List (Nat × ControlFrame)} {lost : List Nat}
      (sent : w.sent i = some (request, journal))
      (places : Places (.lookup w.nextId request.command journal.journalId) k True frames lost) :
      Stepped w e
        { w with
          asked := update w.asked w.nextId (some i)
          unread := w.unread ++ frames
          lost := w.lost ++ lost
          nextId := w.nextId + 1 }
  | sendFailed {id : Nat} {cause : String} (unsent : id ∈ w.lost ∨ id ∈ w.unread.map (·.2.id)) :
      Stepped w (.sendFailed id cause)
        { w with
          unread := w.unread.filter (·.2.id ≠ id)
          lost := w.lost ++ [id] }
  | turnAway {e : LinkEvent} {k : Nat} {frame : ControlFrame} (unread : (k, frame) ∈ w.unread) : Stepped w e
        { w with
          unread := w.unread.erase (k, frame)
          replies := update w.replies frame.id (some (.reply (.error RequestRefusal.journalChanged.failure))) }
  | read {e : LinkEvent} {k : Nat} {frame : ControlFrame} (unread : (k, frame) ∈ w.unread)
      (same : ∀ J ∈ frame.journalId, J = w.journalId) :
      Stepped w e
        { w with
          unread := w.unread.erase (k, frame)
          taken := w.taken ++ [(k, frame)] }
  | refuse {e : LinkEvent} {k : Nat} {frame : ControlFrame} {refusal : RequestRefusal} (taken : (k, frame) ∈ w.taken) :
      Stepped w e
        { w with
          taken := w.taken.erase (k, frame)
          replies := update w.replies frame.id (some (.reply (.error refusal.failure))) }
  | proceed {k now : Nat} {frame : ControlFrame} {relay : JournalHistory}
      (taken : (k, frame) ∈ w.taken) (step : w.relay.next (frame.journaled now) = some relay) :
      Stepped w (.proceed k frame now)
        { w with
          relay := relay
          taken := w.taken.erase (k, frame) }
  | send {e : LinkEvent} {id : Nat} {message : ServerMessage} (answered : (∃ request reply, message = .reply reply ∧
          w.relay.journal.requests id = some ⟨request, .answered reply⟩) ∨
        (∃ c lookup, message = .lookup lookup ∧ w.relay.journal.lookups id = some ⟨c, .answered lookup⟩) ∨
        ∃ c failure, message = .reply (.error failure) ∧ w.relay.journal.lookups id = some ⟨c, .failed failure⟩) :
      Stepped w e { w with replies := update w.replies id (some message) }
  | hangUp {e : LinkEvent} {k : Nat} : Stepped w e
        { w with
          unread := w.unread.filter (·.1 ≠ k)
          taken := w.taken.filter (·.1 ≠ k)
          lost := w.lost ++ (w.unread.filter (·.1 = k)).map (·.2.id) }
  | journal {e : JournalEvent} {relay : JournalHistory} (step : w.relay.next e = some relay)
      (unrequested : ∀ r q now, e ≠ .request r q now) (unasked : ∀ l c now, e ≠ .lookup l c now)
      (stays : ∀ now, e ≠ .restart now) :
      Stepped w (.journal e) { w with relay := relay }
  | journalRequest {q : ChangeRequest} {now : Nat} {relay : JournalHistory}
      (step : w.relay.next (.request w.nextId q now) = some relay) :
      Stepped w (.journal (.request w.nextId q now))
        { w with
          relay := relay
          nextId := w.nextId + 1 }
  | journalLookup {c : CommandId} {now : Nat} {relay : JournalHistory}
      (step : w.relay.next (.lookup w.nextId c now) = some relay) :
      Stepped w (.journal (.lookup w.nextId c now))
        { w with
          relay := relay
          nextId := w.nextId + 1 }
  | restart {now : Nat} {relay : JournalHistory} (step : w.relay.next (.restart now) = some relay) :
      Stepped w (.restart now)
        { w with
          unread := []
          taken := []
          lost := w.lost ++ w.unread.map (·.2.id)
          relay := relay }
  | rebuild {e : LinkEvent} : Stepped w e
        { w with
          unread := []
          taken := []
          lost := w.lost ++ w.unread.map (·.2.id)
          relay := {}
          journalId := w.journalId + 1
          earlier := w.relay :: w.earlier }

end Wire

namespace ControlLink

variable {s s' : ControlLink} {e : LinkEvent}

/-- The socket's journal is the Relay's, as long as the Relay has its session. -/
structure Seated (s : ControlLink) : Prop where
  socket : ∀ socket, s.hearth.socket = some socket →
    socket.journal.journalId ≤ s.journalId ∧ socket.session < s.nextSession ∧
      (socket.session ∈ s.sessions → socket.journal.journalId = s.journalId)
  sessions : ∀ k ∈ s.sessions, k < s.nextSession

theorem Seated.initial : Seated {} :=
  ⟨fun _ held => by simp at held, fun _ member => by simp at member⟩

theorem Seated.less (seated : Seated s)
    (socket : ∀ socket', s'.hearth.socket = some socket' → ∃ socket, s.hearth.socket = some socket ∧
      socket'.journal = socket.journal ∧ socket'.session = socket.session)
    (sessions : ∀ k ∈ s'.sessions, k ∈ s.sessions) (journalId : s'.journalId = s.journalId)
    (nextSession : s'.nextSession = s.nextSession) : Seated s' := by
  refine ⟨fun socket' held => ?_, fun k member => ?_⟩
  · obtain ⟨socket₀, held₀, journal, session⟩ := socket socket' held
    obtain ⟨known, bound, same⟩ := seated.socket socket₀ held₀
    rw [journal, session, journalId, nextSession]
    exact ⟨known, bound, fun member => same (sessions _ member)⟩
  · rw [nextSession]
    exact seated.sessions k (sessions k member)

/-- What a connection's socket and sessions are not touched by. -/
structure Sits (s s' : ControlLink) : Prop where
  socket : s'.hearth.socket = s.hearth.socket
  sessions : s'.sessions = s.sessions
  journalId : s'.journalId = s.journalId
  nextSession : s'.nextSession = s.nextSession

theorem Sits.refl (s : ControlLink) : Sits s s :=
  ⟨rfl, rfl, rfl, rfl⟩

theorem Sits.trans {m : ControlLink} (first : Sits s m) (second : Sits m s') : Sits s s' :=
  ⟨second.socket.trans first.socket, second.sessions.trans first.sessions,
    second.journalId.trans first.journalId, second.nextSession.trans first.nextSession⟩

theorem Seated.sits (seated : Seated s) (sits : Sits s s') : Seated s' := by
  refine seated.less (fun socket held => ?_) ?_ sits.journalId sits.nextSession
  · exact ⟨socket, sits.socket ▸ held, rfl, rfl⟩
  · rw [sits.sessions]
    exact fun _ member => member

theorem sits_send (s : ControlLink) (session : Nat) (frame : ControlFrame) :
    Sits s (s.send session frame) := by
  unfold send
  split <;> exact ⟨rfl, rfl, rfl, rfl⟩

theorem sits_rejectOne (s : ControlLink) (entry : Nat × PendingRequest) :
    Sits s (s.rejectOne entry) := by
  rcases rejectOne_cases s entry with same | ⟨_, same⟩ | ⟨_, _, _, same⟩
  all_goals
    rw [same]
    exact ⟨rfl, rfl, rfl, rfl⟩

theorem sits_rejectPending (s : ControlLink) : Sits s s.rejectPending := by
  have fold : ∀ (entries : List (Nat × PendingRequest)) (s : ControlLink), Sits s (entries.foldl rejectOne s) := by
    intro entries
    induction entries with
    | nil => exact Sits.refl
    | cons entry entries ih => exact fun s => (sits_rejectOne s entry).trans (ih _)
  obtain ⟨socket, sessions, journalId, nextSession⟩ := fold s.hearth.pending.entries s
  exact ⟨socket, sessions, journalId, nextSession⟩

theorem sits_foldl_resumeClosed (entries : List (String × UnsettledChange)) (s : ControlLink) :
    Sits s (entries.foldl resumeClosed s) := by
  induction entries generalizing s with
  | nil => exact Sits.refl s
  | cons entry entries ih =>
    have one : Sits s (s.resumeClosed entry) := ⟨rfl, rfl, rfl, rfl⟩
    exact one.trans (ih (s.resumeClosed entry))

theorem Seated.next (seated : Seated s) (step : s.next e = some s') : Seated s' := by
  cases stepped_of_next step with
  | connect =>
    refine ⟨fun socket held => ?_, fun k member => ?_⟩
    · cases held
      exact ⟨le_rfl, Nat.lt_succ_self _, fun _ => rfl⟩
    · rcases mem_cons.mp member with rfl | before
      · exact Nat.lt_succ_self _
      · exact Nat.lt_succ_of_lt (seated.sessions k before)
  | closing held =>
    refine seated.less (fun socket found => ?_) (fun _ member => member) rfl rfl
    cases found
    exact ⟨_, held, rfl, rfl⟩
  | beginSocket => exact seated.less nofun (fun _ member => member) rfl rfl
  | dropped =>
    have without : Seated (s.putSocket none) :=
      seated.less nofun (fun _ member => member) rfl rfl
    exact without.sits (sits_rejectPending _)
  | close =>
    let hearth := s.hearth
    let shut : ControlLink := { s with hearth := { hearth with closed := true, socket := none } }
    have without : Seated shut := seated.less nofun (fun _ member => member) rfl rfl
    have ended := (sits_rejectPending shut).trans
      (sits_foldl_resumeClosed shut.rejectPending.hearth.unsettled.entries shut.rejectPending)
    exact without.sits ⟨ended.socket, ended.sessions, ended.journalId, ended.nextSession⟩
  | request sent =>
    obtain ⟨socket, sent, _, _, _, rfl⟩ := request_cases sent
    refine seated.sits (Sits.trans ?_ (sits_send _ _ _))
    exact ⟨rfl, rfl, rfl, rfl⟩
  | @ask others now operationId change rest socket walks _ =>
    rcases s.ask_cases now operationId change rest socket others with same | same | ⟨_, same⟩
    · rw [same]
      exact seated.sits ⟨rfl, rfl, rfl, rfl⟩
    · rw [same]
      exact seated.sits ⟨rfl, rfl, rfl, rfl⟩
    · rw [same]
      refine seated.sits (Sits.trans ?_ (sits_send _ _ _))
      exact ⟨rfl, rfl, rfl, rfl⟩
  | @receiveLookup now rest id operationId change message _ _ =>
    rcases s.answered_cases ⟨now, rest, none⟩ id operationId change message with
      same | ⟨answer, same, _⟩
    · rw [same]
      exact seated.sits ⟨rfl, rfl, rfl, rfl⟩
    · rw [same]
      exact seated.sits ⟨rfl, rfl, rfl, rfl⟩
  | hangUp =>
    refine seated.less (fun socket held => ⟨socket, held, rfl, rfl⟩) ?_ rfl rfl
    exact fun _ member => mem_of_mem_erase member
  | journal stepped =>
    obtain ⟨relay, _, ⟨rfl, _⟩ | ⟨rfl, _⟩⟩ := journalStep_cases stepped
    · exact seated.sits ⟨rfl, rfl, rfl, rfl⟩
    · exact seated.sits ⟨rfl, rfl, rfl, rfl⟩
  | restart => exact seated.less (fun socket held => ⟨socket, held, rfl, rfl⟩) nofun rfl rfl
  | rebuild =>
    refine ⟨fun socket held => ?_, nofun⟩
    obtain ⟨known, bound, _⟩ := seated.socket socket held
    exact ⟨Nat.le_succ_of_le known, bound, nofun⟩
  | _ => exact seated.sits ⟨rfl, rfl, rfl, rfl⟩

/-- Where a frame goes that is sent. -/
theorem wire_send (s : ControlLink) (session : Nat) (frame : ControlFrame) :
    ∃ frames lost, Wire.Places frame session (session ∈ s.sessions) frames lost ∧ (s.send session frame).wire =
        { s.wire with
          unread := s.unread ++ frames
          lost := s.lost ++ lost } := by
  unfold send
  split
  · exact ⟨_, _, .sent ‹_›, by simp [wire]⟩
  · exact ⟨_, _, .lost, by simp [wire]⟩

theorem wire_sent_update (callers : Nat → Option Caller) (id : Nat) (caller : Caller) :
    (fun i => (update callers id (some caller) i).map Caller.sent) =
      update (fun i => (callers i).map Caller.sent) id (some caller.sent) := by
  funext i
  by_cases here : i = id
  · subst here
    simp
  · simp [here]

/-- Every step does one of these on the wire. -/
theorem wire_of_next (attended : Attended s) (seated : Seated s) (step : s.next e = some s') :
    s.wire.Stepped e s'.wire := by
  cases stepped_of_next step with
  | dropped =>
    rw [wire_rejectPending]
    exact .same
  | close =>
    rw [wire_close]
    exact .same
  | @request _ _ _ _ _ _ given _ stepped =>
    obtain ⟨socket, sent, held, client, chosen, rfl⟩ := request_cases stepped
    obtain ⟨known, _, same⟩ := seated.socket socket held
    obtain ⟨frames, lost, places, wire⟩ := wire_send _ socket.session _
    have bound : sent.journalId ≤ s.journalId := by
      rcases chosen with ⟨_, rfl⟩ | ⟨_, bound⟩
      · exact known
      · exact bound
    have names : ∀ J ∈ given.map ChangeJournal.journalId, sent.journalId = J := by
      rcases chosen with ⟨rfl, _⟩ | ⟨rfl, _⟩
      · exact fun J named => by cases named
      · exact fun J named => Option.some.inj named
    have current : socket.session ∈ s.sessions → given.map ChangeJournal.journalId = none →
        sent.journalId = s.journalId := by
      intro reach unnamed
      rcases chosen with ⟨_, rfl⟩ | ⟨rfl, _⟩
      · exact same reach
      · cases unnamed
    rw [wire]
    simp only [ControlLink.wire, wire_sent_update]
    exact .request bound names (places.imp current)
  | sendFailed unsent =>
    rw [wire_resume]
    exact .sendFailed unsent
  | receive =>
    rw [wire_resume]
    exact .same
  | timeout =>
    rw [wire_resume]
    exact .same
  | @interrupt id request journal waits =>
    have sent : (fun i => (update s.callers id (some ⟨request, journal, .interrupted⟩) i).map Caller.sent) =
        fun i => (s.callers i).map Caller.sent := by
      rw [wire_sent_update]
      funext i
      by_cases here : i = id
      · subst here
        simp [waits, Caller.sent]
      · simp [here]
    simp only [ControlLink.wire, sent]
    exact .same
  | overdue =>
    rw [wire_settle]
    exact .same
  | @ask others now operationId change rest socket walks held =>
    rcases s.ask_cases now operationId change rest socket others with same | same | ⟨client, same⟩
    · rw [same, wire_settle]
      exact .same
    · rw [same]
      exact .same
    obtain ⟨asks, _⟩ := attended.rest _ walks (operationId, change) mem_cons_self
    obtain ⟨request, sent, mine⟩ := asks
    obtain ⟨frames, lost, places, wire⟩ := wire_send _ socket.session _
    rw [same, wire]
    have command : (⟨socket.journal.clientId, operationId⟩ : CommandId) = request.command := by
      obtain rfl : request.command.operationId = operationId := mine
      rw [← client, ← (attended.sent _ request _ sent).2]
    rw [command] at places
    exact .ask sent (places.imp fun _ => trivial)
  | @receiveLookup now rest id operationId change message _ _ =>
    rw [wire_answered]
    exact .same
  | turnAway unread => exact .turnAway unread
  | read unread same => exact .read unread same
  | refuse taken => exact .refuse taken
  | proceed taken proceeds => exact .proceed taken proceeds
  | @send id message answered =>
    refine .send ?_
    unfold answerOf at answered
    split at answered
    · rename_i request reply found
      exact .inl ⟨request, reply, (Option.some.inj answered).symm, found⟩
    · rename_i c lookup found _
      exact .inr (.inl ⟨c, lookup, (Option.some.inj answered).symm, found⟩)
    · rename_i c failure found _
      exact .inr (.inr ⟨c, failure, (Option.some.inj answered).symm, found⟩)
    · cases answered
  | hangUp => exact .hangUp
  | journal stepped =>
    obtain ⟨relay, goes, ⟨rfl, unrequested, unasked, stays⟩ | ⟨rfl, ⟨q, now, rfl⟩ | ⟨c, now, rfl⟩⟩⟩ :=
      journalStep_cases stepped
    · exact .journal goes unrequested unasked stays
    · exact .journalRequest goes
    · exact .journalLookup goes
  | restart starts => exact .restart starts
  | rebuild => exact .rebuild
  | _ => exact .same

end ControlLink

/-! ## Each number is given once -/

namespace Wire

/-- Whatever bears a number is what Hearth sent under it, at most once, and lives in the journal it was sent for. -/
structure Numbered (w : Wire) : Prop where
  sent : ∀ i q j, w.sent i = some (q, j) → i < w.nextId ∧ j.journalId ≤ w.journalId
  asked : ∀ l i, w.asked l = some i → l < w.nextId ∧ (w.sent i).isSome
  nodup : (w.onWay.map (·.2.id)).Nodup
  apart : ∀ id ∈ w.lost, id ∉ w.onWay.map (·.2.id)
  /-- The Relay has heard nothing of a frame that is on its way, or lost. -/
  unheard : ∀ id, id ∈ w.lost ∨ id ∈ w.onWay.map (·.2.id) → id < w.nextId ∧
    w.relay.journal.requests id = none ∧ ∀ entry ∈ w.began, entry.1 ≠ id
  change : ∀ k i q named, (k, .change i q named) ∈ w.onWay → ∃ j, w.sent i = some (q, j) ∧
    (named = none → j.journalId = w.journalId) ∧ ∀ J ∈ named, j.journalId = J
  lookup : ∀ k l c J, (k, .lookup l c J) ∈ w.onWay → w.sent l = none ∧
    ∃ i q j, w.asked l = some i ∧ w.sent i = some (q, j) ∧ q.command = c ∧ j.journalId = J
  taken : ∀ frame ∈ w.taken, ∀ J ∈ frame.2.journalId, J = w.journalId
  requests : ∀ r taken, w.relay.journal.requests r = some taken → r < w.nextId ∧
    ∀ q j, w.sent r = some (q, j) → taken.request = q ∧ j.journalId = w.journalId
  lookups : ∀ l taken, w.relay.journal.lookups l = some taken → l < w.nextId ∧
    w.sent l = none ∧ ∀ i, w.asked l = some i →
      ∃ q j, w.sent i = some (q, j) ∧ q.command = taken.command ∧ j.journalId = w.journalId
  began : ∀ entry ∈ w.relay.began, entry.1 < w.nextId ∧
    ∀ q j, w.sent entry.1 = some (q, j) → entry.2 = q ∧ j.journalId = w.journalId
  earlier : ∀ entry ∈ w.earlier.flatMap (·.began), entry.1 < w.nextId ∧
    ∀ q j, w.sent entry.1 = some (q, j) → j.journalId < w.journalId
  ran : w.relay.Ran
  ranEarlier : ∀ h ∈ w.earlier, ∀ entry ∈ h.went, entry ∈ h.began

variable {w w' : Wire} {e : LinkEvent}

theorem Numbered.initial : Numbered (ControlLink.wire {}) := by
  constructor <;> simp [ControlLink.wire, onWay]
  exact .initial

variable {unread taken : List (Nat × ControlFrame)}

/-- Frames move on, or go, and are answered. -/
theorem Numbered.frames (numbered : Numbered w) {lost : List Nat}
    {replies : Nat → Option ServerMessage} (nodup : ((unread ++ taken).map (·.2.id)).Nodup)
    (fewer : ∀ frame ∈ unread ++ taken, frame ∈ w.onWay)
    (apart : ∀ id ∈ lost, id ∉ (unread ++ taken).map (·.2.id))
    (gone : ∀ id ∈ lost, id ∈ w.lost ∨ id ∈ w.onWay.map (·.2.id))
    (own : ∀ frame ∈ taken, ∀ J ∈ frame.2.journalId, J = w.journalId) :
    Numbered { w with unread := unread, taken := taken, lost := lost, replies := replies } where
  sent := numbered.sent
  asked := numbered.asked
  nodup := nodup
  apart := apart
  unheard := by
    rintro id (member | member)
    · exact numbered.unheard id (gone id member)
    · obtain ⟨frame, here, rfl⟩ := mem_map.mp member
      exact numbered.unheard _ (.inr (mem_map_of_mem (fewer frame here)))
  change k i q named member := numbered.change k i q named (fewer _ member)
  lookup k l c J member := numbered.lookup k l c J (fewer _ member)
  taken := own
  requests := numbered.requests
  lookups := numbered.lookups
  began := numbered.began
  earlier := numbered.earlier
  ran := numbered.ran
  ranEarlier := numbered.ranEarlier

theorem Numbered.step (numbered : Numbered w) {e : JournalEvent} {relay : JournalHistory}
    (step : w.relay.next e = some relay)
    (request : ∀ r q now, e = .request r q now → r < w.nextId ∧ r ∉ w.lost ∧ r ∉ w.onWay.map (·.2.id) ∧
      ∀ q' j, w.sent r = some (q', j) → q = q' ∧ j.journalId = w.journalId)
    (lookup : ∀ l c now, e = .lookup l c now → l < w.nextId ∧ w.sent l = none ∧ ∀ i, w.asked l = some i →
        ∃ q j, w.sent i = some (q, j) ∧ q.command = c ∧ j.journalId = w.journalId) :
    Numbered { w with relay := relay } := by
  have journal := JournalHistory.journal_of_next step
  have begun : ∀ entry ∈ relay.began, entry ∈ w.relay.began ∨
      ∃ taken, w.relay.journal.requests entry.1 = some taken ∧ taken.request = entry.2 := by
    intro entry member
    rcases JournalHistory.mem_began step member with before | ⟨_, due⟩
    · exact .inl before
    · exact .inr ⟨_, due, rfl⟩
  refine
    { numbered with
      unheard := fun id member => ?_
      requests := fun r taken at_r => ?_
      lookups := fun l taken at_l => ?_
      began := fun entry member => ?_
      ran := numbered.ran.next step }
  · obtain ⟨bound, unknown, unbegun⟩ := numbered.unheard id member
    refine ⟨bound, ?_, fun entry here => ?_⟩
    · cases found : relay.journal.requests id with
      | none => rfl
      | some taken =>
        obtain ⟨q, phase⟩ := taken
        rcases RelayJournal.moves_of_next journal found with ⟨_, _, now, rfl⟩ | ⟨phase', before, _⟩
        · obtain ⟨_, kept, off, _⟩ := request id q now rfl
          rcases member with gone | coming
          · exact absurd gone kept
          · exact absurd coming off
        · rw [unknown] at before
          cases before
    · rcases mem_append.mp here with new | old
      · rcases begun entry new with before | ⟨taken, found, _⟩
        · exact unbegun entry (mem_append_left _ before)
        · rintro rfl
          rw [unknown] at found
          cases found
      · exact unbegun entry (mem_append_right _ old)
  · obtain ⟨q, phase⟩ := taken
    rcases RelayJournal.moves_of_next journal at_r with ⟨_, _, now, rfl⟩ | ⟨phase', before, _⟩
    · obtain ⟨bound, _, _, same⟩ := request r q now rfl
      exact ⟨bound, same⟩
    · exact numbered.requests r ⟨q, phase'⟩ before
  · obtain ⟨c, phase⟩ := taken
    rcases RelayJournal.lookup_of_next journal at_l with
      before | ⟨now, rfl, _⟩ | ⟨_, before, _⟩ | ⟨before, _⟩
    · exact numbered.lookups l _ before
    · exact lookup l c now rfl
    · exact numbered.lookups l ⟨c, .reading⟩ before
    · exact numbered.lookups l ⟨c, .reading⟩ before
  · rcases begun entry member with before | ⟨taken, found, same⟩
    · exact numbered.began entry before
    · rw [← same]
      exact numbered.requests _ _ found

/-- A number is given that nothing bears yet. -/
theorem Numbered.bump (numbered : Numbered w) : Numbered { w with nextId := w.nextId + 1 } where
  sent i q j found := ⟨Nat.lt_succ_of_lt (numbered.sent i q j found).1, (numbered.sent i q j found).2⟩
  asked l i found := ⟨Nat.lt_succ_of_lt (numbered.asked l i found).1, (numbered.asked l i found).2⟩
  nodup := numbered.nodup
  apart := numbered.apart
  unheard id member :=
    ⟨Nat.lt_succ_of_lt (numbered.unheard id member).1, (numbered.unheard id member).2⟩
  change := numbered.change
  lookup := numbered.lookup
  taken := numbered.taken
  requests r taken found :=
    ⟨Nat.lt_succ_of_lt (numbered.requests r taken found).1, (numbered.requests r taken found).2⟩
  lookups l taken found :=
    ⟨Nat.lt_succ_of_lt (numbered.lookups l taken found).1, (numbered.lookups l taken found).2⟩
  began entry member :=
    ⟨Nat.lt_succ_of_lt (numbered.began entry member).1, (numbered.began entry member).2⟩
  earlier entry member :=
    ⟨Nat.lt_succ_of_lt (numbered.earlier entry member).1, (numbered.earlier entry member).2⟩
  ran := numbered.ran
  ranEarlier := numbered.ranEarlier

/-- A caller comes. -/
theorem Numbered.enter (numbered : Numbered w) {request : ChangeRequest} {journal : ChangeJournal}
    (known : journal.journalId ≤ w.journalId) :
    Numbered { w with
      sent := update w.sent w.nextId (some (request, journal))
      nextId := w.nextId + 1 } := by
  have bumped := numbered.bump
  have old : ∀ {i}, i < w.nextId → update w.sent w.nextId (some (request, journal)) i = w.sent i :=
    fun bound => update_of_ne (Nat.ne_of_lt bound) ..
  have kept : ∀ {i q j}, w.sent i = some (q, j) → update w.sent w.nextId (some (request, journal)) i = some (q, j) :=
    fun found => (old (numbered.sent _ _ _ found).1).trans found
  refine
    { bumped with
      sent := fun i q j found => ?_
      asked := fun l i found => ?_
      change := fun k i q named member => ?_
      lookup := fun k l c J member => ?_
      requests := fun r taken found => ?_
      lookups := fun l taken found => ?_
      began := fun entry member => ?_
      earlier := fun entry member => ?_ }
  · by_cases here : i = w.nextId
    · subst here
      change update w.sent w.nextId _ w.nextId = _ at found
      rw [update_self] at found
      cases found
      exact ⟨Nat.lt_succ_self _, known⟩
    · exact bumped.sent i q j ((update_of_ne here ..).symm.trans found)
  · obtain ⟨bound, sent⟩ := bumped.asked l i found
    obtain ⟨⟨q, j⟩, sent⟩ := Option.isSome_iff_exists.mp sent
    exact ⟨bound, Option.isSome_iff_exists.mpr ⟨_, kept sent⟩⟩
  · obtain ⟨j, found, rest⟩ := numbered.change k i q named member
    exact ⟨j, kept found, rest⟩
  · obtain ⟨unsent, i, q, j, asked, found, rest⟩ := numbered.lookup k l c J member
    have bound := (numbered.unheard l (.inr (mem_map_of_mem member))).1
    exact ⟨(old bound).trans unsent, i, q, j, asked, kept found, rest⟩
  · obtain ⟨bound, same⟩ := numbered.requests r taken found
    exact ⟨Nat.lt_succ_of_lt bound, fun q j sent => same q j ((old bound).symm.trans sent)⟩
  · obtain ⟨bound, unsent, same⟩ := numbered.lookups l taken found
    refine ⟨Nat.lt_succ_of_lt bound, (old bound).trans unsent, fun i asked => ?_⟩
    obtain ⟨q, j, sent, rest⟩ := same i asked
    exact ⟨q, j, kept sent, rest⟩
  · obtain ⟨bound, same⟩ := numbered.began entry member
    exact ⟨Nat.lt_succ_of_lt bound, fun q j sent => same q j ((old bound).symm.trans sent)⟩
  · obtain ⟨bound, same⟩ := numbered.earlier entry member
    exact ⟨Nat.lt_succ_of_lt bound, fun q j sent => same q j ((old bound).symm.trans sent)⟩

/-- A lookup is made for a caller. -/
theorem Numbered.ask (numbered : Numbered w) {i : Nat} (sent : (w.sent i).isSome) : Numbered { w with
      asked := update w.asked w.nextId (some i)
      nextId := w.nextId + 1 } := by
  have bumped := numbered.bump
  have old : ∀ {l}, l < w.nextId → update w.asked w.nextId (some i) l = w.asked l :=
    fun bound => update_of_ne (Nat.ne_of_lt bound) ..
  refine
    { bumped with
      asked := fun l k found => ?_
      lookup := fun k l c J member => ?_
      lookups := fun l taken found => ?_ }
  · by_cases here : l = w.nextId
    · subst here
      change update w.asked w.nextId _ w.nextId = _ at found
      rw [update_self] at found
      exact ⟨Nat.lt_succ_self _, Option.some.inj found ▸ sent⟩
    · exact bumped.asked l k ((update_of_ne here ..).symm.trans found)
  · obtain ⟨unsent, i', q, j, asked, rest⟩ := numbered.lookup k l c J member
    have bound := (numbered.unheard l (.inr (mem_map_of_mem member))).1
    exact ⟨unsent, i', q, j, (old bound).trans asked, rest⟩
  · obtain ⟨bound, unsent, same⟩ := numbered.lookups l taken found
    exact ⟨Nat.lt_succ_of_lt bound, unsent, fun i asked => same i ((old bound).symm.trans asked)⟩

theorem Numbered.place (numbered : Numbered w) {frame : ControlFrame} {k : Nat} {reaches : Prop}
    {frames : List (Nat × ControlFrame)} {lost : List Nat}
    (places : Places frame k reaches frames lost) (bound : frame.id < w.nextId)
    (unheard : w.relay.journal.requests frame.id = none ∧ ∀ entry ∈ w.began, entry.1 ≠ frame.id)
    (fresh : frame.id ∉ w.lost ∧ frame.id ∉ w.onWay.map (·.2.id))
    (change : ∀ i q named, frame = .change i q named → reaches → ∃ j, w.sent i = some (q, j) ∧
      (named = none → j.journalId = w.journalId) ∧ ∀ J ∈ named, j.journalId = J)
    (lookup : ∀ l c J, frame = .lookup l c J → w.sent l = none ∧
      ∃ i q j, w.asked l = some i ∧ w.sent i = some (q, j) ∧ q.command = c ∧ j.journalId = J) :
    Numbered { w with unread := w.unread ++ frames, lost := w.lost ++ lost } := by
  cases places with
  | sent reach =>
    rw [append_nil]
    have members : ∀ other, other ∈ (w.unread ++ [(k, frame)]) ++ w.taken → other = (k, frame) ∨ other ∈ w.onWay := by
      intro other member
      simp only [onWay, mem_append, mem_singleton] at member ⊢
      tauto
    have ids : ∀ id, id ∈ ((w.unread ++ [(k, frame)]) ++ w.taken).map (·.2.id) →
        id = frame.id ∨ id ∈ w.onWay.map (·.2.id) := by
      intro id member
      obtain ⟨other, here, rfl⟩ := mem_map.mp member
      rcases members other here with rfl | before
      · exact .inl rfl
      · exact .inr (mem_map_of_mem before)
    refine
      { numbered with
        nodup := ?_
        apart := fun id member here => ?_
        unheard := fun id member => ?_
        change := fun k' i q named member => ?_
        lookup := fun k' l c J member => ?_ }
    · have nodup := numbered.nodup
      have fresh := fresh.2
      simp only [onWay, map_append, map_cons, map_nil] at nodup fresh ⊢
      rw [append_assoc, singleton_append, nodup_middle]
      exact nodup_cons.mpr ⟨fresh, nodup⟩
    · rcases ids id here with rfl | before
      · exact fresh.1 member
      · exact numbered.apart id member before
    · rcases member with gone | coming
      · exact numbered.unheard id (.inl gone)
      · rcases ids id coming with rfl | before
        · exact ⟨bound, unheard⟩
        · exact numbered.unheard id (.inr before)
    · rcases members _ member with same | before
      · cases same
        exact change i q named rfl reach
      · exact numbered.change k' i q named before
    · rcases members _ member with same | before
      · cases same
        exact lookup l c J rfl
      · exact numbered.lookup k' l c J before
  | lost =>
    rw [append_nil]
    refine
      { numbered with
        apart := fun id member => ?_
        unheard := fun id member => ?_ }
    · rcases mem_append.mp member with before | new
      · exact numbered.apart id before
      · obtain rfl := mem_singleton.mp new
        exact fresh.2
    · rcases member with gone | coming
      · rcases mem_append.mp gone with before | new
        · exact numbered.unheard id (.inl before)
        · obtain rfl := mem_singleton.mp new
          exact ⟨bound, unheard⟩
      · exact numbered.unheard id (.inr coming)

theorem Numbered.fresh (numbered : Numbered w) : w.sent w.nextId = none ∧ w.asked w.nextId = none ∧
      w.relay.journal.requests w.nextId = none ∧ (∀ entry ∈ w.began, entry.1 ≠ w.nextId) ∧
      w.nextId ∉ w.lost ∧ w.nextId ∉ w.onWay.map (·.2.id) := by
  refine ⟨?_, ?_, ?_, fun entry member => ?_, fun member => ?_, fun member => ?_⟩
  · cases found : w.sent w.nextId with
    | none => rfl
    | some sent => exact absurd (numbered.sent _ sent.1 sent.2 found).1 (lt_irrefl _)
  · cases found : w.asked w.nextId with
    | none => rfl
    | some i => exact absurd (numbered.asked _ i found).1 (lt_irrefl _)
  · cases found : w.relay.journal.requests w.nextId with
    | none => rfl
    | some taken => exact absurd (numbered.requests _ taken found).1 (lt_irrefl _)
  · apply Nat.ne_of_lt
    rcases mem_append.mp member with new | old
    · exact (numbered.began entry new).1
    · exact (numbered.earlier entry old).1
  · exact absurd (numbered.unheard _ (.inl member)).1 (lt_irrefl _)
  · exact absurd (numbered.unheard _ (.inr member)).1 (lt_irrefl _)

variable {f : Nat × ControlFrame}

/-- A frame that the Relay hasn't read isn't one it has. -/
theorem Numbered.unread_ne_taken (numbered : Numbered w) {g : Nat × ControlFrame}
    (unread : f ∈ w.unread) (taken : g ∈ w.taken) : f.2.id ≠ g.2.id := by
  have nodup := numbered.nodup
  rw [onWay, map_append, nodup_append] at nodup
  exact nodup.2.2 _ (mem_map_of_mem unread) _ (mem_map_of_mem taken)

theorem Numbered.unique (numbered : Numbered w) {g : Nat × ControlFrame} (left : f ∈ w.onWay)
    (right : g ∈ w.onWay) (same : f.2.id = g.2.id) : f = g :=
  inj_on_of_nodup_map numbered.nodup left right same

/-- A frame that goes isn't on its way any more. -/
theorem Numbered.not_mem_erase (numbered : Numbered w) (taken : f ∈ w.taken) :
    f.2.id ∉ (w.unread ++ w.taken.erase f).map (·.2.id) := by
  intro member
  obtain ⟨g, here, same⟩ := mem_map.mp member
  rcases mem_append.mp here with unread | left
  · exact numbered.unread_ne_taken unread taken same
  have other := numbered.unique (mem_append_right _ (mem_of_mem_erase left)) (mem_append_right _ taken) same
  subst other
  have nodup := numbered.nodup
  rw [onWay, map_append] at nodup
  exact (Nodup.of_map _ (nodup.of_append_right)).not_mem_erase left

theorem Numbered.sublist (numbered : Numbered w) (unread_fewer : unread.Sublist w.unread)
    (taken_fewer : taken.Sublist w.taken) :
    ((unread ++ taken).map (·.2.id)).Nodup ∧ ∀ frame ∈ unread ++ taken, frame ∈ w.onWay :=
  ⟨numbered.nodup.sublist ((unread_fewer.append taken_fewer).map _),
    fun _ member => (unread_fewer.append taken_fewer).subset member⟩

/-- Frames go, and are answered. -/
theorem Numbered.fewer (numbered : Numbered w) (lost : List Nat)
    (replies : Nat → Option ServerMessage) (unread_fewer : unread.Sublist w.unread)
    (taken_fewer : taken.Sublist w.taken)
    (gone : ∀ id ∈ lost, id ∈ w.unread.map (·.2.id) ∨ id ∈ w.lost)
    (left : ∀ id ∈ lost, id ∈ unread.map (·.2.id) → False) :
    Numbered { w with
      unread := unread
      taken := taken
      lost := w.lost ++ lost
      replies := replies } := by
  obtain ⟨nodup, fewer⟩ := numbered.sublist unread_fewer taken_fewer
  refine numbered.frames nodup fewer (fun id member here => ?_) (fun id member => ?_)
    fun frame member => numbered.taken frame (taken_fewer.subset member)
  · obtain ⟨frame, there, rfl⟩ := mem_map.mp here
    rcases mem_append.mp member with before | new
    · exact numbered.apart _ before (mem_map_of_mem (fewer frame there))
    rcases gone _ new with unread' | before
    · rcases mem_append.mp there with stays | taken'
      · exact left _ new (mem_map_of_mem stays)
      · obtain ⟨other, was, same⟩ := mem_map.mp unread'
        exact numbered.unread_ne_taken was (taken_fewer.subset taken') same
    · exact numbered.apart _ before (mem_map_of_mem (fewer frame there))
  · rcases mem_append.mp member with before | new
    · exact .inl before
    · rcases gone id new with unread' | before
      · rw [onWay, map_append]
        exact .inr (mem_append_left _ unread')
      · exact .inl before

theorem Numbered.next (numbered : Numbered w) (step : w.Stepped e w') : Numbered w' := by
  obtain ⟨unsent, unasked, unknown, unbegun, kept, off⟩ := numbered.fresh
  cases step with
  | same => exact numbered
  | @request _ request journal k named frames lost known names places =>
    refine (numbered.enter known).place places (Nat.lt_succ_self _) ⟨unknown, unbegun⟩ ⟨kept, off⟩ ?_ nofun
    rintro i q named' same reach
    cases same
    exact ⟨journal, update_self .., reach, names⟩
  | @ask _ i k request journal frames lost sent places =>
    refine (numbered.ask (Option.isSome_iff_exists.mpr ⟨_, sent⟩)).place places (Nat.lt_succ_self _) ⟨unknown, unbegun⟩ ⟨kept, off⟩ nofun ?_
    rintro l c J same
    obtain ⟨rfl, rfl, rfl⟩ := ControlFrame.lookup.inj same
    exact ⟨unsent, i, request, journal, update_self .., sent, rfl, rfl⟩
  | @sendFailed id cause failed =>
    refine numbered.fewer _ _ filter_sublist (Sublist.refl _) ?_ ?_
    · intro id' member
      obtain rfl := mem_singleton.mp member
      exact failed.symm
    · intro id' member here
      obtain rfl := mem_singleton.mp member
      obtain ⟨frame, there, rfl⟩ := mem_map.mp here
      simp at there
  | @turnAway _ k frame unread =>
    have fewer := numbered.fewer [] (update w.replies frame.id
      (some (.reply (.error RequestRefusal.journalChanged.failure))))
      (erase_sublist (a := (k, frame))) (Sublist.refl _) nofun nofun
    rwa [append_nil] at fewer
  | @read _ k frame unread same =>
    have perm : ((w.unread.erase (k, frame)) ++ (w.taken ++ [(k, frame)])).Perm w.onWay := by
      rw [← append_assoc]
      refine perm_append_comm.trans ?_
      exact (perm_cons_erase unread).symm.append_right w.taken
    refine numbered.frames ((perm.map _).nodup_iff.mpr numbered.nodup)
      (fun frame member => perm.subset member) (fun id member here => ?_)
      (fun id member => Or.inl member) fun frame' member => ?_
    · exact numbered.apart id member ((perm.map _).subset here)
    · rcases mem_append.mp member with before | new
      · exact numbered.taken frame' before
      · obtain rfl := mem_singleton.mp new
        exact same
  | @refuse _ k frame refusal taken =>
    have fewer := numbered.fewer [] (update w.replies frame.id (some (.reply (.error refusal.failure))))
      (Sublist.refl _) (erase_sublist (a := (k, frame))) nofun nofun
    rwa [append_nil] at fewer
  | @proceed k now frame relay taken step =>
    have fewer := numbered.fewer [] w.replies (Sublist.refl _) (erase_sublist (a := (k, frame))) nofun nofun
    rw [append_nil] at fewer
    have member : (k, frame) ∈ w.onWay := mem_append_right _ taken
    have current := numbered.taken _ taken
    refine fewer.step step ?_ ?_
    · intro r q now' asked
      cases frame with
      | lookup => cases asked
      | change id request named =>
        obtain ⟨rfl, rfl, rfl⟩ := JournalEvent.request.inj asked
        obtain ⟨journal, sent, unnamed, names⟩ := numbered.change k id request named member
        obtain ⟨bound, _⟩ := numbered.unheard id (.inr (mem_map_of_mem member))
        refine ⟨bound, fun lost => ?_, numbered.not_mem_erase taken, fun q j found => ?_⟩
        · exact numbered.apart id lost (mem_map_of_mem member)
        rw [sent] at found
        obtain ⟨rfl, rfl⟩ := Prod.mk.inj (Option.some.inj found)
        refine ⟨rfl, ?_⟩
        cases named with
        | none => exact unnamed rfl
        | some J => exact (names J rfl).trans (current J rfl)
    · intro l c now' asked
      cases frame with
      | change => cases asked
      | lookup id command J =>
        obtain ⟨rfl, rfl, rfl⟩ := JournalEvent.lookup.inj asked
        obtain ⟨unsent, i, q, j, asked, sent, mine, same⟩ := numbered.lookup k id command J member
        obtain ⟨bound, _⟩ := numbered.unheard id (.inr (mem_map_of_mem member))
        refine ⟨bound, unsent, fun i' asked' => ?_⟩
        rw [asked] at asked'
        cases asked'
        exact ⟨q, j, sent, mine, same.trans (current J rfl)⟩
  | send => exact { numbered with }
  | @hangUp _ k =>
    refine numbered.fewer _ _ filter_sublist filter_sublist ?_ ?_
    · intro id member
      exact .inl ((filter_sublist.map _).subset member)
    intro id member here
    obtain ⟨f, left, rfl⟩ := mem_map.mp member
    obtain ⟨g, right, same⟩ := mem_map.mp here
    simp only [mem_filter, decide_eq_true_eq, ne_eq, decide_not, Bool.not_eq_true',
      decide_eq_false_iff_not] at left right
    have other := numbered.unique (mem_append_left _ right.1) (mem_append_left _ left.1) same
    exact right.2 (other ▸ left.2)
  | journal step unrequested unasked =>
    exact numbered.step step (fun r q now same => absurd same (unrequested r q now))
      fun l c now same => absurd same (unasked l c now)
  | @journalRequest q now relay step =>
    refine numbered.bump.step step (fun r q' now' same => ?_) nofun
    cases same
    refine ⟨Nat.lt_succ_self _, kept, off, fun q' j found => ?_⟩
    rw [unsent] at found
    cases found
  | @journalLookup c now relay step =>
    refine numbered.bump.step step nofun fun l c' now' same => ?_
    cases same
    refine ⟨Nat.lt_succ_self _, unsent, fun i found => ?_⟩
    rw [unasked] at found
    cases found
  | restart step =>
    have fewer := numbered.fewer (w.unread.map (·.2.id)) w.replies
      (nil_sublist _) (nil_sublist _) (fun _ member => Or.inl member) nofun
    exact fewer.step step nofun nofun
  | rebuild =>
    have fewer := numbered.fewer (w.unread.map (·.2.id)) w.replies
      (nil_sublist _) (nil_sublist _) (fun _ member => Or.inl member) nofun
    refine
      { fewer with
        sent := fun i q j found => ?_
        unheard := fun id member => ?_
        change := nofun
        lookup := nofun
        taken := nofun
        requests := nofun
        lookups := nofun
        began := nofun
        earlier := fun entry member => ?_
        ran := .initial
        ranEarlier := fun h member => ?_ }
    · obtain ⟨bound, known⟩ := numbered.sent i q j found
      exact ⟨bound, Nat.le_succ_of_le known⟩
    · obtain ⟨bound, _, unbegun⟩ := fewer.unheard id member
      refine ⟨bound, rfl, fun entry here => unbegun entry ?_⟩
      simpa [Wire.began] using here
    · rcases mem_flatMap.mp member with ⟨h, here, inside⟩
      rcases mem_cons.mp here with rfl | before
      · obtain ⟨bound, same⟩ := numbered.began entry inside
        exact ⟨bound, fun q j found => Nat.lt_succ_of_le (same q j found).2.le⟩
      · obtain ⟨bound, older⟩ := numbered.earlier entry (mem_flatMap.mpr ⟨h, before, inside⟩)
        exact ⟨bound, fun q j found => Nat.lt_succ_of_lt (older q j found)⟩
    · rcases mem_cons.mp member with rfl | before
      · exact fun entry went => (numbered.ran.went entry went).1
      · exact numbered.ranEarlier h before

end Wire

end Kiln.Hearth
