import Kiln.Hearth.RelayConnection

/-!
# Who waits for what on a connection

Each entry of `#pending` and of `#unsettled` has a caller that still waits for it, and a lookup's
entry has the pass that awaits it (`relay-connection.ts:1171-1230`, `2112-2249`). What a step tells
a caller comes from a reply, from a lookup of its change, or from Hearth itself.
-/

namespace Kiln.Hearth
open Kiln.Lib Kiln.Relay OrderedMap Function List

/-! ## What goes over the wire -/

/-- What a caller sent, whatever became of it. -/
def Caller.sent (caller : Caller) : ChangeRequest × ChangeJournal :=
  (caller.request, caller.journal)

@[simp] theorem Caller.sent_resume (caller : Caller) (answer : RequestAnswer) :
    (caller.resume answer).sent = caller.sent := by
  unfold Caller.resume
  split <;> rfl

/-- The part of a connection that Hearth's own bookkeeping leaves alone. -/
structure Wire where
  sent : Nat → Option (ChangeRequest × ChangeJournal)
  asked : Nat → Option Nat
  unread : List (Nat × ControlFrame)
  taken : List (Nat × ControlFrame)
  lost : List Nat
  relay : JournalHistory
  journalId : Nat
  earlier : List JournalHistory
  replies : Nat → Option ServerMessage
  nextId : Nat

namespace ControlLink

def wire (s : ControlLink) : Wire :=
  { sent := fun i => (s.callers i).map Caller.sent
    asked := s.asked
    unread := s.unread
    taken := s.taken
    lost := s.lost
    relay := s.relay
    journalId := s.journalId
    earlier := s.earlier
    replies := s.replies
    nextId := s.nextId }

variable {s s' : ControlLink} {e : LinkEvent} {i id : Nat} {operationId : String}
  {journal : ChangeJournal} {answer : RequestAnswer}

@[simp] theorem wire_resume (s : ControlLink) (id : Nat) (answer : RequestAnswer) :
    (s.resume id answer).wire = s.wire := by
  have sent : (fun i => ((s.resume id answer).callers i).map Caller.sent) = fun i => (s.callers i).map Caller.sent := by
    funext i
    by_cases here : i = id
    · subst here
      cases found : s.callers i <;> simp [resume, found]
    · simp [resume, here]
  simp only [wire, sent]
  rfl

@[simp] theorem wire_putSocket (s : ControlLink) (socket : Option ControlSocket) :
    (s.putSocket socket).wire = s.wire := rfl

@[simp] theorem wire_putPass (s : ControlLink) (pass : Option SettlePass) : (s.putPass pass).wire = s.wire := rfl

@[simp] theorem wire_putSettling (s : ControlLink) (settling : Bool) : (s.putSettling settling).wire = s.wire := rfl

@[simp] theorem wire_unpend (s : ControlLink) (id : Nat) : (s.unpend id).wire = s.wire := rfl

@[simp] theorem wire_abandon (s : ControlLink) (id : Nat) (operationId : String) :
    (s.abandon id operationId).wire = s.wire := rfl

@[simp] theorem wire_settle (s : ControlLink) (operationId : String) (change : UnsettledChange)
    (answer : RequestAnswer) : (s.settle operationId change answer).wire = s.wire := by
  rw [settle, wire_resume]
  rfl

@[simp] theorem wire_answered (s : ControlLink) (pass : SettlePass) (id : Nat)
    (operationId : String) (change : UnsettledChange) (message : ServerMessage) :
    (s.answered pass id operationId change message).wire = s.wire := by
  unfold answered
  dsimp only
  split
  · split <;> simp
  · split <;> simp
  · simp

/-! ## What becomes of the callers as requests can't answer any more -/

theorem callers_resume (s : ControlLink) (id : Nat) (answer : RequestAnswer) (i : Nat) :
    (s.resume id answer).callers i = s.callers i ∨
      ∃ request journal, i = id ∧ s.callers i = some ⟨request, journal, .waiting⟩ ∧
        (s.resume id answer).callers i = some ⟨request, journal, .told answer⟩ := by
  by_cases here : i = id
  · subst here
    cases found : s.callers i with
    | none => exact .inl (by simp [resume, found])
    | some caller =>
      obtain ⟨request, journal, state⟩ := caller
      cases state with
      | waiting => exact .inr ⟨request, journal, rfl, rfl, by simp [resume, found, Caller.resume]⟩
      | told before => exact .inl (by simp [resume, found, Caller.resume])
      | interrupted => exact .inl (by simp [resume, found, Caller.resume])
  · exact .inl (by simp [resume, here])

/-- What rejecting some of the pending requests leaves: callers are resumed only as the connection is closed, and their
changes go to `#unsettled` otherwise. -/
structure Rejects (s : ControlLink) (entries : List (Nat × PendingRequest)) (s' : ControlLink) :
    Prop where
  pending : s'.hearth.pending = s.hearth.pending
  pass : s'.hearth.pass = s.hearth.pass
  closed : s'.hearth.closed = s.hearth.closed
  wire : s'.wire = s.wire
  callers : ∀ i, s'.callers i = s.callers i ∨ s.hearth.closed = true ∧ i ∈ entries.map Prod.fst ∧
      ∃ request journal, s.callers i = some ⟨request, journal, .waiting⟩ ∧
        s'.callers i = some ⟨request, journal, .told .closed⟩
  unsettled : ∀ operationId change, s'.hearth.unsettled.get operationId = some change →
    s.hearth.unsettled.get operationId = some change ∨
      ∃ entry ∈ entries, entry.2.operationId = some operationId ∧ s.hearth.closed = false ∧
        change = ⟨entry.2.deadline, entry.2.journal, entry.1⟩

/-- What one request that can't answer any more becomes. -/
theorem rejectOne_cases (s : ControlLink) (entry : Nat × PendingRequest) :
    s.rejectOne entry = s ∨ (s.hearth.closed = true ∧ s.rejectOne entry = s.resume entry.1 .closed) ∨
      ∃ operationId, entry.2.operationId = some operationId ∧ s.hearth.closed = false ∧
        let hearth := s.hearth
        s.rejectOne entry =
          { s with
            hearth := { hearth with
              unsettled := hearth.unsettled.set operationId ⟨entry.2.deadline, entry.2.journal, entry.1⟩ } } := by
  unfold rejectOne
  cases change : entry.2.operationId with
  | none => exact .inl rfl
  | some operationId =>
    cases shut : s.hearth.closed with
    | true => exact .inr (.inl ⟨rfl, by simp⟩)
    | false => exact .inr (.inr ⟨operationId, rfl, rfl, by simp⟩)

theorem Rejects.cons {entry : Nat × PendingRequest} {entries : List (Nat × PendingRequest)}
    (rejects : Rejects (s.rejectOne entry) entries s') : Rejects s (entry :: entries) s' := by
  rcases rejectOne_cases s entry with same | ⟨shut, same⟩ | ⟨operationId, change_id, stands, same⟩
  · rw [same] at rejects
    obtain ⟨pending, pass, closed, wire, callers, unsettled⟩ := rejects
    refine ⟨pending, pass, closed, wire, fun i => ?_, fun operationId change found => ?_⟩
    · rcases callers i with same | ⟨shut, member, told⟩
      · exact .inl same
      · exact .inr ⟨shut, mem_cons_of_mem _ member, told⟩
    · rcases unsettled operationId change found with before | ⟨entry', member, rest⟩
      · exact .inl before
      · exact .inr ⟨entry', mem_cons_of_mem _ member, rest⟩
  · rw [same] at rejects
    obtain ⟨pending, pass, closed, wire, callers, unsettled⟩ := rejects
    rw [wire_resume] at wire
    refine ⟨pending, pass, closed, wire, fun i => ?_, fun operationId change found => ?_⟩
    · rcases callers_resume s entry.1 .closed i with unchanged | ⟨q, j, rfl, waits, told⟩
      · rcases callers i with same | ⟨_, member, q, j, waits, told⟩
        · exact .inl (same.trans unchanged)
        · exact .inr ⟨shut, mem_cons_of_mem _ member, q, j, unchanged ▸ waits, told⟩
      · rcases callers entry.1 with same | ⟨_, _, _, _, waits', _⟩
        · exact .inr ⟨shut, mem_cons_self, q, j, waits, same.trans told⟩
        · rw [told] at waits'
          cases waits'
    · rcases unsettled operationId change found with before | ⟨_, _, _, here, _⟩
      · exact .inl before
      · exact absurd (shut.symm.trans here) (by simp)
  · dsimp only at same
    rw [same] at rejects
    obtain ⟨pending, pass, closed, wire, callers, unsettled⟩ := rejects
    refine ⟨pending, pass, closed, wire, fun i => ?_, fun operationId' change found => ?_⟩
    · rcases callers i with same | ⟨shut, member, told⟩
      · exact .inl same
      · exact .inr ⟨shut, mem_cons_of_mem _ member, told⟩
    rcases unsettled operationId' change found with before | ⟨entry', member, rest⟩
    · simp only [get_set] at before
      split at before
      · rename_i here
        cases before
        exact .inr ⟨entry, mem_cons_self, here ▸ change_id, stands, rfl⟩
      · exact .inl before
    · exact .inr ⟨entry', mem_cons_of_mem _ member, rest⟩

theorem rejects_foldl (s : ControlLink) (entries : List (Nat × PendingRequest)) :
    Rejects s entries (entries.foldl rejectOne s) := by
  induction entries generalizing s with
  | nil => exact ⟨rfl, rfl, rfl, rfl, fun i => Or.inl rfl, fun _ _ found => Or.inl found⟩
  | cons entry entries ih => exact (ih (s.rejectOne entry)).cons

@[simp] theorem wire_rejectPending (s : ControlLink) : s.rejectPending.wire = s.wire :=
  (rejects_foldl s s.hearth.pending.entries).wire

theorem wire_foldl_resumeClosed (entries : List (String × UnsettledChange)) (s : ControlLink) :
    (entries.foldl resumeClosed s).wire = s.wire := by
  induction entries generalizing s with
  | nil => rfl
  | cons entry entries ih =>
    rw [foldl_cons, ih, resumeClosed, wire_resume]

theorem hearth_foldl_resumeClosed (entries : List (String × UnsettledChange)) (s : ControlLink) :
    (entries.foldl resumeClosed s).hearth = s.hearth := by
  induction entries generalizing s with
  | nil => rfl
  | cons entry entries ih =>
    rw [foldl_cons, ih]
    rfl

theorem callers_foldl_resumeClosed (entries : List (String × UnsettledChange)) (s : ControlLink) (i : Nat) :
    (entries.foldl resumeClosed s).callers i = s.callers i ∨
      ∃ request journal, s.callers i = some ⟨request, journal, .waiting⟩ ∧
        (entries.foldl resumeClosed s).callers i = some ⟨request, journal, .told .closed⟩ := by
  induction entries generalizing s with
  | nil => exact .inl rfl
  | cons entry entries ih =>
    rw [foldl_cons]
    rcases callers_resume s entry.2.caller .closed i with same | ⟨q, j, _, waits, told⟩
    · rcases ih (s.resumeClosed entry) with unchanged | ⟨request, journal, waits, told⟩
      · exact .inl (unchanged.trans same)
      · exact .inr ⟨request, journal, same ▸ waits, told⟩
    · rcases ih (s.resumeClosed entry) with unchanged | ⟨_, _, waits', _⟩
      · exact .inr ⟨q, j, waits, unchanged.trans told⟩
      · simp only [resumeClosed, told] at waits'
        cases waits'

@[simp] theorem wire_close (s : ControlLink) : s.close.wire = s.wire := by
  have rejected := wire_rejectPending (let hearth := s.hearth
     { s with hearth := { hearth with closed := true, socket := none } })
  exact (wire_foldl_resumeClosed _ _).trans rejected

@[simp] theorem send_hearth (s : ControlLink) (session : Nat) (frame : ControlFrame) :
    (s.send session frame).hearth = s.hearth := by
  unfold send
  split <;> rfl

@[simp] theorem send_callers (s : ControlLink) (session : Nat) (frame : ControlFrame) :
    (s.send session frame).callers = s.callers := by
  unfold send
  split <;> rfl

@[simp] theorem send_asked (s : ControlLink) (session : Nat) (frame : ControlFrame) :
    (s.send session frame).asked = s.asked := by
  unfold send
  split <;> rfl

@[simp] theorem send_nextId (s : ControlLink) (session : Nat) (frame : ControlFrame) :
    (s.send session frame).nextId = s.nextId := by
  unfold send
  split <;> rfl

/-! ## Each entry has its caller -/

/-- A caller sent a change under an operation ID, to a journal. -/
def Asks (s : ControlLink) (i : Nat) (operationId : String) (journal : ChangeJournal) : Prop :=
  ∃ request, s.wire.sent i = some (request, journal) ∧ request.command.operationId = operationId

/-- And it still waits. -/
def Waits (s : ControlLink) (i : Nat) (operationId : String) (journal : ChangeJournal) : Prop :=
  ∃ request, s.callers i = some ⟨request, journal, .waiting⟩ ∧ request.command.operationId = operationId

theorem Waits.asks (waits : s.Waits i operationId journal) : s.Asks i operationId journal := by
  obtain ⟨request, found, same⟩ := waits
  exact ⟨request, by simp [wire, found, Caller.sent], same⟩

theorem Asks.congr (asks : s.Asks i operationId journal) (sent : s'.wire.sent = s.wire.sent) :
    s'.Asks i operationId journal := by
  obtain ⟨request, found, same⟩ := asks
  exact ⟨request, sent ▸ found, same⟩

theorem Waits.congr (waits : s.Waits i operationId journal)
    (callers : s'.callers i = s.callers i) : s'.Waits i operationId journal := by
  obtain ⟨request, found, same⟩ := waits
  exact ⟨request, callers ▸ found, same⟩

/-- A change that a caller asks for, which isn't pending. -/
def Parted (s : ControlLink) (operationId : String) (change : UnsettledChange) : Prop :=
  s.Asks change.caller operationId change.journal ∧ s.hearth.pending.get change.caller = none

/-- Every entry has the caller that waits for it, and every lookup the pass that awaits it. -/
structure Attended (s : ControlLink) : Prop where
  change : ∀ id entry operationId, s.hearth.pending.get id = some entry →
    entry.operationId = some operationId → s.Waits id operationId entry.journal
  lookup : ∀ id entry, s.hearth.pending.get id = some entry → entry.operationId = none →
    ∃ pass operationId change, s.hearth.pass = some pass ∧ pass.lookup = some (id, operationId, change)
  unsettled : ∀ operationId change, s.hearth.unsettled.get operationId = some change →
    s.Waits change.caller operationId change.journal ∧ s.Parted operationId change
  rest : ∀ pass, s.hearth.pass = some pass → ∀ entry ∈ pass.rest, s.Parted entry.1 entry.2
  asking : ∀ pass id operationId change, s.hearth.pass = some pass → pass.lookup = some (id, operationId, change) →
      s.asked id = some change.caller ∧ s.Parted operationId change
  sent : ∀ i request journal, s.wire.sent i = some (request, journal) →
    i < s.nextId ∧ request.command.clientId = journal.clientId
  asked : ∀ l i, s.asked l = some i → l < s.nextId

theorem Attended.initial : Attended {} where
  change _ _ _ found := by simp at found
  lookup _ _ found := by simp at found
  unsettled _ _ found := by simp at found
  rest _ found := by simp at found
  asking _ _ _ _ found := by simp at found
  sent _ _ _ found := by simp [wire] at found
  asked _ _ found := by simp at found

/-- Entries go, and with them callers that nothing waits for any more. -/
theorem Attended.less (attended : Attended s) (sent : s'.wire.sent = s.wire.sent)
    (asked : s'.asked = s.asked) (later : s.nextId ≤ s'.nextId)
    (pending : ∀ k entry, s'.hearth.pending.get k = some entry →
      s.hearth.pending.get k = some entry ∧ s'.callers k = s.callers k)
    (unsettled : ∀ operationId change, s'.hearth.unsettled.get operationId = some change →
      s.hearth.unsettled.get operationId = some change ∧ s'.callers change.caller = s.callers change.caller)
    (pass : ∀ pass', s'.hearth.pass = some pass' → ∃ pass, s.hearth.pass = some pass ∧
      (∀ entry ∈ pass'.rest, entry ∈ pass.rest) ∧ ∀ lookup, pass'.lookup = some lookup → pass.lookup = some lookup)
    (lookup : ∀ k entry pass lookup, s'.hearth.pending.get k = some entry →
      s.hearth.pass = some pass → pass.lookup = some (k, lookup) →
        ∃ pass', s'.hearth.pass = some pass' ∧ pass'.lookup = some (k, lookup)) :
    Attended s' := by
  have parted : ∀ operationId change, s.Parted operationId change → s'.Parted operationId change := by
    intro operationId change before
    refine ⟨before.1.congr sent, ?_⟩
    cases found : s'.hearth.pending.get change.caller with
    | none => rfl
    | some entry =>
      have earlier := (pending _ _ found).1
      rw [before.2] at earlier
      cases earlier
  refine
    { change := fun k entry operationId found kind => ?_
      lookup := fun k entry found kind => ?_
      unsettled := fun operationId change found => ?_
      rest := fun pass' walks entry member => ?_
      asking := fun pass' k operationId change walks looked => ?_
      sent := fun i request journal found => ?_
      asked := fun l i found => ?_ }
  · obtain ⟨before, callers⟩ := pending k entry found
    exact (attended.change k entry operationId before kind).congr callers
  · obtain ⟨pass₀, operationId, change, walks, looked⟩ :=
      attended.lookup k entry (pending k entry found).1 kind
    obtain ⟨pass', walks', looked'⟩ := lookup k entry pass₀ (operationId, change) found walks looked
    exact ⟨pass', operationId, change, walks', looked'⟩
  · obtain ⟨before, callers⟩ := unsettled operationId change found
    obtain ⟨waits, apart⟩ := attended.unsettled operationId change before
    exact ⟨waits.congr callers, parted _ _ apart⟩
  · obtain ⟨pass₀, walks₀, rest, _⟩ := pass pass' walks
    exact parted _ _ (attended.rest pass₀ walks₀ entry (rest entry member))
  · obtain ⟨pass₀, walks₀, _, looks⟩ := pass pass' walks
    obtain ⟨asked₀, apart⟩ :=
      attended.asking pass₀ k operationId change walks₀ (looks _ looked)
    exact ⟨asked ▸ asked₀, parted _ _ apart⟩
  · obtain ⟨bound, client⟩ := attended.sent i request journal (sent ▸ found)
    exact ⟨Nat.lt_of_lt_of_le bound later, client⟩
  · exact Nat.lt_of_lt_of_le (attended.asked l i (asked ▸ found)) later

/-- Nothing changes that the entries and their callers are about. -/
theorem Attended.frame (attended : Attended s) (pending : s'.hearth.pending = s.hearth.pending)
    (unsettled : s'.hearth.unsettled = s.hearth.unsettled)
    (pass : s'.hearth.pass = s.hearth.pass) (callers : s'.callers = s.callers)
    (asked : s'.asked = s.asked) (later : s.nextId ≤ s'.nextId) : Attended s' := by
  refine attended.less ?_ asked later ?_ ?_ ?_ ?_
  · simp only [wire, callers]
  · intro k entry found
    exact ⟨pending ▸ found, by rw [callers]⟩
  · intro operationId change found
    exact ⟨unsettled ▸ found, by rw [callers]⟩
  · intro pass' walks
    exact ⟨pass', pass ▸ walks, fun _ member => member, fun _ looked => looked⟩
  · intro k entry pass' lookup _ walks looked
    exact ⟨pass', pass ▸ walks, looked⟩

theorem Attended.leave (attended : Attended s) (id : Nat) (sent : s'.wire.sent = s.wire.sent)
    (asked : s'.asked = s.asked) (later : s.nextId ≤ s'.nextId)
    (pass : s'.hearth.pass = s.hearth.pass)
    (others : ∀ k, k ≠ id → s'.callers k = s.callers k)
    (pending : ∀ k entry, s'.hearth.pending.get k = some entry → s.hearth.pending.get k = some entry ∧ k ≠ id)
    (unsettled : ∀ operationId change, s'.hearth.unsettled.get operationId = some change →
      s.hearth.unsettled.get operationId = some change ∧ change.caller ≠ id) : Attended s' := by
  refine attended.less sent asked later ?_ ?_ ?_ ?_
  · intro k entry found
    obtain ⟨before, other⟩ := pending k entry found
    exact ⟨before, others k other⟩
  · intro operationId change found
    obtain ⟨before, other⟩ := unsettled operationId change found
    exact ⟨before, others _ other⟩
  · intro pass' walks
    exact ⟨pass', pass ▸ walks, fun _ member => member, fun _ looked => looked⟩
  · intro k entry pass' lookup _ walks looked
    exact ⟨pass', pass ▸ walks, looked⟩

theorem resume_callers_ne {k : Nat} (other : k ≠ id) : (s.resume id answer).callers k = s.callers k := by
  simp [resume, other]

theorem Asks.unique {other : String} {journal' : ChangeJournal}
    (asks : s.Asks i operationId journal) (others : s.Asks i other journal') :
    operationId = other := by
  obtain ⟨request, found, rfl⟩ := asks
  obtain ⟨request', found', rfl⟩ := others
  rw [found] at found'
  cases found'
  rfl

variable {change : UnsettledChange}

theorem Attended.settle (attended : Attended s) (parted : s.Parted operationId change) :
    Attended (s.settle operationId change answer) := by
  have sent := congrArg Wire.sent (wire_settle s operationId change answer)
  refine attended.leave change.caller sent rfl le_rfl rfl ?_ ?_ ?_
  · intro k other
    exact resume_callers_ne other
  · intro k entry found
    refine ⟨found, ?_⟩
    rintro rfl
    change s.hearth.pending.get change.caller = some entry at found
    rw [parted.2] at found
    cases found
  intro operationId' change' found
  change (s.hearth.unsettled.delete operationId).get operationId' = some change' at found
  rw [get_delete] at found
  split at found
  · cases found
  · rename_i other
    refine ⟨found, fun same => other ?_⟩
    obtain ⟨waits, _⟩ := attended.unsettled operationId' change' found
    rw [same] at waits
    exact parted.1.unique waits.asks

variable {pass : SettlePass}

/-- A pass goes on to its next change, or ends. -/
theorem Attended.walk (attended : Attended s) {rest : List (String × UnsettledChange)}
    (walks : s.hearth.pass = some pass) (idle : pass.lookup = none)
    (fewer : ∀ entry ∈ rest, entry ∈ pass.rest) :
    Attended (s.putPass (some { pass with rest := rest })) := by
  refine attended.less rfl rfl le_rfl (fun _ _ found => ⟨found, rfl⟩) (fun _ _ found => ⟨found, rfl⟩) ?_ ?_
  · rintro pass' same
    cases same
    exact ⟨pass, walks, fewer, fun _ looked => looked⟩
  · intro k entry pass' lookup _ walks' looked
    rw [walks] at walks'
    cases walks'
    rw [idle] at looked
    cases looked

theorem Attended.looked (attended : Attended s) {operationId : String}
    (walks : s.hearth.pass = some pass) (looks : pass.lookup = some (id, operationId, change)) :
    Attended ((s.unpend id).putPass (some { pass with lookup := none })) ∧
      ((s.unpend id).putPass (some { pass with lookup := none })).Parted operationId change := by
  obtain ⟨_, asks, apart⟩ := attended.asking pass id operationId change walks looks
  refine ⟨attended.less rfl rfl le_rfl ?_ (fun _ _ found => ⟨found, rfl⟩) ?_ ?_, asks, ?_⟩
  · intro k entry found
    change (s.hearth.pending.delete id).get k = some entry at found
    rw [get_delete] at found
    split at found
    · cases found
    · exact ⟨found, rfl⟩
  · rintro pass' same
    cases same
    exact ⟨pass, walks, fun _ member => member, nofun⟩
  · intro k entry pass' lookup found walks' looked
    rw [walks] at walks'
    cases walks'
    rw [looks] at looked
    cases looked
    change (s.hearth.pending.delete id).get id = some entry at found
    simp at found
  · change (s.hearth.pending.delete id).get change.caller = none
    rw [get_delete]
    split
    · rfl
    · exact apart

theorem Attended.rejectPending (attended : Attended s) : Attended s.rejectPending := by
  have rejects := rejects_foldl s s.hearth.pending.entries
  have sent : s.rejectPending.wire.sent = s.wire.sent := congrArg Wire.sent (wire_rejectPending s)
  have asked : s.rejectPending.asked = s.asked := congrArg Wire.asked (wire_rejectPending s)
  have next : s.rejectPending.nextId = s.nextId := congrArg Wire.nextId (wire_rejectPending s)
  have empty : ∀ k, s.rejectPending.hearth.pending.get k = none := fun _ => rfl
  have parted : ∀ operationId change, s.Parted operationId change → s.rejectPending.Parted operationId change :=
    fun _ _ before => ⟨before.1.congr sent, empty _⟩
  refine
    { change := fun k _ _ found _ => absurd found (by simp [empty k])
      lookup := fun k _ found _ => absurd found (by simp [empty k])
      unsettled := fun operationId change found => ?_
      rest := fun pass walks entry member => ?_
      asking := fun pass k operationId change walks looked => ?_
      sent := fun k request journal found => ?_
      asked := fun l k found => ?_ }
  · have stays : ∀ k, s.hearth.closed = false ∨ s.hearth.pending.get k = none →
        s.rejectPending.callers k = s.callers k := by
      rintro k apart
      rcases rejects.callers k with same | ⟨shut, member, _⟩
      · exact same
      rcases apart with stands | absent
      · rw [stands] at shut
        cases shut
      · obtain ⟨entry, here, rfl⟩ := mem_map.mp member
        rw [get_eq_some.mpr here] at absent
        cases absent
    rcases rejects.unsettled operationId change found with before | ⟨entry, member, kind, stands, rfl⟩
    · obtain ⟨waits, apart⟩ := attended.unsettled operationId change before
      exact ⟨waits.congr (stays _ (.inr apart.2)), parted _ _ apart⟩
    · have waits := attended.change entry.1 entry.2 operationId (get_eq_some.mpr member) kind
      have waits' : s.rejectPending.Waits entry.1 operationId entry.2.journal :=
        waits.congr (stays _ (.inl stands))
      exact ⟨waits', waits'.asks, empty _⟩
  · exact parted _ _ (attended.rest pass (rejects.pass ▸ walks) entry member)
  · obtain ⟨here, apart⟩ := attended.asking pass k operationId change (rejects.pass ▸ walks) looked
    exact ⟨asked ▸ here, parted _ _ apart⟩
  · rw [next]
    exact attended.sent k request journal (sent ▸ found)
  · rw [next]
    exact attended.asked l k (asked ▸ found)

theorem Attended.close (attended : Attended s) : Attended s.close := by
  let hearth := s.hearth
  let shut : ControlLink := { s with hearth := { hearth with closed := true, socket := none } }
  have rejects := rejects_foldl shut shut.hearth.pending.entries
  have same : s.close.hearth.pass = s.hearth.pass :=
    (congrArg RelayConnection.pass (hearth_foldl_resumeClosed _ shut.rejectPending)).trans rejects.pass
  have pending : s.close.hearth.pending = .empty :=
    congrArg RelayConnection.pending (hearth_foldl_resumeClosed _ shut.rejectPending)
  refine attended.less (congrArg Wire.sent (wire_close s)) (congrArg Wire.asked (wire_close s))
    (congrArg Wire.nextId (wire_close s)).ge ?_ (fun _ _ found => absurd found nofun) ?_ ?_
  · intro k entry found
    rw [pending] at found
    cases found
  · intro pass walks
    exact ⟨pass, same ▸ walks, fun _ member => member, fun _ looked => looked⟩
  · intro k entry pass lookup found
    rw [pending] at found
    cases found

theorem request_cases {operation digest : String} {envelope deadline others : Nat} {given : Option ChangeJournal}
    (step : s.request operationId operation digest envelope deadline others given = some s') :
    ∃ socket sent, s.hearth.socket = some socket ∧ sent.clientId = socket.journal.clientId ∧
      (given = none ∧ sent = socket.journal ∨ given = some sent ∧ sent.journalId ≤ s.journalId) ∧
      let hearth := s.hearth
      let request : ChangeRequest :=
        ⟨⟨socket.journal.clientId, operationId⟩, operation, digest, envelope⟩
      s' = { s with
        hearth := { hearth with
          pending := hearth.pending.set s.nextId ⟨deadline, some operationId, sent, socket.session⟩ }
        callers := update s.callers s.nextId (some ⟨request, sent, .waiting⟩)
        nextId := s.nextId + 1 }.send
        socket.session (.change s.nextId request (given.map ChangeJournal.journalId)) := by
  unfold request at step
  split at step
  · cases step
  rename_i socket held
  split at step
  · cases step
  split at step
  · cases step
  rename_i client
  split at step
  · cases step
  rename_i known
  split at step
  · cases step
  cases step
  cases given with
  | none => exact ⟨socket, _, held, rfl, .inl ⟨rfl, rfl⟩, rfl⟩
  | some sent =>
    have client : sent.clientId = socket.journal.clientId := by simpa using client
    have known : sent.journalId ≤ s.journalId := by simpa using known
    exact ⟨socket, sent, held, client, .inr ⟨rfl, known⟩, rfl⟩

theorem Attended.send (attended : Attended s) (session : Nat) (frame : ControlFrame) :
    Attended (s.send session frame) := by
  apply attended.frame
  · rw [send_hearth]
  · rw [send_hearth]
  · rw [send_hearth]
  · rw [send_callers]
  · rw [send_asked]
  · rw [send_nextId]

/-- A caller that there already was keeps what it sent, as another comes. -/
theorem wire_sent_enter {caller : Caller} (fresh : i ≠ s.nextId) :
    (update s.callers s.nextId (some caller) i).map Caller.sent = s.wire.sent i := by
  simp [wire, fresh]

/-- A caller comes, with the pending request that it waits for. -/
theorem Attended.enter (attended : Attended s) {request : ChangeRequest} (entry : PendingRequest)
    (kind : entry.operationId = some request.command.operationId)
    (client : request.command.clientId = entry.journal.clientId) :
    let hearth := s.hearth
    Attended { s with
      hearth := { hearth with pending := hearth.pending.set s.nextId entry }
      callers := update s.callers s.nextId (some ⟨request, entry.journal, .waiting⟩)
      nextId := s.nextId + 1 } := by
  have old : ∀ {i op journal}, s.Asks i op journal → i ≠ s.nextId := by
    rintro i op journal ⟨request, found, _⟩
    exact Nat.ne_of_lt (attended.sent i request journal found).1
  have parted : ∀ op change, s.Parted op change → Parted (let hearth := s.hearth
       { s with
        hearth := { hearth with pending := hearth.pending.set s.nextId entry }
        callers := update s.callers s.nextId (some ⟨request, entry.journal, .waiting⟩)
        nextId := s.nextId + 1 }) op change := by
    rintro op change ⟨asks, apart⟩
    obtain ⟨request', found, same⟩ := asks
    refine ⟨⟨request', (wire_sent_enter (old ⟨request', found, same⟩)).trans found, same⟩, ?_⟩
    change (s.hearth.pending.set s.nextId entry).get change.caller = none
    rw [get_set, if_neg (old ⟨request', found, same⟩).symm]
    exact apart
  refine
    { change := fun k entry' op found kind' => ?_
      lookup := fun k entry' found kind' => ?_
      unsettled := fun op change found => ?_
      rest := fun pass walks entry' member => parted _ _ (attended.rest pass walks entry' member)
      asking := fun pass k op change walks looked => ?_
      sent := fun k request' journal found => ?_
      asked := fun l k found => Nat.lt_succ_of_lt (attended.asked l k found) }
  · simp only [get_set] at found
    split at found
    · rename_i here
      subst here
      cases found
      rw [kind] at kind'
      exact ⟨request, update_self .., Option.some.inj kind'⟩
    · rename_i other
      apply (attended.change k entry' op found kind').congr
      exact update_of_ne (Ne.symm other) ..
  · simp only [get_set] at found
    split at found
    · cases found
      rw [kind] at kind'
      cases kind'
    · exact attended.lookup k entry' found kind'
  · obtain ⟨waits, apart⟩ := attended.unsettled op change found
    refine ⟨waits.congr ?_, parted _ _ apart⟩
    exact update_of_ne (old waits.asks) ..
  · obtain ⟨here, apart⟩ := attended.asking pass k op change walks looked
    exact ⟨here, parted _ _ apart⟩
  · by_cases here : k = s.nextId
    · subst here
      simp only [wire, update_self, Option.map_some, Caller.sent, Option.some.injEq, Prod.mk.injEq] at found
      obtain ⟨rfl, rfl⟩ := found
      exact ⟨Nat.lt_succ_self _, client⟩
    · have before := (wire_sent_enter here).symm.trans found
      obtain ⟨bound, same⟩ := attended.sent k request' journal before
      exact ⟨Nat.lt_succ_of_lt bound, same⟩

theorem Attended.request (attended : Attended s) {operation digest : String}
    {envelope deadline others : Nat} {given : Option ChangeJournal}
    (step : s.request operationId operation digest envelope deadline others given = some s') :
    Attended s' := by
  obtain ⟨socket, sent, held, client, _, rfl⟩ := request_cases step
  apply Attended.send
  exact attended.enter ⟨deadline, some operationId, sent, socket.session⟩ rfl client.symm

/-- A lookup goes out for the next change of a pass. -/
theorem Attended.look (attended : Attended s) {entry : PendingRequest}
    {rest : List (String × UnsettledChange)} (walks : s.hearth.pass = some pass)
    (idle : pass.lookup = none) (left : pass.rest = (operationId, change) :: rest)
    (kind : entry.operationId = none) :
    let hearth := s.hearth
    Attended { s with
      hearth := { hearth with
        pending := hearth.pending.set s.nextId entry
        pass := some { pass with
          rest := rest
          lookup := some (s.nextId, operationId, change) } }
      asked := update s.asked s.nextId (some change.caller)
      nextId := s.nextId + 1 } := by
  have old : ∀ {i op journal}, s.Asks i op journal → s.nextId ≠ i := by
    rintro i op journal ⟨request, found, _⟩
    exact (Nat.ne_of_lt (attended.sent i request journal found).1).symm
  have parted : ∀ op change', s.Parted op change' → Parted (let hearth := s.hearth
       { s with
        hearth := { hearth with
          pending := hearth.pending.set s.nextId entry
          pass := some { pass with
            rest := rest
            lookup := some (s.nextId, operationId, change) } }
        asked := update s.asked s.nextId (some change.caller)
        nextId := s.nextId + 1 }) op change' := by
    rintro op change' ⟨asks, apart⟩
    refine ⟨asks, ?_⟩
    change (s.hearth.pending.set s.nextId entry).get change'.caller = none
    rw [get_set, if_neg (old asks)]
    exact apart
  have next := attended.rest pass walks (operationId, change) (left ▸ mem_cons_self)
  refine
    { change := fun k entry' op found kind' => ?_
      lookup := fun k entry' found kind' => ?_
      unsettled := fun op change' found => ?_
      rest := fun pass' walks' entry' member => ?_
      asking := fun pass' k op change' walks' looked => ?_
      sent := fun k request' journal found => ?_
      asked := fun l k found => ?_ }
  · simp only [get_set] at found
    split at found
    · cases found
      rw [kind] at kind'
      cases kind'
    · exact attended.change k entry' op found kind'
  · simp only [get_set] at found
    split at found
    · rename_i here
      exact ⟨_, operationId, change, rfl, by rw [here]⟩
    · obtain ⟨pass', _, _, walks', looked⟩ := attended.lookup k entry' found kind'
      rw [walks] at walks'
      cases walks'
      rw [idle] at looked
      cases looked
  · obtain ⟨waits, apart⟩ := attended.unsettled op change' found
    exact ⟨waits, parted _ _ apart⟩
  · cases walks'
    have before : entry' ∈ pass.rest := left ▸ mem_cons_of_mem _ member
    exact parted _ _ (attended.rest pass walks entry' before)
  · cases walks'
    simp only [Option.some.injEq, Prod.mk.injEq] at looked
    obtain ⟨rfl, rfl, rfl⟩ := looked
    exact ⟨update_self .., parted _ _ next⟩
  · obtain ⟨bound, same⟩ := attended.sent k request' journal found
    exact ⟨Nat.lt_succ_of_lt bound, same⟩
  · by_cases here : l = s.nextId
    · exact here ▸ Nat.lt_succ_self _
    · have before : s.asked l = some k := (update_of_ne here ..).symm.trans found
      exact Nat.lt_succ_of_lt (attended.asked l k before)

/-- What becomes of the next change of a pass: it is forgotten, it waits for the next pass, or the Relay is asked. -/
theorem ask_cases (s : ControlLink) (now : Nat) (operationId : String) (change : UnsettledChange)
    (rest : List (String × UnsettledChange)) (socket : ControlSocket) (others : Nat) :
    let asked := s.ask ⟨now, (operationId, change) :: rest, none⟩ operationId change rest socket others
    asked = (s.putPass (some ⟨now, rest, none⟩)).settle operationId change .forgotten ∨
    asked = s.putPass (some ⟨now, rest, none⟩) ∨
    (change.journal.clientId = socket.journal.clientId ∧
      let hearth := s.hearth
      asked = { s with
        hearth := { hearth with
          pending := hearth.pending.set s.nextId ⟨now, none, change.journal, socket.session⟩
          pass := some ⟨now, rest, some (s.nextId, operationId, change)⟩ }
        asked := update s.asked s.nextId (some change.caller)
        nextId := s.nextId + 1 }.send
        socket.session
        (.lookup s.nextId ⟨socket.journal.clientId, operationId⟩ change.journal.journalId)) := by
  unfold ask
  dsimp only
  split
  · exact .inl rfl
  · rename_i client
    split
    · exact .inr (.inl rfl)
    · exact .inr (.inr ⟨by simpa using client, rfl⟩)

theorem Attended.ask (attended : Attended s) {now others : Nat} {change : UnsettledChange}
    {rest : List (String × UnsettledChange)} {socket : ControlSocket}
    (walks : s.hearth.pass = some ⟨now, (operationId, change) :: rest, none⟩) :
    Attended (s.ask ⟨now, (operationId, change) :: rest, none⟩ operationId change rest socket others) := by
  have next := attended.rest _ walks (operationId, change) mem_cons_self
  have walked : Attended (s.putPass (some ⟨now, rest, none⟩)) :=
    attended.walk walks rfl fun _ member => mem_cons_of_mem _ member
  rcases s.ask_cases now operationId change rest socket others with same | same | ⟨_, same⟩
  · rw [same]
    exact walked.settle next
  · rw [same]
    exact walked
  · rw [same]
    apply Attended.send
    exact attended.look walks rfl rfl rfl

theorem answered_cases (s : ControlLink) (pass : SettlePass) (id : Nat) (operationId : String)
    (change : UnsettledChange) (message : ServerMessage) :
    s.answered pass id operationId change message = (s.unpend id).putPass (some { pass with lookup := none }) ∨
    ∃ answer, s.answered pass id operationId change message =
        ((s.unpend id).putPass (some { pass with lookup := none })).settle operationId change answer ∧
      (answer = .forgotten ∨ ∃ lookup, message = .lookup lookup ∧ settledBy lookup = some answer) := by
  unfold answered
  dsimp only
  split
  · rename_i lookup
    split
    · exact .inl rfl
    · rename_i answer settled
      exact .inr ⟨answer, rfl, .inr ⟨lookup, rfl, settled⟩⟩
  · split
    · exact .inr ⟨.forgotten, rfl, .inl rfl⟩
    · exact .inl rfl
  · exact .inl rfl

theorem journalStep_cases {e : JournalEvent} (step : s.journalStep e = some s') :
    ∃ relay, s.relay.next e = some relay ∧ (s' = { s with relay := relay } ∧ (∀ r q now, e ≠ .request r q now) ∧
        (∀ l c now, e ≠ .lookup l c now) ∧ (∀ now, e ≠ .restart now) ∨
      s' = { s with relay := relay, nextId := s.nextId + 1 } ∧
        ((∃ q now, e = .request s.nextId q now) ∨ ∃ c now, e = .lookup s.nextId c now)) := by
  cases e with
  | restart => cases step
  | request r q now =>
    simp only [journalStep] at step
    split at step
    · rename_i fresh
      subst fresh
      obtain ⟨relay, proceeds, rfl⟩ := Option.map_eq_some_iff.mp step
      exact ⟨relay, proceeds, .inr ⟨rfl, .inl ⟨q, now, rfl⟩⟩⟩
    · cases step
  | lookup l c now =>
    simp only [journalStep] at step
    split at step
    · rename_i fresh
      subst fresh
      obtain ⟨relay, proceeds, rfl⟩ := Option.map_eq_some_iff.mp step
      exact ⟨relay, proceeds, .inr ⟨rfl, .inr ⟨c, now, rfl⟩⟩⟩
    · cases step
  | _ =>
    simp only [journalStep, Option.map_eq_some_iff] at step
    obtain ⟨relay, proceeds, rfl⟩ := step
    exact ⟨relay, proceeds, .inl ⟨rfl, nofun, nofun, nofun⟩⟩

/-- A send failure is reported while its request is still pending, not once the change waits to be looked up. -/
def FailsInTime (s : ControlLink) : LinkEvent → Prop
  | .sendFailed id _ => ∀ entry ∈ s.hearth.unsettled.entries, entry.2.caller ≠ id
  | _ => True

instance (s : ControlLink) (e : LinkEvent) : Decidable (FailsInTime s e) := by
  unfold FailsInTime
  split <;> infer_instance

theorem get_pending_unpend {k : Nat} {entry : PendingRequest}
    (found : (s.hearth.pending.delete id).get k = some entry) :
    s.hearth.pending.get k = some entry ∧ k ≠ id := by
  rw [get_delete] at found
  split at found
  · cases found
  · exact ⟨found, Ne.symm ‹_›⟩

theorem Attended.abandon (attended : Attended s) {request : ChangeRequest}
    (waits : s.callers id = some ⟨request, journal, .waiting⟩)
    (sent : s'.wire.sent = s.wire.sent) (asked : s'.asked = s.asked) (later : s.nextId ≤ s'.nextId)
    (hearth : s'.hearth = (s.abandon id request.command.operationId).hearth)
    (others : ∀ k, k ≠ id → s'.callers k = s.callers k) : Attended s' := by
  have pass : s'.hearth.pass = s.hearth.pass := by
    rw [hearth]
    rfl
  refine attended.leave id sent asked later pass others ?_ ?_
  · intro k entry found
    rw [hearth] at found
    exact get_pending_unpend found
  intro operationId change found
  rw [hearth] at found
  change (s.hearth.unsettled.delete request.command.operationId).get operationId = _ at found
  rw [get_delete] at found
  split at found
  · cases found
  rename_i other
  refine ⟨found, ?_⟩
  rintro rfl
  have own : s.Asks change.caller request.command.operationId journal :=
    Waits.asks ⟨request, waits, rfl⟩
  exact other (own.unique (attended.unsettled operationId change found).1.asks)

/-- Every step keeps each entry's caller, if send failures are reported in time. -/
theorem Attended.next (attended : Attended s) (timely : FailsInTime s e) (step : s.next e = some s') : Attended s' := by
  cases stepped_of_next step with
  | connect => exact attended.frame rfl rfl rfl rfl rfl le_rfl
  | closing => exact attended.frame rfl rfl rfl rfl rfl le_rfl
  | beginSocket => exact attended.frame rfl rfl rfl rfl rfl le_rfl
  | dropped =>
    have begun : Attended (s.putSocket none) := attended.frame rfl rfl rfl rfl rfl le_rfl
    exact begun.rejectPending
  | close => exact attended.close
  | request sent => exact attended.request sent
  | @sendFailed id cause _ =>
    have sent : ∀ t : ControlLink, t.callers = s.callers → (t.resume id (.notSent cause)).wire.sent = s.wire.sent := by
      intro t same
      rw [wire_resume]
      simp only [wire, same]
    refine attended.leave id (sent _ rfl) rfl le_rfl rfl ?_ ?_ ?_
    · intro k other
      exact resume_callers_ne other
    · intro k entry found
      exact get_pending_unpend found
    · intro operationId change found
      exact ⟨found, timely (operationId, change) (get_eq_some.mp found)⟩
  | @receive id pending reply awaited change answered =>
    have sent := congrArg Wire.sent (wire_resume (s.unpend id) id (.ofReply reply))
    refine attended.leave id sent rfl le_rfl rfl ?_ ?_ ?_
    · intro k other
      exact resume_callers_ne other
    · intro k entry found
      exact get_pending_unpend found
    · intro operationId change found
      refine ⟨found, ?_⟩
      rintro rfl
      rw [(attended.unsettled operationId change found).2.2] at awaited
      cases awaited
  | @timeout id request journal waits =>
    have sent := congrArg Wire.sent (wire_resume (s.abandon id request.command.operationId) id .timedOut)
    refine attended.abandon waits sent rfl le_rfl rfl fun k other => ?_
    exact resume_callers_ne other
  | @interrupt id request journal waits =>
    refine attended.abandon waits ?_ rfl le_rfl rfl fun k other => ?_
    · funext k
      by_cases here : k = id
      · subst here
        simp [wire, waits, Caller.sent]
      · simp [wire, here, ControlLink.abandon]
    · exact update_of_ne other ..
  | pass idle =>
    refine
      { change := attended.change
        lookup := fun k entry found kind => ?_
        unsettled := attended.unsettled
        rest := fun pass walks entry member => ?_
        asking := fun pass k op change walks looked => ?_
        sent := attended.sent
        asked := attended.asked }
    · obtain ⟨pass, _, _, walks, _⟩ := attended.lookup k entry found kind
      rw [idle] at walks
      cases walks
    · cases walks
      exact (attended.unsettled entry.1 entry.2 (get_eq_some.mpr member)).2
    · cases walks
      cases looked
  | @overdue now operationId change rest walks =>
    have walked : Attended (s.putPass (some ⟨now, rest, none⟩)) :=
      attended.walk walks rfl fun _ member => mem_cons_of_mem _ member
    exact walked.settle (attended.rest _ walks (operationId, change) mem_cons_self)
  | ask walks held => exact attended.ask walks
  | skip walks => exact attended.walk walks rfl fun _ member => mem_cons_of_mem _ member
  | @receiveLookup now rest id operationId change message walks answered =>
    obtain ⟨ended, parted⟩ := attended.looked walks rfl
    rcases s.answered_cases ⟨now, rest, none⟩ id operationId change message with
      same | ⟨answer, same, _⟩
    · rw [same]
      exact ended
    · rw [same]
      exact ended.settle parted
  | lookupFailed walks => exact (attended.looked walks rfl).1
  | rest walks =>
    refine attended.less rfl rfl le_rfl (fun _ _ found => ⟨found, rfl⟩) (fun _ _ found => ⟨found, rfl⟩) nofun ?_
    intro k entry pass lookup _ walks' looked
    rw [walks] at walks'
    cases walks'
    cases looked
  | journal stepped =>
    obtain ⟨relay, _, ⟨rfl, _⟩ | ⟨rfl, _⟩⟩ := journalStep_cases stepped
    · exact attended.frame rfl rfl rfl rfl rfl le_rfl
    · exact attended.frame rfl rfl rfl rfl rfl (Nat.le_succ _)
  | turnAway => exact attended.frame rfl rfl rfl rfl rfl le_rfl
  | read => exact attended.frame rfl rfl rfl rfl rfl le_rfl
  | refuse => exact attended.frame rfl rfl rfl rfl rfl le_rfl
  | proceed => exact attended.frame rfl rfl rfl rfl rfl le_rfl
  | send => exact attended.frame rfl rfl rfl rfl rfl le_rfl
  | hangUp => exact attended.frame rfl rfl rfl rfl rfl le_rfl
  | restart => exact attended.frame rfl rfl rfl rfl rfl le_rfl
  | rebuild => exact attended.frame rfl rfl rfl rfl rfl le_rfl

/-! ## What a caller is told -/

end ControlLink

/-- An answer that doesn't say how the change went. -/
def RequestAnswer.outcomeUnknown : RequestAnswer → Bool
  | forgotten | restarted | dropped | closed | timedOut => true
  | _ => false

namespace ControlLink

variable {s s' : ControlLink} {e : LinkEvent} {i id : Nat} {answer : RequestAnswer}

/-- Where what a step tells a caller comes from. -/
inductive Tells (s : ControlLink) (e : LinkEvent) (i : Nat) : RequestAnswer → Prop
  | unknown {answer : RequestAnswer} (unknown : answer.outcomeUnknown = true) : Tells s e i answer
  | notSent {cause : String} (failed : e = .sendFailed i cause) : Tells s e i (.notSent cause)
  | reply {reply : Reply} (answered : s.replies i = some (.reply reply)) : Tells s e i (.ofReply reply)
  | lookup {l : Nat} {lookup : OperationLookup} {answer : RequestAnswer} (asked : s.asked l = some i)
      (answered : s.replies l = some (.lookup lookup)) (settled : settledBy lookup = some answer) :
      Tells s e i answer

/-- What becomes of a caller in a step. -/
inductive Turns (s : ControlLink) (e : LinkEvent) (i : Nat) (s' : ControlLink) : Prop
  | stays (same : s'.callers i = s.callers i)
  | comes {request journal} (fresh : i = s.nextId) (here : s'.callers i = some ⟨request, journal, .waiting⟩)
  | interrupted {request journal} (waits : s.callers i = some ⟨request, journal, .waiting⟩)
      (gone : s'.callers i = some ⟨request, journal, .interrupted⟩)
  | told {request journal answer} (waits : s.callers i = some ⟨request, journal, .waiting⟩)
      (here : s'.callers i = some ⟨request, journal, .told answer⟩) (tells : Tells s e i answer)

variable {t : ControlLink}

theorem turns_of_resume (callers : t.callers = s.callers) (tells : Tells s e id answer) (i : Nat) :
    Turns s e i (t.resume id answer) := by
  rcases callers_resume t id answer i with same | ⟨request, journal, rfl, waits, told⟩
  · exact .stays (same.trans (congrFun callers i))
  · exact .told (callers ▸ waits) told tells

theorem turns_of_settle {operationId : String} {change : UnsettledChange}
    (callers : t.callers = s.callers) (tells : Tells s e change.caller answer) (i : Nat) :
    Turns s e i (t.settle operationId change answer) := by
  unfold settle
  apply turns_of_resume
  · exact callers
  · exact tells

theorem turns_of_closed (outcome : t.callers i = s.callers i ∨
    ∃ request journal, s.callers i = some ⟨request, journal, .waiting⟩ ∧
      t.callers i = some ⟨request, journal, .told .closed⟩) : Turns s e i t := by
  rcases outcome with same | ⟨request, journal, waits, told⟩
  · exact .stays same
  · exact .told waits told (.unknown rfl)

/-- A step leaves a caller, brings it, interrupts it, or tells it something. -/
theorem turns_of_next (attended : Attended s) (step : s.next e = some s') (i : Nat) :
    Turns s e i s' := by
  cases stepped_of_next step with
  | dropped =>
    apply turns_of_closed
    rcases (rejects_foldl (s.putSocket none) _).callers i with same | ⟨_, _, told⟩
    · exact .inl same
    · exact .inr told
  | close =>
    let hearth := s.hearth
    let shut : ControlLink := { s with hearth := { hearth with closed := true, socket := none } }
    apply turns_of_closed
    rcases callers_foldl_resumeClosed shut.rejectPending.hearth.unsettled.entries
      shut.rejectPending i with same | ⟨request, journal, waits, told⟩
    · rcases (rejects_foldl shut shut.hearth.pending.entries).callers i with
        unchanged | ⟨_, _, request, journal, waits, told⟩
      · exact .inl (same.trans unchanged)
      · exact .inr ⟨request, journal, waits, same.trans told⟩
    · rcases (rejects_foldl shut shut.hearth.pending.entries).callers i with
        unchanged | ⟨_, _, _, _, _, told'⟩
      · exact .inr ⟨request, journal, unchanged.symm.trans waits, told⟩
      · have again : some _ = some _ := told'.symm.trans waits
        simp at again
  | request sent =>
    obtain ⟨socket, sent, _, _, _, rfl⟩ := request_cases sent
    by_cases fresh : i = s.nextId
    · subst fresh
      exact .comes rfl ((congrFun (send_callers ..) _).trans (update_self ..))
    · exact .stays ((congrFun (send_callers ..) i).trans (update_of_ne fresh ..))
  | sendFailed =>
    apply turns_of_resume
    · rfl
    · exact .notSent rfl
  | receive _ _ answered =>
    apply turns_of_resume
    · rfl
    · exact .reply answered
  | timeout =>
    apply turns_of_resume
    · rfl
    · exact .unknown rfl
  | @interrupt id request journal waits =>
    by_cases here : i = id
    · subst here
      exact .interrupted waits (update_self ..)
    · exact .stays (update_of_ne here ..)
  | overdue =>
    apply turns_of_settle
    · rfl
    · exact .unknown rfl
  | @ask others now operationId change rest socket walks _ =>
    rcases s.ask_cases now operationId change rest socket others with same | same | ⟨_, same⟩
    · rw [same]
      apply turns_of_settle
      · rfl
      · exact .unknown rfl
    · rw [same]
      exact .stays rfl
    · rw [same]
      exact .stays (congrFun (send_callers ..) i)
  | @receiveLookup now rest id operationId change message walks answered =>
    rcases s.answered_cases ⟨now, rest, none⟩ id operationId change message with
      same | ⟨answer, same, rfl | ⟨lookup, rfl, settled⟩⟩
    · rw [same]
      exact .stays rfl
    · rw [same]
      apply turns_of_settle
      · rfl
      · exact .unknown rfl
    · rw [same]
      obtain ⟨asked, _⟩ := attended.asking _ id operationId change walks rfl
      apply turns_of_settle
      · rfl
      · exact .lookup asked answered settled
  | journal stepped =>
    obtain ⟨relay, _, ⟨rfl, _⟩ | ⟨rfl, _⟩⟩ := journalStep_cases stepped
    · exact .stays rfl
    · exact .stays rfl
  | _ => exact .stays rfl

end ControlLink

end Kiln.Hearth
