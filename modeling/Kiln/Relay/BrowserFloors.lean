import Kiln.Relay.BrowserSessions

/-!
# The floors under browser sessions hold

In every run of a Relay, no v2 session or transfer is active below a floor or an issuer
generation the Relay has taken in. A floor is dropped a retention after it came, from SQLite and
from memory, and a capability issued before that lasts no longer than a lease: what is admitted
once the floor is gone was issued after it came.
-/

namespace Kiln.Relay
open Kiln.Lib OrderedMap List Nat

/-- A session or a transfer with this authority is active. -/
def BrowserSessionRegistry.Active (registry : BrowserSessionRegistry) (authority : BrowserSessionAuthority) : Prop :=
  (∃ socket session, registry.established.get socket = some session ∧ session.active = true ∧
    session.authority = authority) ∨
  ∃ id transfer, registry.transfers.get id = some transfer ∧ transfer.active = true ∧ transfer.authority = authority

namespace ReceivedFloor

/-- The floor is one an authority is held to. -/
def AppliesTo (floor : ReceivedFloor) (authority : BrowserSessionAuthority) : Prop :=
  floor.issuer = authority.issuer ∧ floor.item.subject = authority.subject ∧ floor.item.scope ∈ authority.scopes

/-- A retention is over since the floor came. -/
def Lapsed (floor : ReceivedFloor) (now : Nat) : Prop :=
  floor.receivedAt + browserAuthorizationFloorRetentionMs ≤ now

def key (floor : ReceivedFloor) : String :=
  floorKey floor.issuer floor.item.subject floor.item.scope

def id (floor : ReceivedFloor) : FloorId :=
  ⟨floor.issuer, floor.item.subject, floor.item.scope⟩

/-- The registry holds what it is told of to this floor, until it lapses. -/
def HeldBy (floor : ReceivedFloor) (registry : BrowserSessionRegistry) (now : Nat) : Prop :=
  floor.Lapsed now ∨ ∃ kept, registry.floorState.get floor.key = some kept ∧
    floor.item.minimumRevision ≤ kept.minimumRevision ∧ floor.receivedAt ≤ kept.receivedAt

/-- The tables hold what is read from them to this floor, until it lapses. -/
def StoredIn (floor : ReceivedFloor) (tables : BrowserTables) (now : Nat) : Prop :=
  floor.Lapsed now ∨ ∃ row, tables.floors.get floor.id = some row ∧
    floor.item.minimumRevision ≤ row.minimumRevision ∧ floor.receivedAt ≤ row.updatedAt

variable {floor : ReceivedFloor} {now : Nat}

theorem Lapsed.later {later : Nat} (lapsed : floor.Lapsed now) (after : now ≤ later) :
    floor.Lapsed later :=
  le_trans lapsed after

theorem HeldBy.later {registry : BrowserSessionRegistry} {later : Nat}
    (held : floor.HeldBy registry now) (after : now ≤ later) : floor.HeldBy registry later :=
  held.imp_left (·.later after)

theorem StoredIn.later {tables : BrowserTables} {later : Nat} (stored : floor.StoredIn tables now)
    (after : now ≤ later) : floor.StoredIn tables later :=
  stored.imp_left (·.later after)

end ReceivedFloor

/-! ## What the registry does to its floors -/

namespace BrowserSessionRegistry

variable {registry : BrowserSessionRegistry}

theorem le_foldl_max_start {α : Type} (value : α → Nat) (items : List α) (start : Nat) :
    start ≤ items.foldl (fun highest item => max highest (value item)) start := by
  induction items generalizing start with
  | nil => exact le_refl _
  | cons first rest ih => exact le_trans (le_max_left _ _) (ih _)

/-- A maximum that is folded over a list is at least what each of it gives. -/
theorem le_foldl_max {α : Type} (value : α → Nat) {items : List α} {item : α} (start : Nat) (member : item ∈ items) :
    value item ≤ items.foldl (fun highest item => max highest (value item)) start := by
  induction items generalizing start with
  | nil => cases member
  | cons first rest ih =>
    rcases mem_cons.mp member with rfl | later
    · exact le_trans (le_max_right _ _) (le_foldl_max_start value rest _)
    · exact ih _ later

variable {authority : BrowserSessionAuthority} {floor : ReceivedFloor}

/-- What passes the floors an authority is held to is at least each of them that is held. -/
theorem le_floorOf {kept : FloorState} (applies : floor.AppliesTo authority)
    (known : registry.floorState.get floor.key = some kept) :
    kept.minimumRevision ≤ registry.floorOf authority := by
  obtain ⟨issuer, subject, scope⟩ := applies
  have each := le_foldl_max (fun scope => ((registry.floorState.get
    (floorKey authority.issuer authority.subject scope)).map (·.minimumRevision)).getD 0) 0 scope
  rw [ReceivedFloor.key, issuer, subject] at known
  simp only [known, Option.map_some, Option.getD_some] at each
  exact each

/-- What a step of the registry, at a time, leaves in place: the floors it holds, the generations it knows, and that
what is active was so before. -/
structure Keeps (before after : BrowserSessionRegistry) (now : Nat) : Prop where
  floors : ∀ floor : ReceivedFloor, floor.HeldBy before now → floor.HeldBy after now
  generations : ∀ issuer, before.generation issuer ≤ after.generation issuer
  active : ∀ authority, after.Active authority → before.Active authority

theorem Keeps.refl (registry : BrowserSessionRegistry) (now : Nat) : Keeps registry registry now :=
  ⟨fun _ held => held, fun _ => le_refl _, fun _ active => active⟩

variable {now : Nat}

theorem Keeps.trans {a b c : BrowserSessionRegistry} (first : Keeps a b now)
    (second : Keeps b c now) : Keeps a c now where
  floors floor held := second.floors floor (first.floors floor held)
  generations issuer := le_trans (first.generations issuer) (second.generations issuer)
  active authority active := first.active authority (second.active authority active)

/-- A step that leaves the floors and the generations, and makes nothing active. -/
theorem Keeps.of_eq {before after : BrowserSessionRegistry} (floors : after.floorState = before.floorState)
    (generations : after.issuerGenerations = before.issuerGenerations)
    (active : ∀ authority, after.Active authority → before.Active authority) :
    Keeps before after now where
  floors floor held := by
    unfold ReceivedFloor.HeldBy
    rw [floors]
    exact held
  generations issuer := by
    have same : after.generation issuer = before.generation issuer := by
      unfold generation
      rw [generations]
    exact le_of_eq same.symm
  active := active

/-! ### Steps that make nothing active -/

theorem acquirePending_keeps (registry : BrowserSessionRegistry) (limits : BrowserLimits)
    (socket : Nat) (peerIp : String) (enforceIp : Bool) (now : Nat) :
    Keeps registry (registry.acquirePending limits socket peerIp enforceIp).1 now := by
  unfold acquirePending
  dsimp only
  split
  · exact .refl _ _
  · split
    · exact .refl _ _
    · exact .of_eq rfl rfl fun _ active => active

theorem releasePending_keeps (registry : BrowserSessionRegistry) (socket now : Nat) :
    Keeps registry (registry.releasePending socket) now := by
  unfold releasePending
  split
  · exact .refl _ _
  · exact .refl _ _
  · exact .of_eq rfl rfl fun _ active => active

theorem release_keeps (registry : BrowserSessionRegistry) (socket now : Nat) :
    Keeps registry (registry.release socket) now := by
  refine (releasePending_keeps registry socket now).trans ?_
  refine .of_eq rfl rfl ?_
  rintro authority (⟨other, session, found, active, same⟩ | transfer)
  · simp only [release, get_delete] at found
    split at found
    · cases found
    · exact .inl ⟨other, session, found, active, same⟩
  · exact .inr transfer

theorem deactivate_keeps (registry : BrowserSessionRegistry) (socket now : Nat) :
    Keeps registry (registry.deactivate socket) now := by
  unfold deactivate
  split
  · exact .refl _ _
  refine .of_eq rfl rfl ?_
  rintro authority (⟨other, session, found, active, same⟩ | transfer)
  · simp only [get_set] at found
    split at found
    · cases found
      cases active
    · exact .inl ⟨other, session, found, active, same⟩
  · exact .inr transfer

theorem pruneFloors_keeps (registry : BrowserSessionRegistry) (now : Nat) :
    Keeps registry (registry.pruneFloors now) now := by
  unfold pruneFloors
  split
  · exact .refl _ _
  refine ⟨?_, fun _ => le_refl _, fun _ active => active⟩
  rintro floor (lapsed | ⟨kept, known, high, late⟩)
  · exact .inl lapsed
  by_cases fresh : now < kept.receivedAt + browserAuthorizationFloorRetentionMs
  · refine Or.inr ⟨kept, ?_, high, late⟩
    simp [known, fresh]
  · left
    unfold ReceivedFloor.Lapsed
    omega

theorem raiseGeneration_keeps (registry : BrowserSessionRegistry) (issuer : String)
    (told now : Nat) : Keeps registry (registry.raiseGeneration issuer told) now := by
  refine ⟨fun _ held => held, ?_, fun _ active => active⟩
  intro other
  by_cases same : issuer = other
  · subst same
    simp only [raiseGeneration, generation, get_set, if_true, Option.getD_some]
    exact le_max_left _ _
  · simp [raiseGeneration, generation, same]

theorem le_generation_of_raised (registry : BrowserSessionRegistry) (issuer : String)
    (told : Nat) : told ≤ (registry.raiseGeneration issuer told).generation issuer := by
  simp only [raiseGeneration, generation, get_set, if_true, Option.getD_some]
  exact le_max_right _ _

theorem minimumRevision_keeps (registry : BrowserSessionRegistry) (authority : BrowserSessionAuthority) (now : Nat) :
    Keeps registry (registry.minimumRevision authority now).2 now :=
  pruneFloors_keeps registry now

theorem authorityIsCurrent_keeps (registry : BrowserSessionRegistry) (authority : BrowserSessionAuthority) (now : Nat) :
    Keeps registry (registry.authorityIsCurrent authority now).2 now := by
  unfold authorityIsCurrent
  split
  · exact .refl _ _
  · split
    · exact .refl _ _
    · exact minimumRevision_keeps registry authority now

theorem isActive_keeps (registry : BrowserSessionRegistry) (socket : Nat) (requiredAction : Option String) (now : Nat) :
    Keeps registry (registry.isActive socket requiredAction now).2 now := by
  unfold isActive
  split
  · exact .refl _ _
  split
  · exact .refl _ _
  · split
    · exact deactivate_keeps registry socket now
    · split
      · exact .refl _ _
      · exact .refl _ _

theorem transferActive_keeps (registry : BrowserSessionRegistry) (id now : Nat) :
    Keeps registry (registry.transferActive id now).2 now := by
  unfold transferActive
  split
  · exact .refl _ _
  · split
    · exact authorityIsCurrent_keeps registry _ now
    · exact .refl _ _

theorem releaseTransfer_keeps (registry : BrowserSessionRegistry) (id now : Nat) :
    Keeps registry (registry.releaseTransfer id) now := by
  refine .of_eq rfl rfl ?_
  rintro authority (session | ⟨other, transfer, found, active, same⟩)
  · exact .inl session
  · simp only [releaseTransfer, get_delete] at found
    split at found
    · cases found
    · exact .inr ⟨other, transfer, found, active, same⟩

/-- What is active once sessions were changed, none to active, and transfers dropped. -/
theorem active_of_narrowed {after : BrowserSessionRegistry} {authority : BrowserSessionAuthority}
    (keep : BrowserSessionAuthority → Bool)
    (sessions : after.established = registry.established.mapValues fun _ session =>
      if keep session.authority then session else { session with active := false })
    (transfers : after.transfers = registry.transfers.filter fun _ transfer =>
      keep transfer.authority)
    (active : after.Active authority) : registry.Active authority ∧ keep authority = true := by
  rcases active with ⟨socket, session, found, active, rfl⟩ | ⟨id, transfer, found, active, rfl⟩
  · rw [sessions, get_mapValues, Option.map_eq_some_iff] at found
    obtain ⟨before, present, rfl⟩ := found
    by_cases kept : keep before.authority = true
    · simp only [kept, if_true] at active ⊢
      exact ⟨.inl ⟨socket, before, present, active, rfl⟩, trivial⟩
    · simp [kept] at active
  · rw [transfers, get_filter, Option.filter_eq_some_iff] at found
    exact ⟨.inr ⟨id, transfer, found.1, active, rfl⟩, found.2⟩

theorem revokeIssuer_keeps (registry : BrowserSessionRegistry) (issuer : String) (now : Nat) :
    Keeps registry (registry.revokeIssuer issuer) now := by
  refine .of_eq rfl rfl fun authority active => ?_
  refine (active_of_narrowed (fun authority => authority.issuer ≠ issuer) ?_ ?_ active).1
  · simp only [revokeIssuer, ne_eq, decide_not, Bool.not_eq_eq_eq_not, Bool.not_true, decide_eq_false_iff_not, ite_not]
  · rfl

/-! ### Steps that make an authority active -/

/-- A v2 authority, read with the floors of then, passed every check of its admission. -/
structure Passed (after : BrowserSessionRegistry) (authority : BrowserSessionAuthority)
    (current : BrowserAuthority) (now : Nat) : Prop where
  unexpired : now < authority.expiresAt
  read : authority.issuerGeneration = current.issuerGeneration
  told : authority.issuerGeneration = after.generation authority.issuer
  stored : current.minimumRevision ≤ authority.revision
  held : after.floorOf authority ≤ authority.revision

/-- What a step of the registry leaves in place that may make one authority active. -/
structure Admits (before after : BrowserSessionRegistry) (authority : BrowserSessionAuthority)
    (current : BrowserAuthority) (now : Nat) : Prop where
  floors : ∀ floor : ReceivedFloor, floor.HeldBy before now → floor.HeldBy after now
  generations : ∀ issuer, before.generation issuer ≤ after.generation issuer
  active : ∀ other, after.Active other → before.Active other ∨
    (other = authority ∧ (authority.version = .v2 → after.Passed authority current now))

theorem Keeps.admits {before after : BrowserSessionRegistry} {now : Nat}
    (kept : Keeps before after now) (authority : BrowserSessionAuthority)
    (current : BrowserAuthority) : Admits before after authority current now :=
  ⟨kept.floors, kept.generations, fun other active => Or.inl (kept.active other active)⟩

variable {current : BrowserAuthority}

theorem Keeps.then_admits {before middle after : BrowserSessionRegistry}
    (kept : Keeps before middle now) (admits : Admits middle after authority current now) :
    Admits before after authority current now where
  floors floor held := admits.floors floor (kept.floors floor held)
  generations issuer := le_trans (kept.generations issuer) (admits.generations issuer)
  active other active := (admits.active other active).imp_left (kept.active other)

theorem admits_session (registry : BrowserSessionRegistry) (socket : Nat) (session : ActiveSession)
    (current : BrowserAuthority) (now : Nat)
    (passed : session.authority.version = .v2 → registry.Passed session.authority current now) :
    Admits registry { registry with established := registry.established.set socket session }
      session.authority current now := by
  refine ⟨fun _ held => held, fun _ => le_refl _, ?_⟩
  rintro other (⟨place, found, present, active, rfl⟩ | transfer)
  · simp only [get_set] at present
    split at present
    · cases present
      exact .inr ⟨rfl, fun v2 => ⟨(passed v2).unexpired, (passed v2).read, (passed v2).told,
        (passed v2).stored, (passed v2).held⟩⟩
    · exact .inl (.inl ⟨place, found, present, active, rfl⟩)
  · exact .inl (.inr transfer)

theorem refuses_keeps (registry : BrowserSessionRegistry) (authority : BrowserSessionAuthority)
    (current : BrowserAuthority) (now : Nat) :
    Keeps registry (registry.refuses authority current now).2 now := by
  unfold refuses
  split
  · exact .refl _ _
  · split
    · exact .refl _ _
    · split
      · exact .refl _ _
      · exact minimumRevision_keeps registry authority now

@[simp] theorem pruneFloors_generation (registry : BrowserSessionRegistry) (now : Nat)
    (issuer : String) : (registry.pruneFloors now).generation issuer = registry.generation issuer := by
  unfold pruneFloors
  split <;> rfl

theorem passed_of_not_refused {authority : BrowserSessionAuthority} {current : BrowserAuthority}
    {now : Nat} (accepted : (registry.refuses authority current now).1 = false)
    (v2 : authority.version = .v2) :
    (registry.refuses authority current now).2.Passed authority current now := by
  unfold refuses at accepted ⊢
  split at accepted
  · cases accepted
  rename_i unexpired
  rw [if_neg unexpired]
  simp only [v2, ne_eq, not_true_eq_false, if_false] at accepted ⊢
  split at accepted
  · cases accepted
  rename_i passes
  rw [if_neg passes]
  simp only [Bool.or_eq_true, decide_eq_true_eq, not_or, not_not, Nat.not_lt] at passes
  obtain ⟨⟨read, told⟩, stored⟩ := passes
  have held := of_decide_eq_false accepted
  exact ⟨by omega, read, by simpa [minimumRevision] using told, stored, Nat.le_of_not_lt held⟩

theorem release_passed (socket : Nat) (passed : registry.Passed authority current now) :
    (registry.release socket).Passed authority current now := by
  have floors : (registry.releasePending socket).floorState = registry.floorState := by
    unfold releasePending
    split <;> rfl
  have generations : (registry.releasePending socket).issuerGenerations = registry.issuerGenerations := by
    unfold releasePending
    split <;> rfl
  have floorOf : (registry.release socket).floorOf authority = registry.floorOf authority := by
    simp only [BrowserSessionRegistry.floorOf, release, floors]
  have generation : (registry.release socket).generation authority.issuer = registry.generation authority.issuer := by
    simp only [BrowserSessionRegistry.generation, release, generations]
  exact ⟨passed.unexpired, passed.read, generation ▸ passed.told, passed.stored, floorOf ▸ passed.held⟩

theorem activate_admits (registry : BrowserSessionRegistry) (limits : BrowserLimits) (socket : Nat)
    (isOpen : Bool) (authority : BrowserSessionAuthority) (sessionId : String)
    (current : BrowserAuthority) (renewal : Option (String × Nat)) (now : Nat) :
    Admits registry (registry.activate limits socket isOpen authority sessionId current renewal
      now).1 authority current now := by
  unfold activate
  split
  · exact (Keeps.refl _ _).admits _ _
  have released := (releasePending_keeps registry socket now).trans
    (raiseGeneration_keeps _ authority.issuer current.issuerGeneration now)
  refine released.then_admits ?_
  dsimp only
  generalize ((registry.releasePending socket).raiseGeneration authority.issuer current.issuerGeneration) = told
  refine (refuses_keeps told authority current now).then_admits ?_
  by_cases refused : (told.refuses authority current now).1 = true
  · rw [if_pos refused]
    exact (Keeps.refl _ _).admits _ _
  rw [if_neg refused]
  rw [Bool.not_eq_true] at refused
  have passed := @passed_of_not_refused told _ _ _ refused
  generalize (told.refuses authority current now).2 = checked at passed ⊢
  generalize Option.map Prod.fst (find? _ _) = replaced
  cases replaced with
  | none =>
    dsimp only
    split
    · exact (Keeps.refl _ _).admits _ _
    · exact admits_session _ socket _ current now passed
  | some candidate =>
    dsimp only
    refine (release_keeps checked candidate now).then_admits ?_
    split
    · exact (Keeps.refl _ _).admits _ _
    · exact admits_session _ socket _ current now fun v2 => release_passed candidate (passed v2)

theorem renew_admits (registry : BrowserSessionRegistry) (socket : Nat) (isOpen : Bool)
    (authority : BrowserSessionAuthority) (current : BrowserAuthority) (nonce : String)
    (nonceExpiresAt now : Nat) (read : authority.issuerGeneration = current.issuerGeneration)
    (stored : current.minimumRevision ≤ authority.revision) :
    Admits registry (registry.renew socket isOpen authority nonce nonceExpiresAt now).1
      authority current now := by
  unfold renew
  split
  · exact (Keeps.refl _ _).admits _ _
  rename_i session present
  split
  · exact (Keeps.refl _ _).admits _ _
  rename_i passes
  simp only [Bool.or_eq_true, Bool.not_eq_true', decide_eq_true_eq, not_or, not_not] at passes
  obtain ⟨⟨⟨⟨_, unexpired⟩, _⟩, _⟩, told⟩ := passes
  refine (minimumRevision_keeps registry authority now).then_admits ?_
  dsimp only
  split
  · exact (Keeps.refl _ _).admits _ _
  · rename_i held
    refine admits_session _ socket _ current now fun _ => ?_
    exact ⟨Nat.lt_of_not_le unexpired, read, by simpa [minimumRevision] using told, stored, Nat.le_of_not_lt held⟩

theorem passed_of_current {transfers : OrderedMap Nat Transfer} (unexpired : now < authority.expiresAt)
    (passes : ((registry.authorityIsCurrent authority now).1 && (authority.version = .v1 ||
      authority.issuerGeneration = current.issuerGeneration &&
        current.minimumRevision ≤ authority.revision)) = true) (v2 : authority.version = .v2) :
    { (registry.authorityIsCurrent authority now).2 with transfers := transfers }.Passed authority
      current now := by
  simp only [v2, Bool.and_eq_true, Bool.or_eq_true, decide_eq_true_eq, reduceCtorEq, false_or] at passes
  obtain ⟨isCurrent, read, stored⟩ := passes
  unfold authorityIsCurrent at isCurrent ⊢
  simp only [v2, ne_eq, not_true_eq_false, if_false] at isCurrent ⊢
  split at isCurrent
  · cases isCurrent
  · rename_i told
    rw [if_neg told]
    have held := of_decide_eq_true isCurrent
    refine ⟨unexpired, read, ?_, stored, held⟩
    exact (not_not.mp told).trans (pruneFloors_generation registry now _).symm

theorem registerTransfer_admits (registry : BrowserSessionRegistry) (id : Nat)
    (authority : BrowserSessionAuthority) (current : BrowserAuthority) (now : Nat) :
    Admits registry (registry.registerTransfer id authority current now) authority current now := by
  unfold registerTransfer
  refine (raiseGeneration_keeps registry authority.issuer current.issuerGeneration now).then_admits ?_
  generalize registry.raiseGeneration authority.issuer current.issuerGeneration = told
  dsimp only
  split
  · exact (Keeps.refl _ _).admits _ _
  rename_i unexpired
  refine (authorityIsCurrent_keeps told authority now).then_admits ?_
  split
  · rename_i passes
    refine ⟨fun _ held => held, fun _ => le_refl _, ?_⟩
    rintro other (session | ⟨place, transfer, present, active, rfl⟩)
    · exact .inl (.inl session)
    simp only [get_set] at present
    split at present
    · cases present
      refine Or.inr ⟨rfl, fun v2 => ?_⟩
      have unexpired : now < authority.expiresAt := by omega
      exact passed_of_current unexpired passes v2
    · exact .inl (.inr ⟨place, transfer, present, active, rfl⟩)
  · exact (Keeps.refl _ _).admits _ _

/-! ### A revision -/

/-- Floors in memory hold a key to at least this revision, from at least this time. -/
def Holds (floorState : OrderedMap String FloorState) (key : String) (minimum since : Nat) : Prop :=
  ∃ kept, floorState.get key = some kept ∧ minimum ≤ kept.minimumRevision ∧ since ≤ kept.receivedAt

variable {issuer : String} {item : AuthorizationRevision}

theorem noteFloor_holds {minimum since : Nat} {floorState : OrderedMap String FloorState}
    {key : String} (holds : Holds floorState key minimum since) (past : since ≤ now) :
    Holds (noteFloor issuer now floorState item) key minimum since := by
  obtain ⟨kept, known, high, late⟩ := holds
  unfold noteFloor Holds
  by_cases same : floorKey issuer item.subject item.scope = key
  · simp only [same, known]
    split
    · refine ⟨⟨item.minimumRevision, now⟩, by simp, ?_, past⟩
      exact le_trans high (le_of_lt ‹_›)
    · exact ⟨{ kept with receivedAt := now }, by simp, high, past⟩
  · dsimp only
    split
    · exact ⟨kept, by simp [same, known], high, late⟩
    · split
      · exact ⟨kept, by simp [same, known], high, late⟩
      · exact ⟨kept, by simp [same, known], high, late⟩

theorem noteFloor_holds_item (issuer : String) (now : Nat)
    (floorState : OrderedMap String FloorState) (item : AuthorizationRevision) :
    Holds (noteFloor issuer now floorState item) (floorKey issuer item.subject item.scope)
      item.minimumRevision now := by
  unfold noteFloor Holds
  dsimp only
  split
  · exact ⟨⟨item.minimumRevision, now⟩, by simp, Nat.le_refl _, Nat.le_refl _⟩
  · rename_i kept known
    split
    · exact ⟨⟨item.minimumRevision, now⟩, by simp, Nat.le_refl _, Nat.le_refl _⟩
    · exact ⟨{ kept with receivedAt := now }, by simp, Nat.le_of_not_lt ‹_›, Nat.le_refl _⟩

theorem foldl_noteFloor_holds {minimum since : Nat} {key : String}
    (items : List AuthorizationRevision) {floorState : OrderedMap String FloorState}
    (holds : Holds floorState key minimum since) (past : since ≤ now) :
    Holds (items.foldl (noteFloor issuer now) floorState) key minimum since := by
  induction items generalizing floorState with
  | nil => exact holds
  | cons item rest ih => exact ih (noteFloor_holds holds past)

variable {items : List AuthorizationRevision}

theorem foldl_noteFloor_holds_item (issuer : String) (now : Nat)
    (floorState : OrderedMap String FloorState) (member : item ∈ items) :
    Holds (items.foldl (noteFloor issuer now) floorState)
      (floorKey issuer item.subject item.scope) item.minimumRevision now := by
  induction items generalizing floorState with
  | nil => cases member
  | cons first rest ih =>
    rcases mem_cons.mp member with rfl | later
    · exact foldl_noteFloor_holds rest (noteFloor_holds_item issuer now floorState item) (le_refl _)
    · exact ih _ later

variable {issuerGeneration : Nat}

theorem revise_floors (held : floor.HeldBy registry now) (past : floor.receivedAt ≤ now) :
    floor.HeldBy (registry.revise issuer items issuerGeneration now) now := by
  rcases (pruneFloors_keeps registry now).floors floor held with lapsed | kept
  · exact .inl lapsed
  · exact .inr (foldl_noteFloor_holds items kept past)

theorem revise_holds_item (sender : floor.issuer = issuer) (member : item ∈ items)
    (subject : item.subject = floor.item.subject) (scope : item.scope = floor.item.scope)
    (high : floor.item.minimumRevision ≤ item.minimumRevision) (past : floor.receivedAt ≤ now) :
    Holds (registry.revise issuer items issuerGeneration now).floorState floor.key
      floor.item.minimumRevision floor.receivedAt := by
  obtain ⟨kept, known, higher, later⟩ := foldl_noteFloor_holds_item issuer now
    ((registry.pruneFloors now).raiseGeneration issuer issuerGeneration).floorState member
  refine ⟨kept, ?_, le_trans high higher, le_trans past later⟩
  rw [ReceivedFloor.key, sender, ← subject, ← scope]
  exact known

theorem revise_generations (registry : BrowserSessionRegistry) (issuer : String)
    (items : List AuthorizationRevision) (issuerGeneration now : Nat) (other : String) :
    registry.generation other ≤ (registry.revise issuer items issuerGeneration now).generation other :=
  ((pruneFloors_keeps registry now).trans (raiseGeneration_keeps _ issuer issuerGeneration now)).generations other

theorem le_generation_of_revised (registry : BrowserSessionRegistry) (issuer : String)
    (items : List AuthorizationRevision) (issuerGeneration now : Nat) :
    issuerGeneration ≤ (registry.revise issuer items issuerGeneration now).generation issuer :=
  le_generation_of_raised (registry.pruneFloors now) issuer issuerGeneration

theorem revise_active (active : (registry.revise issuer items issuerGeneration now).Active authority) :
    registry.Active authority ∧ (authority.version = .v2 → authority.issuerGeneration =
        (registry.revise issuer items issuerGeneration now).generation authority.issuer ∧
      (registry.revise issuer items issuerGeneration now).floorOf authority ≤ authority.revision) := by
  have told := (pruneFloors_keeps registry now).trans (raiseGeneration_keeps _ issuer issuerGeneration now)
  obtain ⟨before, kept⟩ := @active_of_narrowed ((registry.pruneFloors now).raiseGeneration issuer issuerGeneration) _ _
    (registry.revise issuer items issuerGeneration now).keeps rfl rfl active
  refine ⟨told.active authority before, fun v2 => ?_⟩
  simpa [keeps, v2] using kept

end BrowserSessionRegistry

/-! ## What a revision does to the tables -/

namespace BrowserTables

/-- Floors in SQLite hold an ID to at least this revision, from at least this time. -/
def Holds (floors : OrderedMap FloorId FloorRow) (id : FloorId) (minimum since : Nat) : Prop :=
  ∃ row, floors.get id = some row ∧ minimum ≤ row.minimumRevision ∧ since ≤ row.updatedAt

theorem get_upsert (issuer : String) (now : Nat) (floors : OrderedMap FloorId FloorRow) (item : AuthorizationRevision) :
    ∃ row, (upsert issuer now floors item).get ⟨issuer, item.subject, item.scope⟩ = some row ∧
      item.minimumRevision ≤ row.minimumRevision ∧ row.updatedAt = now := by
  unfold upsert
  dsimp only
  split
  · exact ⟨⟨item.minimumRevision, now⟩, by simp, le_refl _, rfl⟩
  · rename_i row _
    exact ⟨⟨max row.minimumRevision item.minimumRevision, now⟩, by simp, le_max_right _ _, rfl⟩

variable {issuer : String} {now : Nat}

theorem upsert_holds {minimum since : Nat} {floors : OrderedMap FloorId FloorRow}
    {item : AuthorizationRevision} {id : FloorId} (holds : Holds floors id minimum since)
    (past : since ≤ now) :
    Holds (upsert issuer now floors item) id minimum since := by
  obtain ⟨row, known, high, late⟩ := holds
  unfold upsert Holds
  by_cases same : (⟨issuer, item.subject, item.scope⟩ : FloorId) = id
  · simp only [same, known]
    exact ⟨⟨max row.minimumRevision item.minimumRevision, now⟩, by simp, le_trans high (le_max_left _ _), past⟩
  · dsimp only
    split
    · exact ⟨row, by simp [same, known], high, late⟩
    · exact ⟨row, by simp [same, known], high, late⟩

theorem upserts_holds {minimum since : Nat} {id : FloorId} (items : List AuthorizationRevision)
    {floors : OrderedMap FloorId FloorRow} (holds : Holds floors id minimum since)
    (past : since ≤ now) :
    Holds (upserts issuer now items floors).1 id minimum since := by
  induction items generalizing floors with
  | nil => exact holds
  | cons item rest ih => exact ih (upsert_holds holds past)

variable {items : List AuthorizationRevision}

theorem upserts_item {item : AuthorizationRevision} (floors : OrderedMap FloorId FloorRow) (member : item ∈ items) :
    ∃ persisted ∈ (upserts issuer now items floors).2, persisted.subject = item.subject ∧
      persisted.scope = item.scope ∧ item.minimumRevision ≤ persisted.minimumRevision := by
  induction items generalizing floors with
  | nil => cases member
  | cons first rest ih =>
    rcases mem_cons.mp member with rfl | later
    · obtain ⟨row, known, high, _⟩ := get_upsert issuer now floors item
      refine ⟨_, mem_cons_self, rfl, rfl, ?_⟩
      simpa only [known, Option.map_some, Option.getD_some] using high
    · obtain ⟨persisted, found, same⟩ := ih (upsert issuer now floors first) later
      exact ⟨persisted, mem_cons_of_mem _ found, same⟩

/-- Each floor that is returned is held. -/
theorem upserts_persisted {persisted : AuthorizationRevision} (floors : OrderedMap FloorId FloorRow)
    (member : persisted ∈ (upserts issuer now items floors).2) :
    Holds (upserts issuer now items floors).1 ⟨issuer, persisted.subject, persisted.scope⟩
      persisted.minimumRevision now := by
  induction items generalizing floors with
  | nil => exact absurd member (by simp [upserts])
  | cons first rest ih =>
    rcases mem_cons.mp member with rfl | later
    · obtain ⟨row, known, _, fresh⟩ := get_upsert issuer now floors first
      refine upserts_holds rest ⟨row, known, ?_, le_of_eq fresh.symm⟩ (le_refl _)
      simp [known]
    · exact ih _ later

variable {tables : BrowserTables}

/-- A revision of the tables holds the floors they held, until they lapse. -/
theorem revise_stores {minimumIssuerGeneration : Option Nat} {floor : ReceivedFloor}
    (stored : floor.StoredIn tables now) (past : floor.receivedAt ≤ now) :
    floor.StoredIn (tables.reviseBrowserAuthorization issuer items minimumIssuerGeneration now).1
      now := by
  rcases stored with lapsed | ⟨row, known, high, late⟩
  · exact .inl lapsed
  by_cases fresh : now < row.updatedAt + browserAuthorizationFloorRetentionMs
  · refine Or.inr (upserts_holds items ⟨row, ?_, high, late⟩ past)
    simp [known, fresh]
  · left
    unfold ReceivedFloor.Lapsed
    omega

theorem revise_persisted {issuer : String} {items : List AuthorizationRevision}
    {minimumIssuerGeneration : Option Nat} {now : Nat} {item : AuthorizationRevision}
    (sent : item ∈ items) :
    ∃ persisted ∈ (tables.reviseBrowserAuthorization issuer items minimumIssuerGeneration now).2.1,
      persisted.subject = item.subject ∧ persisted.scope = item.scope ∧
        item.minimumRevision ≤ persisted.minimumRevision :=
  upserts_item _ sent

/-- What a revision was sent or returned is no higher than something it returned. -/
theorem mem_persisted {issuer : String} {items : List AuthorizationRevision} {m : Option Nat}
    {now : Nat} {item : AuthorizationRevision}
    (member : item ∈ items ++ (tables.reviseBrowserAuthorization issuer items m now).2.1) :
    ∃ persisted ∈ (tables.reviseBrowserAuthorization issuer items m now).2.1,
      persisted.subject = item.subject ∧ persisted.scope = item.scope ∧
        item.minimumRevision ≤ persisted.minimumRevision := by
  rcases mem_append.mp member with sent | returned
  · exact revise_persisted sent
  · exact ⟨item, returned, rfl, rfl, le_refl _⟩

theorem revise_stores_persisted {minimumIssuerGeneration : Option Nat} {floor : ReceivedFloor}
    (sender : floor.issuer = issuer) (past : floor.receivedAt ≤ now)
    (returned : ∃ persisted ∈ (tables.reviseBrowserAuthorization issuer items minimumIssuerGeneration now).2.1,
      persisted.subject = floor.item.subject ∧ persisted.scope = floor.item.scope ∧
        floor.item.minimumRevision ≤ persisted.minimumRevision) :
    floor.StoredIn (tables.reviseBrowserAuthorization issuer items minimumIssuerGeneration now).1
      now := by
  obtain ⟨persisted, member, subject, scope, high⟩ := returned
  obtain ⟨row, known, higher, later⟩ := upserts_persisted _ member
  refine Or.inr ⟨row, ?_, le_trans high higher, le_trans past later⟩
  rw [ReceivedFloor.id, sender, ← subject, ← scope]
  exact known

theorem revise_generation_rises (tables : BrowserTables) (issuer : String)
    (items : List AuthorizationRevision) (minimumIssuerGeneration : Option Nat) (now : Nat)
    (other : String) :
    tables.generation other ≤ (tables.reviseBrowserAuthorization issuer items minimumIssuerGeneration now).1.generation
        other := by
  unfold reviseBrowserAuthorization generation
  dsimp only
  cases minimumIssuerGeneration with
  | none => exact le_refl _
  | some told =>
    by_cases same : issuer = other
    · subst same
      simp only [get_set, if_true, Option.getD_some]
      exact le_max_left _ _
    · simp [same]

theorem revise_generation (tables : BrowserTables) (issuer : String)
    (items : List AuthorizationRevision) (minimumIssuerGeneration : Option Nat) (now : Nat) :
    (tables.reviseBrowserAuthorization issuer items minimumIssuerGeneration now).2.2 =
      (tables.reviseBrowserAuthorization issuer items minimumIssuerGeneration now).1.generation
        issuer := rfl

/-- The scopes of a capability's authority are those its floors are read of. -/
theorem scope_of_capability {capability : RelayBrowserCapabilityV2} {scope : AuthorizationScope}
    (member : scope ∈ (authorityFromCapability capability).scopes) :
    scope = .subjectRelay ∨ (capability.kind = .instance' ∧ scope = .instance' capability.instanceId) ∨
      scope = .loginSession capability.loginSessionId := by
  simp only [BrowserSessionAuthority.scopes, mem_append, mem_singleton] at member
  rcases member with (subject | server) | login
  · exact .inl subject
  · split at server
    · exact .inr (.inl ⟨‹_›, mem_singleton.mp server⟩)
    · cases server
  · simp only [authorityFromCapability] at login
    split at login
    · cases login
    · exact .inr (.inr (mem_singleton.mp login))

theorem le_browserAuthority {floor : ReceivedFloor} {capability : RelayBrowserCapabilityV2}
    (purpose : BrowserPurpose) {row : FloorRow}
    (applies : floor.AppliesTo (authorityFromCapability capability))
    (known : tables.floors.get floor.id = some row) :
    row.minimumRevision ≤ (tables.browserAuthority (BrowserRelay.scopeId capability purpose)
      capability.issuer capability.loginSessionId capability.subject).minimumRevision := by
  obtain ⟨issuer, subject, member⟩ := applies
  have value : tables.floor ⟨capability.issuer, capability.subject, floor.item.scope⟩ = row.minimumRevision := by
    rw [ReceivedFloor.id, issuer, subject] at known
    simp only [authorityFromCapability] at known
    simp only [BrowserTables.floor, known, Option.map_some, Option.getD_some]
  rw [← value]
  unfold browserAuthority
  rcases scope_of_capability member with scope | ⟨kind, scope⟩ | scope
  · rw [scope]
    exact le_max_left _ _
  · have scopeId : BrowserRelay.scopeId capability purpose = some capability.instanceId := by
      cases purpose <;> simp [BrowserRelay.scopeId, kind]
    rw [scope, scopeId]
    exact le_trans (le_max_left _ _) (le_max_right _ _)
  · rw [scope]
    exact le_trans (le_max_right _ _) (le_max_right _ _)

end BrowserTables

/-! ## The floors along a run -/

/-- A floor and an authority above it, or one admitted when the floor was gone. -/
def Above (authority : BrowserSessionAuthority) (floor : ReceivedFloor) (now : Nat) : Prop :=
  floor.item.minimumRevision ≤ authority.revision ∨ (floor.Lapsed now ∧
      floor.receivedAt + browserAuthorizationFloorRetentionMs < authority.expiresAt)

theorem Above.later {authority : BrowserSessionAuthority} {floor : ReceivedFloor} {now later : Nat}
    (above : Above authority floor now) (after : now ≤ later) : Above authority floor later :=
  above.imp_right fun gone => ⟨gone.1.later after, gone.2⟩

namespace BrowserRelay

/-- The floors of what is in flight. -/
def pendingFloors (relay : BrowserRelay) : List ReceivedFloor :=
  relay.inFlight.flatMap RevisionInFlight.floors

/-- What was read for an admission is no lower than what was received, or the registry knows. -/
structure Vetted (relay : BrowserRelay) (admission : BrowserAdmission) : Prop where
  generations : ∀ generation, (admission.authority.issuer, generation) ∈ relay.generations →
    generation ≤ admission.current.issuerGeneration ∨ generation ≤ relay.registry.generation admission.authority.issuer
  floors : ∀ floor ∈ relay.received, floor.AppliesTo admission.authority →
    floor.item.minimumRevision ≤ admission.current.minimumRevision ∨ floor.HeldBy relay.registry relay.now

/-- An authority that is neither below a generation nor a floor that was received. -/
structure Unbypassed (relay : BrowserRelay) (authority : BrowserSessionAuthority) : Prop where
  generations : ∀ generation, (authority.issuer, generation) ∈ relay.generations →
    generation ≤ authority.issuerGeneration
  floors : ∀ floor ∈ relay.received, floor.AppliesTo authority → Above authority floor relay.now

/-- What holds of a Relay in every run. -/
structure FloorsHold (relay : BrowserRelay) : Prop where
  past : ∀ floor ∈ relay.received ++ relay.pendingFloors, floor.receivedAt ≤ relay.now
  stored : ∀ floor ∈ relay.received ++ relay.pendingFloors, floor.StoredIn relay.tables relay.now
  generationsStored : ∀ issuer generation, (issuer, generation) ∈ relay.generations →
    generation ≤ relay.tables.generation issuer
  generationsPending : ∀ revision ∈ relay.inFlight, revision.issuerGeneration ≤ relay.tables.generation revision.issuer
  persisted : ∀ revision ∈ relay.inFlight, ∀ item ∈ revision.sent ++ revision.persisted,
    ∃ persisted ∈ revision.persisted, persisted.subject = item.subject ∧
      persisted.scope = item.scope ∧ item.minimumRevision ≤ persisted.minimumRevision
  vetted : ∀ n admission, relay.admissions n = some admission →
    admission.authority.version = .v2 → relay.Vetted admission
  unbypassed : ∀ authority, relay.registry.Active authority → authority.version = .v2 → relay.Unbypassed authority

variable {relay : BrowserRelay}

/-- Time that passes changes nothing. -/
theorem FloorsHold.later (holds : relay.FloorsHold) {later : Nat} (after : relay.now ≤ later) :
    { relay with now := later }.FloorsHold where
  past floor member := le_trans (holds.past floor member) after
  stored floor member := (holds.stored floor member).later after
  generationsStored := holds.generationsStored
  generationsPending := holds.generationsPending
  persisted := holds.persisted
  vetted n admission found v2 :=
    ⟨(holds.vetted n admission found v2).generations, fun floor member applies =>
      ((holds.vetted n admission found v2).floors floor member applies).imp_right (·.later after)⟩
  unbypassed authority active v2 :=
    ⟨(holds.unbypassed authority active v2).generations, fun floor member applies =>
      Above.later ((holds.unbypassed authority active v2).floors floor member applies) after⟩

/-- What was vetted stays so as the registry keeps what it knows. -/
theorem Vetted.registry {admission : BrowserAdmission} (vetted : relay.Vetted admission)
    {registry : BrowserSessionRegistry}
    (floors : ∀ floor : ReceivedFloor, floor.HeldBy relay.registry relay.now → floor.HeldBy registry relay.now)
    (generations : ∀ issuer, relay.registry.generation issuer ≤ registry.generation issuer) :
    { relay with registry := registry }.Vetted admission where
  generations generation member :=
    (vetted.generations generation member).imp_right fun known =>
      le_trans known (generations _)
  floors floor member applies := (vetted.floors floor member applies).imp_right (floors floor)

/-- An authority that passed every check, with what was vetted for it, is not bypassed. -/
theorem Vetted.unbypassed {admission : BrowserAdmission} {registry : BrowserSessionRegistry}
    (vetted : { relay with registry := registry }.Vetted admission)
    (passed : registry.Passed admission.authority admission.current relay.now) :
    relay.Unbypassed admission.authority where
  generations generation member := by
    rcases vetted.generations generation member with read | told
    · rw [passed.read]
      exact read
    · rw [passed.told]
      exact told
  floors floor member applies := by
    rcases vetted.floors floor member applies with stored | lapsed | ⟨kept, known, high, _⟩
    · exact .inl (le_trans stored passed.stored)
    · refine Or.inr ⟨lapsed, ?_⟩
      exact lt_of_le_of_lt lapsed passed.unexpired
    left
    calc floor.item.minimumRevision
      _ ≤ kept.minimumRevision := high
      _ ≤ registry.floorOf admission.authority :=
        BrowserSessionRegistry.le_floorOf applies known
      _ ≤ admission.authority.revision := passed.held

/-- A step of the registry that makes nothing active. -/
theorem FloorsHold.keeps (holds : relay.FloorsHold) {registry : BrowserSessionRegistry}
    (kept : relay.registry.Keeps registry relay.now) :
    { relay with registry := registry }.FloorsHold where
  past := holds.past
  stored := holds.stored
  generationsStored := holds.generationsStored
  generationsPending := holds.generationsPending
  persisted := holds.persisted
  vetted n admission found v2 :=
    (holds.vetted n admission found v2).registry kept.floors kept.generations
  unbypassed authority active v2 := by
    have before := holds.unbypassed authority (kept.active authority active) v2
    exact ⟨before.generations, before.floors⟩

/-- A step of the registry that may make an admission's authority active. -/
theorem FloorsHold.admits (holds : relay.FloorsHold) {registry : BrowserSessionRegistry} {n : Nat}
    {admission : BrowserAdmission} (found : relay.admissions n = some admission)
    (admits : relay.registry.Admits registry admission.authority admission.current relay.now) :
    { relay with
      admissions := Function.update relay.admissions n none
      registry := registry }.FloorsHold where
  past := holds.past
  stored := holds.stored
  generationsStored := holds.generationsStored
  generationsPending := holds.generationsPending
  persisted := holds.persisted
  vetted other left present v2 := by
    have before : relay.admissions other = some left := by
      by_cases same : other = n
      · subst same
        simp at present
      · simpa [Function.update, same] using present
    have vetted := (holds.vetted other left before v2).registry admits.floors admits.generations
    exact ⟨vetted.generations, vetted.floors⟩
  unbypassed authority active v2 := by
    rcases admits.active authority active with already | ⟨rfl, passes⟩
    · have before := holds.unbypassed authority already v2
      exact ⟨before.generations, before.floors⟩
    · have unbypassed := ((holds.vetted n admission found v2).registry admits.floors
        admits.generations).unbypassed (passes v2)
      exact ⟨unbypassed.generations, unbypassed.floors⟩

theorem FloorsHold.read (holds : relay.FloorsHold) (n : Nat)
    (capability : RelayBrowserCapabilityV2) (purpose : BrowserPurpose) :
    (relay.admitBrowser n (authorityFromCapability capability)
      (relay.tables.browserAuthority (scopeId capability purpose) capability.issuer
        capability.loginSessionId capability.subject)).FloorsHold where
  past := holds.past
  stored := holds.stored
  generationsStored := holds.generationsStored
  generationsPending := holds.generationsPending
  persisted := holds.persisted
  vetted other admission present v2 := by
    by_cases same : other = n
    · subst same
      simp only [admitBrowser, Function.update_self, Option.some.injEq] at present
      subst present
      refine ⟨?_, ?_⟩
      · intro generation member
        exact .inl (holds.generationsStored _ _ member)
      · intro floor member applies
        rcases holds.stored floor (mem_append_left _ member) with lapsed | stored
        · exact .inr (.inl lapsed)
        · obtain ⟨row, known, high, _⟩ := stored
          exact .inl (le_trans high (BrowserTables.le_browserAuthority purpose applies known))
    · have before : relay.admissions other = some admission := by
        simpa [admitBrowser, Function.update, same] using present
      have vetted := holds.vetted other admission before v2
      exact ⟨vetted.generations, vetted.floors⟩
  unbypassed authority active v2 := by
    have before := holds.unbypassed authority active v2
    exact ⟨before.generations, before.floors⟩

theorem FloorsHold.readV1 (holds : relay.FloorsHold) (n : Nat)
    {authority : BrowserSessionAuthority} (v1 : authority.version = .v1) :
    (relay.admitBrowser n authority ⟨0, 0⟩).FloorsHold where
  past := holds.past
  stored := holds.stored
  generationsStored := holds.generationsStored
  generationsPending := holds.generationsPending
  persisted := holds.persisted
  vetted other admission present v2 := by
    by_cases same : other = n
    · subst same
      simp only [admitBrowser, Function.update_self, Option.some.injEq] at present
      subst present
      rw [v1] at v2
      cases v2
    · have before : relay.admissions other = some admission := by
        simpa [admitBrowser, Function.update, same] using present
      have vetted := holds.vetted other admission before v2
      exact ⟨vetted.generations, vetted.floors⟩
  unbypassed other active v2 := by
    have before := holds.unbypassed other active v2
    exact ⟨before.generations, before.floors⟩

theorem FloorsHold.commit (holds : relay.FloorsHold) (issuer : String)
    (items : List AuthorizationRevision) (minimumIssuerGeneration : Option Nat) :
    { relay with
      tables := (relay.tables.reviseBrowserAuthorization issuer items minimumIssuerGeneration
        relay.now).1 }.FloorsHold where
  past := holds.past
  stored floor member :=
    BrowserTables.revise_stores (holds.stored floor member) (holds.past floor member)
  generationsStored other generation member :=
    le_trans (holds.generationsStored other generation member) (BrowserTables.revise_generation_rises ..)
  generationsPending revision member :=
    le_trans (holds.generationsPending revision member) (BrowserTables.revise_generation_rises ..)
  persisted := holds.persisted
  vetted n admission found v2 := by
    have vetted := holds.vetted n admission found v2
    exact ⟨vetted.generations, vetted.floors⟩
  unbypassed authority active v2 := by
    have before := holds.unbypassed authority active v2
    exact ⟨before.generations, before.floors⟩

theorem FloorsHold.await (holds : relay.FloorsHold) (revision : RevisionInFlight)
    (past : revision.committedAt ≤ relay.now)
    (stored : ∀ floor ∈ revision.floors, floor.StoredIn relay.tables relay.now)
    (generation : revision.issuerGeneration ≤ relay.tables.generation revision.issuer)
    (persisted : ∀ item ∈ revision.sent ++ revision.persisted,
      ∃ persisted ∈ revision.persisted, persisted.subject = item.subject ∧
        persisted.scope = item.scope ∧ item.minimumRevision ≤ persisted.minimumRevision) :
    { relay with inFlight := relay.inFlight ++ [revision] }.FloorsHold := by
  have pending : { relay with inFlight := relay.inFlight ++ [revision] }.pendingFloors =
      relay.pendingFloors ++ revision.floors := by
    simp [pendingFloors]
  have inFlight : ∀ other ∈ relay.inFlight ++ [revision], other ∈ relay.inFlight ∨
      other = revision := fun other member => by
    simpa using member
  refine
    { past := ?_
      stored := ?_
      generationsStored := holds.generationsStored
      generationsPending := ?_
      persisted := ?_
      vetted := ?_
      unbypassed := ?_ }
  · intro floor member
    rw [pending, ← append_assoc, mem_append] at member
    rcases member with before | added
    · exact holds.past floor before
    · obtain ⟨item, _, rfl⟩ := mem_map.mp added
      exact past
  · intro floor member
    rw [pending, ← append_assoc, mem_append] at member
    rcases member with before | added
    · exact holds.stored floor before
    · exact stored floor added
  · intro other member
    rcases inFlight other member with before | rfl
    · exact holds.generationsPending other before
    · exact generation
  · intro other member
    rcases inFlight other member with before | rfl
    · exact holds.persisted other before
    · exact persisted
  · intro n admission found v2
    have vetted := holds.vetted n admission found v2
    exact ⟨vetted.generations, vetted.floors⟩
  · intro authority active v2
    have before := holds.unbypassed authority active v2
    exact ⟨before.generations, before.floors⟩

theorem mem_takeIn_floors {revisions left : List RevisionInFlight}
    (taken : ∀ revision ∈ revisions, revision ∈ relay.inFlight)
    (rest : ∀ revision ∈ left, revision ∈ relay.inFlight) :
    ∀ floor ∈ (relay.takeIn revisions).received ++ left.flatMap RevisionInFlight.floors,
      floor ∈ relay.received ++ relay.pendingFloors := by
  intro floor member
  have waits : ∀ revision ∈ relay.inFlight, floor ∈ revision.floors →
      floor ∈ relay.received ++ relay.pendingFloors := fun revision present among =>
    mem_append_right _ (mem_flatMap.mpr ⟨revision, present, among⟩)
  rw [takeIn, mem_append, mem_append, mem_flatMap, mem_flatMap] at member
  rcases member with (before | ⟨revision, present, among⟩) | ⟨revision, present, among⟩
  · exact mem_append_left _ before
  · exact waits revision (taken revision present) among
  · exact waits revision (rest revision present) among

theorem mem_takeIn_generations {revisions : List RevisionInFlight} {issuer : String}
    {generation : Nat} (member : (issuer, generation) ∈ (relay.takeIn revisions).generations) :
    (issuer, generation) ∈ relay.generations ∨ ∃ revision ∈ revisions,
      revision.issuer = issuer ∧ revision.issuerGeneration = generation := by
  simpa [takeIn] using member

theorem FloorsHold.takeIn_generationsStored (holds : relay.FloorsHold) {revisions : List RevisionInFlight}
    (taken : ∀ revision ∈ revisions, revision ∈ relay.inFlight) (issuer : String)
    (generation : Nat) (member : (issuer, generation) ∈ (relay.takeIn revisions).generations) :
    generation ≤ relay.tables.generation issuer := by
  rcases mem_takeIn_generations member with before | ⟨revision, present, rfl, rfl⟩
  · exact holds.generationsStored issuer generation before
  · exact holds.generationsPending revision (taken revision present)

/-- The registry is told of a revision. -/
theorem FloorsHold.revise (holds : relay.FloorsHold) {revision : RevisionInFlight} (waits : revision ∈ relay.inFlight) :
    { relay.takeIn [revision] with
      inFlight := relay.inFlight.erase revision
      registry := relay.registry.revise revision.issuer revision.persisted
        revision.issuerGeneration relay.now }.FloorsHold := by
  have taken : ∀ other ∈ [revision], other ∈ relay.inFlight := by
    intro other member
    exact mem_singleton.mp member ▸ waits
  have rest : ∀ other ∈ relay.inFlight.erase revision, other ∈ relay.inFlight := by
    intro other member
    exact mem_of_mem_erase member
  have floors := mem_takeIn_floors taken rest
  -- A generation or a floor that comes with the revision is known to the registry afterwards.
  have generations : ∀ issuer generation, (issuer, generation) ∈ (relay.takeIn [revision]).generations →
      (issuer, generation) ∈ relay.generations ∨ generation ≤ (relay.registry.revise revision.issuer revision.persisted
          revision.issuerGeneration relay.now).generation issuer := by
    intro issuer generation member
    rcases mem_takeIn_generations member with before | ⟨other, present, rfl, rfl⟩
    · exact .inl before
    · obtain rfl := mem_singleton.mp present
      exact .inr (BrowserSessionRegistry.le_generation_of_revised ..)
  have received : ∀ floor ∈ (relay.takeIn [revision]).received, floor ∈ relay.received ∨
      BrowserSessionRegistry.Holds (relay.registry.revise revision.issuer revision.persisted
        revision.issuerGeneration relay.now).floorState floor.key floor.item.minimumRevision
        floor.receivedAt := by
    intro floor member
    have past := holds.past floor (floors floor (mem_append_left _ member))
    simp only [takeIn, mem_append, flatMap_singleton] at member
    rcases member with before | added
    · exact .inl before
    · obtain ⟨item, among, rfl⟩ := mem_map.mp added
      obtain ⟨persisted, kept, subject, scope, high⟩ :=
        holds.persisted revision waits item among
      exact .inr (BrowserSessionRegistry.revise_holds_item rfl kept subject scope high past)
  refine
    { past := fun floor member => holds.past floor (floors floor member)
      stored := fun floor member => holds.stored floor (floors floor member)
      generationsStored := fun issuer generation member =>
        holds.takeIn_generationsStored taken issuer generation member
      generationsPending := fun other member => holds.generationsPending other (rest other member)
      persisted := fun other member => holds.persisted other (rest other member)
      vetted := ?_
      unbypassed := ?_ }
  · intro n admission found v2
    have vetted := holds.vetted n admission found v2
    refine ⟨fun generation member => ?_, fun floor member applies => ?_⟩
    · rcases generations _ generation member with before | told
      · exact (vetted.generations generation before).imp_right fun known =>
          le_trans known (BrowserSessionRegistry.revise_generations ..)
      · exact .inr told
    · rcases received floor member with before | told
      · exact (vetted.floors floor before applies).imp_right fun held =>
          BrowserSessionRegistry.revise_floors held (holds.past floor (mem_append_left _ before))
      · exact .inr (.inr told)
  · intro authority active v2
    obtain ⟨already, passes⟩ := BrowserSessionRegistry.revise_active active
    obtain ⟨generation, held⟩ := passes v2
    have unbypassed := holds.unbypassed authority already v2
    refine ⟨fun told member => ?_, fun floor member applies => ?_⟩
    · rcases generations _ told member with before | known
      · exact unbypassed.generations told before
      · rw [generation]
        exact known
    · rcases received floor member with before | ⟨kept, known, high, _⟩
      · exact unbypassed.floors floor before applies
      · left
        calc floor.item.minimumRevision
          _ ≤ kept.minimumRevision := high
          _ ≤ _ := BrowserSessionRegistry.le_floorOf applies known
          _ ≤ authority.revision := held

theorem FloorsHold.restart (holds : relay.FloorsHold) :
    { relay.takeIn relay.inFlight with
      inFlight := []
      registry := {}
      admissions := fun _ => none }.FloorsHold := by
  have floors := @mem_takeIn_floors relay relay.inFlight [] (fun _ member => member) (by simp)
  refine
    { past := fun floor member => holds.past floor (floors floor member)
      stored := fun floor member => holds.stored floor (floors floor member)
      generationsStored := fun issuer generation member =>
        holds.takeIn_generationsStored (fun _ waits => waits) issuer generation member
      generationsPending := fun revision member => absurd member (by simp)
      persisted := fun revision member => absurd member (by simp)
      vetted := fun n admission found => absurd found (by simp)
      unbypassed := ?_ }
  rintro authority (⟨socket, session, found, _⟩ | ⟨id, transfer, found, _⟩)
  · cases found
  · cases found

theorem floorsHold_init (limits : BrowserLimits) : ({ limits := limits } : BrowserRelay).FloorsHold where
  past floor member := absurd member (by simp [pendingFloors])
  stored floor member := absurd member (by simp [pendingFloors])
  generationsStored issuer generation member := absurd member (by simp)
  generationsPending revision member := absurd member (by simp)
  persisted revision member := absurd member (by simp)
  vetted n admission found := absurd found (by simp)
  unbypassed authority active := by
    rcases active with ⟨socket, session, found, _⟩ | ⟨id, transfer, found, _⟩
    · cases found
    · cases found

theorem floorsHold_act (holds : relay.FloorsHold) {action : BrowserAction} {after : BrowserRelay}
    (step : relay.act action = some after) : after.FloorsHold := by
  cases action with
  | acquirePending socket peerIp enforceIp =>
    cases step
    exact holds.keeps (BrowserSessionRegistry.acquirePending_keeps ..)
  | read n capability purpose =>
    simp only [act] at step
    split at step
    · cases step
      exact holds.read n capability purpose
    · cases step
  | readV1 n authority =>
    simp only [act] at step
    split at step
    · rename_i checks
      cases step
      exact holds.readV1 n checks.2
    · cases step
  | activate n socket isOpen sessionId renewal =>
    simp only [act] at step
    split at step
    · cases step
    · rename_i admission found
      split at step
      · cases step
        exact holds.admits found (BrowserSessionRegistry.activate_admits ..)
      · cases step
  | renew n socket isOpen nonce nonceExpiresAt =>
    simp only [act] at step
    split at step
    · cases step
    rename_i admission found
    split at step
    · rename_i checks
      cases step
      exact holds.admits found (BrowserSessionRegistry.renew_admits _ _ _ _ _ _ _ _ checks.2.1 checks.2.2)
    · cases step
  | registerTransfer n id =>
    simp only [act] at step
    split at step
    · cases step
    · rename_i admission found
      split at step
      · cases step
        exact holds.admits found (BrowserSessionRegistry.registerTransfer_admits ..)
      · cases step
  | commit issuer items minimumIssuerGeneration =>
    cases step
    have returned := fun item => @BrowserTables.mem_persisted relay.tables issuer items
      minimumIssuerGeneration relay.now item
    refine (holds.commit issuer items minimumIssuerGeneration).await _ (le_refl _) ?_
      (le_of_eq (BrowserTables.revise_generation ..)) returned
    intro floor member
    obtain ⟨item, among, rfl⟩ := mem_map.mp member
    exact BrowserTables.revise_stores_persisted rfl (le_refl _) (returned item among)
  | revise revision =>
    simp only [act] at step
    split at step
    · rename_i waits
      cases step
      exact holds.revise waits
    · cases step
  | connected issuer =>
    cases step
    exact holds.commit issuer [] none
  | isActive socket requiredAction =>
    cases step
    exact holds.keeps (BrowserSessionRegistry.isActive_keeps ..)
  | transferActive id =>
    cases step
    exact holds.keeps (BrowserSessionRegistry.transferActive_keeps ..)
  | expire socket =>
    simp only [act] at step
    split at step
    · cases step
    · split at step
      · cases step
        exact holds.keeps (BrowserSessionRegistry.deactivate_keeps ..)
      · cases step
  | revokeIssuer issuer =>
    cases step
    exact holds.keeps (BrowserSessionRegistry.revokeIssuer_keeps ..)
  | release socket =>
    cases step
    exact holds.keeps (BrowserSessionRegistry.release_keeps ..)
  | releaseTransfer id =>
    cases step
    exact holds.keeps (BrowserSessionRegistry.releaseTransfer_keeps ..)
  | restart =>
    cases step
    exact holds.restart

theorem floorsHold_of_reachable {limits : BrowserLimits}
    (reachable : (system limits).Reachable relay) : relay.FloorsHold := by
  refine System.Reachable.invariant (I := FloorsHold) ?_ ?_ reachable
  · rintro _ rfl
    exact floorsHold_init limits
  · rintro before ⟨now, action⟩ after holds step
    simp only [system, System.ofFunction_step, next] at step
    split at step
    · exact floorsHold_act (holds.later ‹_›) step
    · cases step

/-- No v2 session or transfer of a browser is ever active below an issuer generation or a floor the
    Relay has taken in, unless its capability was issued after the floor came and is used when the
    floor is gone: a capability issued before, as far as the clocks may differ, is never let in
    below it. -/
theorem floors_never_bypassed {limits : BrowserLimits}
    (reachable : (system limits).Reachable relay) {authority : BrowserSessionAuthority}
    (active : relay.registry.Active authority) (v2 : authority.version = .v2) :
    (∀ generation, (authority.issuer, generation) ∈ relay.generations →
      generation ≤ authority.issuerGeneration) ∧
    ∀ floor ∈ relay.received, floor.AppliesTo authority →
      (relay.now < floor.receivedAt + browserAuthorizationFloorRetentionMs →
        floor.item.minimumRevision ≤ authority.revision) ∧
      ∀ capability checkedAt, authorityFromCapability capability = authority →
        validateCapabilityV2 capability checkedAt = true →
        capability.issuedAt ≤ floor.receivedAt + browserIssuedAtSkewMs →
        floor.item.minimumRevision ≤ authority.revision := by
  have unbypassed := (floorsHold_of_reachable reachable).unbypassed authority active v2
  refine ⟨unbypassed.generations, fun floor member applies => ⟨fun kept => ?_, ?_⟩⟩
  · rcases unbypassed.floors floor member applies with above | ⟨lapsed, _⟩
    · exact above
    · exact absurd lapsed (Nat.not_le_of_lt kept)
  rintro capability checkedAt rfl valid before
  rcases unbypassed.floors floor member applies with above | ⟨_, outlived⟩
  · exact above
  -- A lease and the skew are shorter than a retention.
  have lease := expiresAt_le_of_valid valid
  have longer : browserReadLeaseMaxMs + browserIssuedAtSkewMs ≤
      browserAuthorizationFloorRetentionMs := by decide
  simp only [authorityFromCapability] at outlived
  omega

/-- A console reader of one server. -/
def reader : RelayBrowserCapabilityV2 where
  actions := ["instance.console.read"]
  authorizationRevision := 2
  capabilityId := "c"
  expiresAt := 61000
  instanceId := "a"
  issuedAt := 1000
  issuer := "h"
  issuerGeneration := 1
  keyThumbprint := "k"
  loginSessionId := "l"
  operation := .console
  origin := "o"
  path := none
  resourceKind := none
  subject := "s"

def scopeOfReader : AuthorizationScope :=
  let id := "a"
  .instance' id

/-- The reader connects once its floor came, and renews. -/
def reading : List (Nat × BrowserAction) :=
  let revision : AuthorizationRevision := ⟨2, scopeOfReader, "s"⟩
  [(500, .commit "h" [revision] (some 1)), (500, .revise ⟨"h", [revision], [revision], 1, 500⟩),
    (1000, .acquirePending 0 "p" true),
    (1000, .read 0 reader .connect),
    (1500, .activate 0 0 true "x" (some ("n", 60000))),
    (2000, .read 0 reader (.renewal 0)),
    (2500, .renew 0 0 true "m" 60000)]

def readerLimits : BrowserLimits := ⟨1, 1, 1, 1, 1, 1, true⟩

theorem reading_runs : (runAll next { limits := readerLimits } reading).isSome = true := by decide

/-- The reader's session is active above the floor that came. -/
theorem floors_never_bypassed_reading :
    let relay := (runAll next { limits := readerLimits } reading).get reading_runs
    relay.registry.Active (authorityFromCapability reader) ∧
      relay.received ≠ [] ∧
      (∀ generation, ("h", generation) ∈ relay.generations → generation ≤ 1) ∧
      ∀ floor ∈ relay.received, floor.AppliesTo (authorityFromCapability reader) →
        floor.item.minimumRevision ≤ 2 := by
  intro relay
  have reachable : (system readerLimits).Reachable relay :=
    System.reachable_of_runAll (· = ({ limits := readerLimits } : BrowserRelay)) next rfl reading
      reading_runs
  have active : relay.registry.Active (authorityFromCapability reader) := by
    refine Or.inl ⟨0, ⟨true, authorityFromCapability reader, some "m", some 60000, "x"⟩, ?_, rfl,
      rfl⟩
    decide
  have held := floors_never_bypassed reachable active rfl
  have valid : validateCapabilityV2 reader 1000 = true := by decide
  refine ⟨active, by decide, held.1, fun floor member applies => ?_⟩
  have all : ∀ floor ∈ relay.received, reader.issuedAt ≤ floor.receivedAt +
      browserIssuedAtSkewMs := by decide
  exact (held.2 floor member applies).2 reader 1000 rfl valid (all floor member)

end BrowserRelay

end Kiln.Relay
