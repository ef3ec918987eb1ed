import Kiln.Operations.LanesExclusion

/-!
# What a refusal names

Only an admission that is turned away for what is in its way names that: every other end of a waiter's wait names
nothing. What an admission names holds locks, or waits for some, that conflict with its own.
-/

set_option linter.unusedSectionVars false

namespace Kiln.Operations
open Kiln.Lib OperationLanes List Option

namespace OperationLanes

variable {κ : Type} [LinearOrder κ]

/-- A waiter's answer is the one that it had, or names nothing. -/
def NamesNothing (before after : Waiter κ) : Prop :=
  after.granted = before.granted ∨ ∀ error, after.granted = some (.fail error) → error.blockedBy = none

/-- No waiter's answer comes to name anything. -/
def Unnamed (before after : OperationLanes κ) : Prop := ∀ id, NamesNothing (before.waiters id) (after.waiters id)

theorem NamesNothing.trans {a b c : Waiter κ} (h : NamesNothing a b) (k : NamesNothing b c) : NamesNothing a c := by
  rcases k with same | none_
  · rcases h with same' | none_
    · exact .inl (same.trans same')
    · exact .inr fun error is => none_ error (same ▸ is)
  · exact .inr none_

theorem Unnamed.of_waiters {before after : OperationLanes κ} (same : after.waiters = before.waiters) :
    Unnamed before after :=
  fun id => .inl (by rw [same])

theorem Unnamed.refl (lanes : OperationLanes κ) : Unnamed lanes lanes := .of_waiters rfl

theorem Unnamed.trans {a b c : OperationLanes κ} (h : Unnamed a b) (k : Unnamed b c) : Unnamed a c :=
  fun id => (h id).trans (k id)

theorem unnamed_update (lanes : OperationLanes κ) (id : WaiterId) (change : Waiter κ → Waiter κ)
    (keeps : ∀ waiter, (change waiter).granted = waiter.granted) :
    Unnamed lanes (lanes.update id change) := by
  intro other
  rw [update_waiters]
  split
  · rename_i same
    exact .inl (same ▸ keeps _)
  · exact .inl rfl

/-- An answer that names nothing. -/
def Settled.Quiet (how : Settled) : Prop := ∀ error, how = .fail error → error.blockedBy = none

theorem namesNothing_settle {waiter : Waiter κ} {how : Settled} (quiet : Settled.Quiet how) {state : WaiterState} :
    NamesNothing waiter { waiter with state, granted := settle waiter.granted how } := by
  cases granted : waiter.granted with
  | some earlier => exact .inl (by rw [granted]; rfl)
  | none => exact .inr fun error is => quiet error (Option.some.inj is)

theorem unnamed_conclude (lanes : OperationLanes κ) (id : WaiterId) {how : Settled} (quiet : Settled.Quiet how) :
    Unnamed lanes (lanes.conclude id how) := by
  intro other
  rw [conclude_waiters]
  split
  · rename_i same
    exact same ▸ namesNothing_settle quiet
  · exact .inl rfl

variable {error : LaneRejectedError}

theorem quiet_fail (none_ : error.blockedBy = none) : Settled.Quiet (.fail error) :=
  fun _ is => Settled.fail.inj is ▸ none_

theorem unnamed_reject (lanes : OperationLanes κ) (id : WaiterId) (none_ : error.blockedBy = none) :
    Unnamed lanes (lanes.reject id error) :=
  unnamed_conclude lanes id (quiet_fail none_)

theorem unnamed_start (lanes : OperationLanes κ) (id : WaiterId) : Unnamed lanes (lanes.start id) := by
  intro other
  rw [start_waiters]
  split
  · rename_i same
    exact same ▸ namesNothing_settle fun error is => Settled.noConfusion is
  · exact .inl rfl

theorem unnamed_foldl {step : OperationLanes κ → WaiterId → OperationLanes κ}
    (each : ∀ lanes id, Unnamed lanes (step lanes id)) (ids : List WaiterId) (lanes : OperationLanes κ) :
    Unnamed lanes (ids.foldl step lanes) := by
  induction ids generalizing lanes with
  | nil => exact .refl lanes
  | cons id rest ih => exact (each lanes id).trans (ih _)

theorem blockedBy_dropError (waiter : Waiter κ) : (dropError waiter).blockedBy = none := by
  unfold dropError
  split <;> rfl

/-! ## Each part of the lanes -/

theorem unnamed_remove (lanes : OperationLanes κ) (id : WaiterId) : Unnamed lanes (lanes.remove id) :=
  .of_waiters (lanes.remove_waiters id)

theorem unnamed_askRefuse (lanes : OperationLanes κ) (label : String) (locks : List (LaneLock κ)) :
    Unnamed lanes (lanes.askRefuse label locks).2 := by
  obtain ⟨asked, is⟩ := lanes.askRefuse_snd label locks
  rw [is]
  exact .of_waiters rfl

theorem unnamed_askPrecondition (lanes : OperationLanes κ) (id : WaiterId) :
    Unnamed lanes (lanes.askPrecondition id).2 := by
  obtain ⟨asked, is⟩ := lanes.askPrecondition_snd id
  rw [is]
  exact .of_waiters rfl

theorem unnamed_grantFreeNested (lanes : OperationLanes κ) (id : WaiterId) (locks : List (LaneLock κ)) :
    Unnamed lanes (lanes.grantFreeNested id locks) := by
  unfold grantFreeNested
  dsimp only
  have out : Unnamed lanes { lanes with nested := lanes.nested.erase id } := .of_waiters rfl
  have asked : Unnamed lanes (if (lanes.waiters id).continuation then
      askRefuse { lanes with nested := lanes.nested.erase id } (lanes.waiters id).label locks
      else (none, { lanes with nested := lanes.nested.erase id })).2 := by
    split
    · exact out.trans (unnamed_askRefuse _ _ _)
    · exact out
  generalize (if (lanes.waiters id).continuation then
    askRefuse { lanes with nested := lanes.nested.erase id } (lanes.waiters id).label locks
    else (none, { lanes with nested := lanes.nested.erase id })) = answer at asked ⊢
  split
  · exact asked.trans (unnamed_reject _ id rfl)
  · have applies := asked.trans (unnamed_askPrecondition _ id)
    split
    · exact applies.trans ((Unnamed.of_waiters rfl).trans (unnamed_start _ id))
    · exact applies.trans (unnamed_reject _ id rfl)

theorem unnamed_grantNested (lanes : OperationLanes κ) (blocked : LockTable κ) (ids : List WaiterId) :
    Unnamed lanes (lanes.grantNested blocked ids).1 := by
  induction ids generalizing lanes blocked with
  | nil => exact .refl lanes
  | cons id rest ih =>
    rw [grantNested]
    split
    · exact ih lanes _
    · split
      · exact ih lanes _
      · exact (unnamed_grantFreeNested lanes id _).trans (ih _ _)

theorem unnamed_admitFree (lanes : OperationLanes κ) (id : WaiterId) : Unnamed lanes (lanes.admitFree id).2 := by
  unfold admitFree
  dsimp only
  split
  · rename_i refused _
    have asked := unnamed_askRefuse lanes (lanes.waiters id).label (lanes.locksOf id)
    exact asked.trans (unnamed_update _ id (fun waiter => { waiter with refused := some refused }) fun _ => rfl)
  · exact (unnamed_askRefuse lanes _ _).trans (unnamed_askPrecondition _ id)

theorem unnamed_grant (lanes : OperationLanes κ) : Unnamed lanes lanes.grant := by
  unfold grant takeOut finishSelection
  dsimp only
  have nested := unnamed_grantNested lanes .empty lanes.nested
  have selected : Unnamed (lanes.grantNested .empty lanes.nested).1
      ((lanes.grantNested .empty lanes.nested).1.select (lanes.grantNested .empty lanes.nested).2).env :=
    selectGrants_env .refl (fun _ _ _ => .trans) unnamed_admitFree _ _ _ _
  generalize (lanes.grantNested .empty lanes.nested).1.select (lanes.grantNested .empty lanes.nested).2 =
    selection at selected ⊢
  have held : Unnamed selection.env { selection.env with held := selection.held } := .of_waiters rfl
  have out := held.trans (unnamed_foldl unnamed_remove (selection.granted ++ selection.dropped) _)
  have rejected := unnamed_foldl (fun lanes id => unnamed_reject lanes id (blockedBy_dropError (lanes.waiters id)))
    selection.dropped ((selection.granted ++ selection.dropped).foldl remove
      { selection.env with held := selection.held })
  exact (nested.trans (selected.trans (out.trans rejected))).trans (unnamed_foldl unnamed_start _ _)

theorem unnamed_letGo (lanes : OperationLanes κ) (id : WaiterId) : Unnamed lanes (lanes.letGo id) := by
  intro other
  rw [letGo_waiters]
  split
  · rename_i same
    exact .inl (same ▸ rfl)
  · exact .inl rfl

theorem unnamed_release (lanes : OperationLanes κ) (id : WaiterId) : Unnamed lanes (lanes.release id) := by
  unfold release
  split
  · exact .refl lanes
  · exact (unnamed_letGo lanes id).trans (unnamed_grant _)

theorem unnamed_cancel (lanes : OperationLanes κ) (id : WaiterId) : Unnamed lanes (lanes.cancel id).2 := by
  unfold cancel
  split
  · exact ((unnamed_remove lanes id).trans (unnamed_reject _ id rfl)).trans (unnamed_grant _)
  · exact unnamed_release lanes id
  · exact .refl lanes

theorem unnamed_pauseActive (fuel position : Nat) (lanes : OperationLanes κ) :
    Unnamed lanes (pauseActive fuel position lanes) := by
  induction fuel generalizing position lanes with
  | zero => exact .refl lanes
  | succ fuel ih =>
    rw [pauseActive]
    split
    · exact .refl lanes
    rename_i id _
    split
    · exact ih _ lanes
    · have noted := unnamed_update lanes id
        (fun waiter => { waiter with refusal := some (lanes.pausedError (lanes.waiters id)) }) fun _ => rfl
      exact (noted.trans (unnamed_release _ _)).trans (ih _ _)

theorem unnamed_pauseWaiting (lanes : OperationLanes κ) : Unnamed lanes lanes.pauseWaiting :=
  unnamed_foldl (fun lanes id => (unnamed_remove lanes id).trans (unnamed_reject _ id rfl)) _ lanes

theorem unnamed_setPaused (lanes : OperationLanes κ) (paused : Bool) : Unnamed lanes (lanes.setPaused paused) := by
  unfold setPaused
  have marked : Unnamed lanes { lanes with paused := paused } := .of_waiters rfl
  generalize ({ lanes with paused := paused } : OperationLanes κ) = lanes' at marked ⊢
  dsimp only
  split
  · exact marked
  · exact (marked.trans (unnamed_pauseWaiting lanes')).trans ((unnamed_pauseActive _ _ _).trans (unnamed_grant _))

theorem unnamed_learn (lanes : OperationLanes κ) (id : WaiterId) (locks : List (LaneLock κ)) :
    Unnamed lanes (lanes.learn id locks) := by
  have known := unnamed_update lanes id (fun waiter => { waiter with locks := some (normalizeLocks locks) })
    fun _ => rfl
  exact known.trans (.of_waiters rfl)

theorem unnamed_lookupSucceeded (lanes : OperationLanes κ) (id : WaiterId) (locks : List (LaneLock κ)) :
    Unnamed lanes (lanes.lookupSucceeded id locks) := by
  unfold lookupSucceeded
  split
  · exact .refl lanes
  · exact (unnamed_learn lanes id locks).trans (unnamed_grant _)

theorem unnamed_lookupFailed (lanes : OperationLanes κ) (id : WaiterId) (cause : String) :
    Unnamed lanes (lanes.lookupFailed id cause) := by
  unfold lookupFailed
  split
  · exact .refl lanes
  · exact ((unnamed_remove lanes id).trans
      (unnamed_conclude _ id fun error is => Settled.noConfusion is)).trans (unnamed_grant _)

theorem unnamed_beginRun (lanes : OperationLanes κ) (id : WaiterId) : Unnamed lanes (lanes.beginRun id).2 := by
  unfold beginRun
  split
  · exact .refl lanes
  have runs := unnamed_update lanes id (fun waiter => { waiter with state := .running }) fun _ => rfl
  refine runs.trans (.of_waiters ?_)
  dsimp only
  obtain ⟨starts, is⟩ := foldl_countStart ((lanes.update id fun waiter => { waiter with state := .running }).locksOf id)
    (lanes.update id fun waiter => { waiter with state := .running })
  rw [is]

/-! ## Admissions -/

variable {id : WaiterId}

theorem settleBusy_other (lanes : OperationLanes κ) {other : WaiterId} (whenBusy : Option (WhenBusy κ))
    (different : other ≠ id) : (lanes.settleBusy id whenBusy).waiters other = lanes.waiters other := by
  have refused : ∀ (lanes : OperationLanes κ) inTheWay,
      (lanes.refuseBusy id inTheWay).waiters other = lanes.waiters other := by
    intro lanes inTheWay
    unfold refuseBusy reject
    dsimp only
    rw [conclude_waiters, if_neg different, remove_waiters]
  unfold settleBusy
  split
  · rfl
  split
  · rfl
  · rfl
  · exact refused _ _
  · dsimp only
    split
    · exact refused _ _
    · rfl

theorem namesNothing_admitWaiter (lanes : OperationLanes κ) (admission : LaneAdmission κ) (inside : Bool)
    (other : id ≠ lanes.admitted) :
    NamesNothing (lanes.waiters id) ((lanes.admitWaiter admission inside).waiters id) := by
  unfold admitWaiter
  dsimp only
  split
  · refine .inl ?_
    unfold reject
    rw [conclude_waiters, if_neg other, alloc_waiters, if_neg other]
  rw [settleBusy_other _ _ other]
  refine .trans (.inl ?_) (unnamed_grant _ id)
  unfold enqueue
  split
  · unfold learn note
    dsimp only
    rw [update_waiters_ne _ _ other, (push_waiters _ _).1, alloc_waiters, if_neg other]
  · rw [(push_waiters _ _).1, alloc_waiters, if_neg other]

/-- A lock of an occupant that conflicts with one of the locks. -/
def InTheWay (lanes : OperationLanes κ) (locks : List (LaneLock κ)) (other : WaiterId) (key : κ) : Prop :=
  ∃ lock ∈ locks, lock.key = key ∧ (LockTable.empty.take (lanes.locksOf other)).conflicts lock = true

variable {lanes : OperationLanes κ}

theorem inTheWay_of_explainWait {locks : List (LaneLock κ)} {holders ahead : List WaiterId}
    {reason : WaitReason String κ}
    (member : reason ∈ explainWait locks (holders.map lanes.occupant) (ahead.map lanes.occupant)) :
    ∃ other ∈ holders ++ ahead, reason.id = (lanes.waiters other).label ∧ InTheWay lanes locks other reason.key := by
  have each : ∀ holds (occupants : List WaiterId), reason ∈ collectReasons locks holds (occupants.map lanes.occupant) →
      ∃ other ∈ occupants, reason.id = (lanes.waiters other).label ∧ InTheWay lanes locks other reason.key := by
    intro holds occupants among
    obtain ⟨occupant, listed, from_⟩ := mem_flatMap.mp among
    obtain ⟨other, there, rfl⟩ := mem_map.mp listed
    obtain ⟨lock, clash, rfl⟩ := mem_map.mp from_
    rw [mem_filter] at clash
    exact ⟨other, there, rfl, lock, clash.1, rfl, clash.2⟩
  rcases mem_append.mp member with among | among
  · obtain ⟨other, there, is⟩ := each true holders among
    exact ⟨other, mem_append_left _ there, is⟩
  · obtain ⟨other, there, is⟩ := each false ahead among
    exact ⟨other, mem_append_right _ there, is⟩

/-- Whether an admission is turned away for reasons. -/
def RefusesFor (whenBusy : Option (WhenBusy κ)) (reasons : List (WaitReason String κ)) : Prop :=
  match whenBusy with
  | some .refuse => True
  | some (.decide answer) => ∃ asked, answer asked reasons = true
  | some .wait | none => False

/-- What is in the lanes. -/
def occupants (lanes : OperationLanes κ) : List WaiterId := lanes.active ++ (lanes.nested ++ lanes.waiting)

theorem Placed.mem_occupants {batch dropped : List WaiterId} (placed : Placed batch dropped lanes)
    (out : id ∉ batch ∧ id ∉ dropped) :
    id ∈ lanes.occupants ↔ (lanes.waiters id).state ≠ .done := by
  have waits := placed.waits id
  have holds := placed.holds id
  rw [occupants, mem_append, mem_append, ← holds]
  cases is : (lanes.waiters id).state with
  | done => simp only [is] at waits ⊢; grind
  | waiting => simp only [is] at waits ⊢; grind
  | granted => simp
  | running => simp

/-- A waiter that is turned away for what is in its way is told so. -/
theorem settleBusy_named (placed : Placed [] [] lanes) {whenBusy : Option (WhenBusy κ)} {names : List String}
    (quiet : ∀ error, (lanes.waiters id).granted = some (.fail error) → error.blockedBy = none)
    (refused : ((lanes.settleBusy id whenBusy).waiters id).granted = some (.fail error))
    (named : error.blockedBy = some names) :
    (lanes.waiters id).state = .waiting ∧ RefusesFor whenBusy (lanes.inTheWay id) ∧
      names = ((lanes.inTheWay id).map WaitReason.id).eraseDups := by
  have stays : (lanes.waiters id).granted = some (.fail error) → False :=
    fun is => some_ne_none _ (named.symm.trans (quiet error is))
  have told : ∀ (lanes' : OperationLanes κ) inTheWay, lanes'.waiters = lanes.waiters →
      (lanes.waiters id).state = .waiting →
      ((lanes'.refuseBusy id inTheWay).waiters id).granted = some (.fail error) →
        names = (inTheWay.map WaitReason.id).eraseDups := by
    intro lanes' inTheWay same waiting is
    unfold refuseBusy reject at is
    dsimp only at is
    rw [conclude_waiters, if_pos rfl, remove_waiters, same, (placed.pending id waiting).1] at is
    cases is
    exact (Option.some.inj named).symm
  unfold settleBusy at refused
  split at refused
  · exact (stays refused).elim
  rename_i waiting
  rw [not_not] at waiting
  split at refused
  · exact (stays refused).elim
  · exact (stays refused).elim
  · exact ⟨waiting, trivial, told lanes _ rfl waiting refused⟩
  · dsimp only at refused
    split at refused
    · rename_i yes
      exact ⟨waiting, ⟨lanes.asked, yes⟩, told { lanes with asked := lanes.asked + 1 } _ rfl waiting refused⟩
    · exact (stays refused).elim

theorem occupant_before {lane after : OperationLanes κ} {waiter : Waiter κ} {locks : AdmissionLocks κ}
    (placed : Placed [] [] lanes) (line : Enqueued [] lanes waiter locks lane) (granted : Granted lane after)
    {other : WaiterId} (different : other ≠ lanes.admitted) (there : other ∈ after.occupants) :
    other ∈ lanes.occupants ∧ (after.waiters other).label = (lanes.waiters other).label ∧
      after.locksOf other = lanes.locksOf other := by
  have none_ : other ∉ ([] : List WaiterId) ∧ other ∉ ([] : List WaiterId) := ⟨not_mem_nil, not_mem_nil⟩
  have live := (granted.placed.mem_occupants none_).mp there
  have below : other < lanes.admitted := by
    have bound := granted.placed.bound other live
    rw [granted.admitted, line.admitted] at bound
    exact lt_of_le_of_ne (Nat.lt_succ_iff.mp bound) different
  have moves := granted.evolves.2 other (line.admitted ▸ below.trans (Nat.lt_succ_self _))
  rw [line.others other different] at moves
  refine ⟨(placed.mem_occupants none_).mpr fun done => live (moves.done done), moves.label, ?_⟩
  unfold locksOf
  cases is : (lanes.waiters other).locks with
  | none => rw [moves.unknown is]
  | some list => rw [moves.locks list is]

/-- What an admission's refusal names is in its way, and what the admission is refused for. -/
theorem names_admitWaiter (sound : Sound lanes) {admission : LaneAdmission κ} {inside : Bool}
    {locks : List (LaneLock κ)} (known : admission.locks = .known locks) {names : List String}
    (refused : ((lanes.admitWaiter admission inside).waiters lanes.admitted).granted = some (.fail error))
    (named : error.blockedBy = some names) :
    ∃ reasons : List (WaitReason String κ), RefusesFor admission.whenBusy reasons ∧
      names = (reasons.map WaitReason.id).eraseDups ∧ ∀ reason ∈ reasons, ∃ other ∈ lanes.occupants,
        reason.id = (lanes.waiters other).label ∧ InTheWay lanes (normalizeLocks locks) other reason.key := by
  have new := makeWaiter_new admission inside
  unfold admitWaiter at refused
  cases turned : lanes.turnsAway (makeWaiter admission inside) inside with
  | some error' =>
    simp only [turned] at refused
    unfold reject at refused
    rw [conclude_waiters, if_pos rfl, alloc_waiters, if_pos rfl] at refused
    cases refused
    unfold turnsAway at turned
    split at turned
    · exact absurd (Option.some.inj turned ▸ named) nofun
    · split at turned
      · exact absurd (Option.some.inj turned ▸ named) nofun
      · cases turned
  | none =>
    simp only [turned] at refused
    have line := enqueue_enqueued sound.placed new admission.locks
    have granted := grant_granted line.placed
    have answer := unnamed_grant ((lanes.alloc (makeWaiter admission inside)).enqueue lanes.admitted admission.locks)
      lanes.admitted
    have fresh : (((lanes.alloc (makeWaiter admission inside)).enqueue lanes.admitted admission.locks).waiters
        lanes.admitted).granted = none := by
      rw [line.own]
      rfl
    generalize hlane : (lanes.alloc (makeWaiter admission inside)).enqueue lanes.admitted admission.locks = lane at *
    -- what the grant leaves it names nothing
    have quiet : ∀ error, (lane.grant.waiters lanes.admitted).granted = some (.fail error) →
        error.blockedBy = none := by
      rcases answer with same | none_
      · intro error is
        rw [same, fresh] at is
        cases is
      · exact none_
    have own : (lane.grant.waiters lanes.admitted).locks = some (normalizeLocks locks) := by
      refine (granted.evolves.2 _ (line.admitted ▸ Nat.lt_succ_self _)).locks _ ?_
      rw [line.own, known]
    obtain ⟨waiting, refuses, rfl⟩ := settleBusy_named granted.placed quiet refused named
    refine ⟨_, refuses, rfl, fun reason member => ?_⟩
    obtain ⟨other, among, label, inTheWay⟩ := inTheWay_of_explainWait member
    -- the newcomer itself is neither active nor ahead of itself
    have there : other ∈ lane.grant.occupants ∧ other ≠ lanes.admitted := by
      rcases mem_append.mp among with active | ahead
      · refine ⟨mem_append_left _ active, ?_⟩
        rintro rfl
        rcases (granted.placed.holds _).mpr active with is | is <;> exact absurd (waiting.symm.trans is) nofun
      have ahead' : ∀ queue : List WaiterId, (other ∈ if lanes.admitted ∈ queue then
          queue.takeWhile fun id => id ≠ lanes.admitted else []) → other ∈ queue ∧ other ≠ lanes.admitted := by
        intro queue member
        split at member
        · have passed := all_eq_true.mp (all_takeWhile (l := queue)) other member
          exact ⟨takeWhile_subset _ member, of_decide_eq_true passed⟩
        · exact absurd member not_mem_nil
      obtain ⟨queued, different⟩ := ahead' _ ahead
      refine ⟨?_, different⟩
      rw [occupants, mem_append, mem_append]
      split at queued
      · exact .inr (.inl queued)
      · exact .inr (.inr queued)
    obtain ⟨before, sameLabel, sameLocks⟩ := occupant_before sound.placed line granted there.2 there.1
    refine ⟨other, before, label.trans sameLabel, ?_⟩
    obtain ⟨lock, member', key, clash⟩ := inTheWay
    have locksIs : lane.grant.locksOf lanes.admitted = normalizeLocks locks := by rw [locksOf, own]; rfl
    exact ⟨lock, locksIs ▸ member', key, sameLocks ▸ clash⟩

end OperationLanes

namespace LaneWorld

variable {κ : Type} [LinearOrder κ]

theorem namesNothing_step {world after : LaneWorld κ} {call : LaneCall κ} (step : world.step call = some after)
    {id : WaiterId} (below : id < world.lanes.admitted) :
    OperationLanes.NamesNothing (world.lanes.waiters id) (after.lanes.waiters id) := by
  cases call with
  | admitTicket admission =>
    cases step
    exact OperationLanes.namesNothing_admitWaiter _ _ _ (Nat.ne_of_lt below)
  | runNested admission =>
    cases step
    exact OperationLanes.namesNothing_admitWaiter _ _ _ (Nat.ne_of_lt below)
  | cancel waiter | withdraw waiter =>
    obtain ⟨-, is⟩ := ite_none_right_eq_some.mp step
    cases is
    exact OperationLanes.unnamed_cancel _ _ id
  | setPaused paused =>
    cases step
    exact OperationLanes.unnamed_setPaused _ _ id
  | lookupSucceeded waiter locks =>
    obtain ⟨-, is⟩ := ite_none_right_eq_some.mp step
    cases is
    exact OperationLanes.unnamed_lookupSucceeded _ _ _ id
  | lookupFailed waiter cause =>
    obtain ⟨-, is⟩ := ite_none_right_eq_some.mp step
    cases is
    exact OperationLanes.unnamed_lookupFailed _ _ _ id
  | run waiter =>
    obtain ⟨-, is⟩ := ite_none_right_eq_some.mp step
    cases is
    exact .inl rfl
  | resume waiter =>
    obtain ⟨-, is⟩ := ite_none_right_eq_some.mp step
    dsimp only at is
    split at is
    · cases is
      exact OperationLanes.unnamed_beginRun _ _ id
    · cases is
      exact .inl rfl
  | interrupt waiter =>
    obtain ⟨-, is⟩ := ite_none_right_eq_some.mp step
    cases is
    exact OperationLanes.unnamed_cancel _ _ id
  | finish waiter =>
    obtain ⟨-, is⟩ := ite_none_right_eq_some.mp step
    cases is
    exact OperationLanes.unnamed_release _ _ id

/-- Admissions are counted, and never taken back. -/
theorem admitted_step {world after : LaneWorld κ} (coherent : world.Coherent) {call : LaneCall κ}
    (step : world.step call = some after) : world.lanes.admitted ≤ after.lanes.admitted := by
  cases call with
  | admitTicket admission =>
    cases step
    exact (admit_admitted coherent.sound admission false).1.evolves.1
  | runNested admission =>
    cases step
    exact (admit_admitted coherent.sound admission true).1.evolves.1
  | cancel waiter | withdraw waiter =>
    obtain ⟨-, is⟩ := ite_none_right_eq_some.mp step
    cases is
    exact (cancel_sound coherent.sound waiter).2.1.1
  | setPaused paused =>
    cases step
    exact (setPaused_sound coherent.sound paused).2.evolves.1
  | lookupSucceeded waiter locks =>
    obtain ⟨pending, is⟩ := ite_none_right_eq_some.mp step
    cases is
    have below := coherent.counted.below_of_lookup pending
    exact (lookupSucceeded_sound coherent.sound below
      ((coherent.counted.each waiter below).lookup pending) locks).2.1.ge
  | lookupFailed waiter cause =>
    obtain ⟨-, is⟩ := ite_none_right_eq_some.mp step
    cases is
    exact (lookupFailed_sound coherent.sound waiter cause).2.evolves.1
  | run waiter =>
    obtain ⟨-, is⟩ := ite_none_right_eq_some.mp step
    cases is
    exact le_rfl
  | resume waiter =>
    obtain ⟨-, is⟩ := ite_none_right_eq_some.mp step
    dsimp only at is
    split at is
    · cases is
      by_cases granted : (world.lanes.waiters waiter).state = .granted
      · exact (beginRun_begun coherent.counted.placed granted).2.admitted.ge
      · rw [OperationLanes.beginRun, if_pos granted]
    · cases is
      exact le_rfl
  | interrupt waiter =>
    obtain ⟨-, is⟩ := ite_none_right_eq_some.mp step
    cases is
    exact (cancel_sound coherent.sound waiter).2.1.1
  | finish waiter =>
    obtain ⟨goes, is⟩ := ite_none_right_eq_some.mp step
    cases is
    obtain ⟨-, running⟩ := coherent.counted.below_of_running goes
    exact (release_active coherent.counted.placed
      ((coherent.counted.placed.holds waiter).mp (Or.inr running))).admitted.ge

end LaneWorld

end Kiln.Operations
