import Mathlib
import Kiln.Lib.Transition

/-!
# Passthrough slots

`acquirePassthroughSlot` of apps/web/src/lib/relay-passthrough-limits.server.ts: a limit for each Relay and one for
all, over one list of waiters. What runs between two awaits is one step.
-/

namespace Kiln.Hearth
open Kiln.Lib List Function

/-- `PER_RELAY` -/
def perRelay : Nat := 8

inductive SlotStatus where
  | waiting
  | held
  | released
  | refused
  deriving DecidableEq

/-- A call of `acquirePassthroughSlot`, with how many slots it took and gave back. -/
structure SlotAcquisition where
  relayId : String
  status : SlotStatus := .waiting
  taken : Nat := 0
  given : Nat := 0
  deriving DecidableEq

structure SlotsState where
  /-- `usage.open` of each Relay -/
  usage : String → Nat := fun _ => 0
  /-- `state.open` -/
  opened : Nat := 0
  /-- `state.waiting`, by the numbers of their calls -/
  waiting : List Nat := []
  acquisitions : List SlotAcquisition := []

inductive SlotEvent where
  | acquire (relayId : String)
  | timeout (call : Nat)
  /-- A slot's `release`, as often as it is called. -/
  | release (call : Nat)

namespace SlotsState

variable (capacity : Nat)

/-- `free` -/
def free (s : SlotsState) (relayId : String) : Bool := s.usage relayId < perRelay && s.opened < capacity

/-- `take` -/
def take (s : SlotsState) (call : Nat) (acquisition : SlotAcquisition) : SlotsState :=
  { s with
    usage := update s.usage acquisition.relayId (s.usage acquisition.relayId + 1)
    opened := s.opened + 1
    acquisitions := s.acquisitions.set call { acquisition with status := .held, taken := acquisition.taken + 1 } }

/-- `wake` -/
def wake (s : SlotsState) (call : Nat) : SlotsState :=
  match s.acquisitions[call]? with
  | some acquisition =>
      if s.free capacity acquisition.relayId then
        { s.take call acquisition with waiting := s.waiting.erase call }
      else s
  | none => s

def next (s : SlotsState) : SlotEvent → Option SlotsState
  | .acquire relayId =>
      let call := s.acquisitions.length
      let asked : SlotAcquisition := { relayId }
      let s' := { s with acquisitions := s.acquisitions ++ [asked] }
      some (if s.free capacity relayId then s'.take call asked else { s' with waiting := s.waiting ++ [call] })
  | .timeout call =>
      match s.acquisitions[call]? with
      | some acquisition =>
          if call ∈ s.waiting then
            some { s with
              waiting := s.waiting.erase call
              acquisitions := s.acquisitions.set call { acquisition with status := .refused } }
          else none
      | none => none
  | .release call =>
      match s.acquisitions[call]? with
      | some acquisition =>
          match acquisition.status with
          | .held =>
              some (s.waiting.foldl (wake capacity)
                { s with
                  usage := update s.usage acquisition.relayId (s.usage acquisition.relayId - 1)
                  opened := s.opened - 1
                  acquisitions :=
                    s.acquisitions.set call { acquisition with status := .released, given := acquisition.given + 1 } })
          | .released => some s
          | _ => none
      | none => none

end SlotsState

def slotSystem (capacity : Nat) : System SlotsState SlotEvent := .ofFunction (· = {}) (SlotsState.next capacity)

/-! ## What is to hold -/

def SlotAcquisition.holds (acquisition : SlotAcquisition) : Bool := acquisition.status = .held

/-- It took one slot if it ever held one, and gave it back once it is released. -/
def SlotAcquisition.Once (acquisition : SlotAcquisition) : Prop :=
  match acquisition.status with
  | .waiting | .refused => acquisition.taken = 0 ∧ acquisition.given = 0
  | .held => acquisition.taken = 1 ∧ acquisition.given = 0
  | .released => acquisition.taken = 1 ∧ acquisition.given = 1

structure SlotsState.Counted (capacity : Nat) (s : SlotsState) : Prop where
  opened : s.opened = s.acquisitions.countP SlotAcquisition.holds
  usage : ∀ relayId, s.usage relayId = s.acquisitions.countP fun acquisition =>
    acquisition.holds && acquisition.relayId = relayId
  perRelay : ∀ relayId, s.usage relayId ≤ perRelay
  within : s.opened ≤ capacity
  once : ∀ acquisition ∈ s.acquisitions, acquisition.Once
  distinct : s.waiting.Nodup
  waiting : ∀ call, call ∈ s.waiting ↔ ∃ acquisition, s.acquisitions[call]? = some acquisition ∧
    acquisition.status = .waiting

/-- The counts are those of the slots that are held, within both limits, and nobody waits for what is free. -/
structure SlotsState.Fair (capacity : Nat) (s : SlotsState) : Prop extends s.Counted capacity where
  stranded : ∀ call ∈ s.waiting, ∀ acquisition, s.acquisitions[call]? = some acquisition →
    s.free capacity acquisition.relayId = false

/-! ## Steps -/

namespace SlotsState

variable {capacity : Nat} {s : SlotsState} {call : Nat} {acquisition : SlotAcquisition}

variable {acquisitions : List SlotAcquisition}

theorem countP_set_of (p : SlotAcquisition → Bool) (value : SlotAcquisition)
    (is : acquisitions[call]? = some acquisition) :
    (acquisitions.set call value).countP p + (if p acquisition then 1 else 0) =
      acquisitions.countP p + if p value then 1 else 0 := by
  obtain ⟨below, rfl⟩ := List.getElem?_eq_some_iff.mp is
  rw [countP_set below]
  have counted : (if p acquisitions[call] = true then 1 else 0) ≤ acquisitions.countP p := by
    split
    · exact countP_pos_iff.mpr ⟨_, getElem_mem below, ‹_›⟩
    · exact Nat.zero_le _
  omega

theorem getElem?_set_of {value : SlotAcquisition} (is : acquisitions[call]? = some acquisition) (other : Nat) :
    (acquisitions.set call value)[other]? = if other = call then some value else acquisitions[other]? := by
  obtain ⟨below, -⟩ := List.getElem?_eq_some_iff.mp is
  rw [List.getElem?_set]
  by_cases same : call = other
  · rw [if_pos same, if_pos same.symm, if_pos (same ▸ below)]
  · rw [if_neg same, if_neg fun is => same is.symm]

theorem Counted.stops (counted : s.Counted capacity) (is : s.acquisitions[call]? = some acquisition)
    {value : SlotAcquisition} (stops : value.status ≠ .waiting) (other : Nat) :
    other ∈ s.waiting.erase call ↔ ∃ acquisition, (s.acquisitions.set call value)[other]? = some acquisition ∧
      acquisition.status = .waiting := by
  rw [counted.distinct.mem_erase_iff, counted.waiting, getElem?_set_of is]
  by_cases same : other = call
  · simp only [same, ne_eq, not_true_eq_false, false_and, if_true, Option.some.injEq, exists_eq_left', stops]
  · simp only [same, ne_eq, not_false_eq_true, true_and, if_false]

theorem Counted.take (counted : s.Counted capacity) {waiting : List Nat}
    (is : acquisitions[call]? = some acquisition) (waits : acquisition.status = .waiting)
    (same : ∀ p : SlotAcquisition → Bool, p acquisition = false → acquisitions.countP p = s.acquisitions.countP p)
    (once : ∀ acquisition ∈ acquisitions, acquisition.Once) (free : s.free capacity acquisition.relayId = true)
    (distinct : waiting.Nodup)
    (line : ∀ other, other ∈ waiting ↔ ∃ value, (acquisitions.set call
      { acquisition with status := .held, taken := acquisition.taken + 1 })[other]? = some value ∧
        value.status = .waiting) :
    ({ SlotsState.take { s with acquisitions } call acquisition with waiting } : SlotsState).Counted capacity := by
  rw [SlotsState.free, Bool.and_eq_true, decide_eq_true_eq, decide_eq_true_eq] at free
  have no : acquisition.holds = false := by rw [SlotAcquisition.holds, waits]; rfl
  have its := once acquisition (mem_of_getElem? is)
  rw [SlotAcquisition.Once, waits] at its
  generalize taken : ({ acquisition with status := .held, taken := acquisition.taken + 1 } : SlotAcquisition) = value
    at line
  have yes : value.holds = true := by rw [← taken]; rfl
  have mine : value.relayId = acquisition.relayId := by rw [← taken]
  refine ⟨?_, fun relayId => ?_, fun relayId => ?_, free.2, fun other among => ?_, distinct, ?_⟩
  · have count := countP_set_of SlotAcquisition.holds value is
    rw [no, yes, same _ no, ← counted.opened, if_neg Bool.false_ne_true, if_pos rfl] at count
    change s.opened + 1 = (acquisitions.set call _).countP _
    rw [taken]
    exact count.symm
  · have count := countP_set_of (fun acquisition => acquisition.holds && acquisition.relayId = relayId) value is
    have out : (acquisition.holds && decide (acquisition.relayId = relayId)) = false := by rw [no, Bool.false_and]
    rw [out, same _ out, ← counted.usage, if_neg Bool.false_ne_true, yes, mine, Bool.true_and] at count
    change update s.usage acquisition.relayId (s.usage acquisition.relayId + 1) relayId =
      (acquisitions.set call _).countP _
    rw [taken]
    by_cases equal : acquisition.relayId = relayId
    · rw [decide_eq_true equal, if_pos rfl] at count
      rw [equal, update_self]
      exact count.symm
    · rw [decide_eq_false equal, if_neg Bool.false_ne_true] at count
      rw [update_of_ne fun is => equal is.symm]
      exact count.symm
  · change update s.usage acquisition.relayId (s.usage acquisition.relayId + 1) relayId ≤ _
    by_cases equal : relayId = acquisition.relayId
    · rw [equal, update_self]
      exact free.1
    · rw [update_of_ne equal]
      exact counted.perRelay relayId
  · rcases mem_or_eq_of_mem_set among with before | rfl
    · exact once other before
    · exact ⟨by rw [its.1], its.2⟩
  · change ∀ other, other ∈ waiting ↔ ∃ value, (acquisitions.set call _)[other]? = some value ∧ value.status = .waiting
    rw [taken]
    exact line

/-- As slots are taken only, what wasn't free isn't. -/
structure Fuller (s s' : SlotsState) : Prop where
  usage : ∀ relayId, s.usage relayId ≤ s'.usage relayId
  opened : s.opened ≤ s'.opened
  relays : ∀ call : Nat, ∀ acquisition, s'.acquisitions[call]? = some acquisition →
    ∃ before, s.acquisitions[call]? = some before ∧ before.relayId = acquisition.relayId

variable {s' : SlotsState}

theorem Fuller.stays {s : SlotsState} (fuller : Fuller s s') {relayId : String}
    (full : s.free capacity relayId = false) : s'.free capacity relayId = false := by
  have usage := fuller.usage relayId
  have opened := fuller.opened
  rw [SlotsState.free, Bool.and_eq_false_iff, decide_eq_false_iff_not, decide_eq_false_iff_not] at full ⊢
  omega

theorem Fuller.take (is : s.acquisitions[call]? = some acquisition) (waiting : List Nat) :
    Fuller s { s.take call acquisition with waiting } where
  usage := fun relayId => by
    change _ ≤ update s.usage acquisition.relayId (s.usage acquisition.relayId + 1) relayId
    by_cases equal : relayId = acquisition.relayId
    · rw [equal, update_self]
      exact Nat.le_succ _
    · exact Nat.le_of_eq (update_of_ne equal _ _).symm
  opened := Nat.le_succ _
  relays := fun other value found => by
    change (s.acquisitions.set call _)[other]? = some value at found
    rw [getElem?_set_of is] at found
    by_cases same : other = call
    · rw [if_pos same] at found
      exact ⟨acquisition, same ▸ is, by rw [← Option.some.inj found]⟩
    · rw [if_neg same] at found
      exact ⟨value, found, rfl⟩

/-- No waiter of a list, but those still to be woken, waits for what is free. -/
def Settled (capacity : Nat) (s : SlotsState) (left : List Nat) : Prop :=
  ∀ call ∈ s.waiting, call ∈ left ∨ ∀ acquisition, s.acquisitions[call]? = some acquisition →
    s.free capacity acquisition.relayId = false

theorem wake_spec (counted : s.Counted capacity) {left : List Nat} (settled : Settled capacity s (call :: left))
    (waits : call ∈ s.waiting) :
    (s.wake capacity call).Counted capacity ∧ Settled capacity (s.wake capacity call) left ∧
      ∀ other ≠ call, other ∈ s.waiting → other ∈ (s.wake capacity call).waiting := by
  obtain ⟨acquisition, is, status⟩ := (counted.waiting call).mp waits
  simp only [SlotsState.wake, is]
  split
  · rename_i free
    have fuller := Fuller.take is (s.waiting.erase call)
    refine ⟨counted.take is status (fun _ _ => rfl) counted.once free (counted.distinct.erase _)
      (counted.stops is nofun), fun other member => ?_, fun other different member => ?_⟩
    · obtain ⟨different, member'⟩ := counted.distinct.mem_erase_iff.mp member
      rcases settled other member' with among | full
      · exact .inl ((mem_cons.mp among).resolve_left different)
      · refine .inr fun value found => ?_
        obtain ⟨before, is', same⟩ := fuller.relays other value found
        exact fuller.stays (same ▸ full before is')
    · exact counted.distinct.mem_erase_iff.mpr ⟨different, member⟩
  · rename_i full
    refine ⟨counted, fun other member => ?_, fun _ _ member => member⟩
    rcases settled other member with among | full'
    · rcases mem_cons.mp among with rfl | later
      · refine .inr fun value found => ?_
        rw [is] at found
        rw [← Option.some.inj found]
        exact Bool.eq_false_iff.mpr full
      · exact .inl later
    · exact .inr full'

theorem foldl_wake {left : List Nat} (counted : s.Counted capacity) (settled : Settled capacity s left)
    (waits : ∀ call ∈ left, call ∈ s.waiting) (distinct : left.Nodup) :
    (left.foldl (SlotsState.wake capacity) s).Fair capacity := by
  induction left generalizing s with
  | nil => exact ⟨counted, fun call member => (settled call member).resolve_left not_mem_nil⟩
  | cons call rest ih =>
    rw [nodup_cons] at distinct
    obtain ⟨counted', settled', stays⟩ := wake_spec counted settled (waits call mem_cons_self)
    refine ih counted' settled' (fun other member => ?_) distinct.2
    exact stays other (fun same => distinct.1 (same ▸ member)) (waits other (mem_cons_of_mem _ member))

theorem countP_append_waiting (acquisitions : List SlotAcquisition) {p : SlotAcquisition → Bool}
    (no : p acquisition = false) : (acquisitions ++ [acquisition]).countP p = acquisitions.countP p := by
  rw [countP_append, countP_singleton, no, if_neg Bool.false_ne_true, Nat.add_zero]

theorem Fair.acquire (fair : s.Fair capacity) (relayId : String)
    (next : s.next capacity (.acquire relayId) = some s') : s'.Fair capacity := by
  have counted := fair.toCounted
  cases next
  have new : (s.acquisitions ++ [({ relayId } : SlotAcquisition)])[s.acquisitions.length]? = some { relayId } :=
    List.getElem?_concat_length
  have before : ∀ (other : Nat) (acquisition : SlotAcquisition), s.acquisitions[other]? = some acquisition →
      (s.acquisitions ++ [({ relayId } : SlotAcquisition)])[other]? = some acquisition := by
    intro other acquisition is
    rw [List.getElem?_append_left (List.getElem?_eq_some_iff.mp is).1]
    exact is
  have old : ∀ (other : Nat) (acquisition : SlotAcquisition), (s.acquisitions ++ [({ relayId } : SlotAcquisition)])[other]? = some acquisition →
      other = s.acquisitions.length ∧ acquisition = { relayId } ∨ s.acquisitions[other]? = some acquisition := by
    intro other acquisition is
    rcases Nat.lt_trichotomy other s.acquisitions.length with below | same | above
    · rw [List.getElem?_append_left below] at is
      exact .inr is
    · rw [same, new] at is
      exact .inl ⟨same, (Option.some.inj is).symm⟩
    · rw [List.getElem?_eq_none (by rw [length_append, length_singleton]; omega)] at is
      cases is
  have notYet : s.acquisitions.length ∉ s.waiting := by
    intro member
    obtain ⟨acquisition, is, -⟩ := (counted.waiting _).mp member
    exact Nat.lt_irrefl _ (List.getElem?_eq_some_iff.mp is).1
  have once : ∀ acquisition ∈ s.acquisitions ++ [({ relayId } : SlotAcquisition)], acquisition.Once := by
    intro acquisition member
    rcases mem_append.mp member with earlier | now
    · exact counted.once acquisition earlier
    · rw [mem_singleton.mp now]
      exact ⟨rfl, rfl⟩
  split
  · rename_i free
    have line : ∀ other, other ∈ s.waiting ↔ ∃ value, ((s.acquisitions ++ [({ relayId } : SlotAcquisition)]).set
        s.acquisitions.length { relayId := relayId, status := .held, taken := 1 })[other]? = some value ∧
          value.status = .waiting := by
      intro other
      rw [counted.waiting, getElem?_set_of new]
      by_cases same : other = s.acquisitions.length
      · rw [if_pos same, same, List.getElem?_eq_none (Nat.le_refl _)]
        simp
      rw [if_neg same]
      constructor
      · rintro ⟨acquisition, is, status⟩
        exact ⟨acquisition, before other acquisition is, status⟩
      · rintro ⟨acquisition, is, status⟩
        exact ⟨acquisition, (old other acquisition is).resolve_left fun its => same its.1, status⟩
    refine ⟨counted.take new rfl (fun p no => countP_append_waiting _ no) once free counted.distinct line, ?_⟩
    intro other member acquisition is
    obtain ⟨earlier, was, -⟩ := (counted.waiting other).mp member
    have different : other ≠ s.acquisitions.length := fun same => notYet (same ▸ member)
    change ((s.acquisitions ++ [({ relayId } : SlotAcquisition)]).set s.acquisitions.length _)[other]? = _ at is
    rw [getElem?_set_of new, if_neg different] at is
    have fuller : Fuller { s with acquisitions := s.acquisitions ++ [({ relayId } : SlotAcquisition)] } _ :=
      Fuller.take new s.waiting
    refine fuller.stays ?_
    exact fair.stranded other member acquisition ((old other acquisition is).resolve_left fun its => different its.1)
  · rename_i full
    refine ⟨⟨?_, fun other => ?_, counted.perRelay, counted.within, once, ?_, fun other => ?_⟩, ?_⟩
    · exact counted.opened.trans (countP_append_waiting _ rfl).symm
    · exact (counted.usage other).trans (countP_append_waiting _ rfl).symm
    · exact nodup_append.mpr ⟨counted.distinct, nodup_singleton _, fun earlier member now is same =>
        notYet (mem_singleton.mp is ▸ same ▸ member)⟩
    · rw [mem_append, mem_singleton, counted.waiting]
      constructor
      · rintro (⟨acquisition, is, status⟩ | rfl)
        · exact ⟨acquisition, before other acquisition is, status⟩
        · exact ⟨_, new, rfl⟩
      · rintro ⟨acquisition, is, status⟩
        rcases old other acquisition is with ⟨same, -⟩ | earlier
        · exact .inr same
        · exact .inl ⟨acquisition, earlier, status⟩
    · intro other member acquisition is
      rcases old other acquisition is with ⟨-, rfl⟩ | earlier
      · exact Bool.eq_false_iff.mpr full
      · rcases mem_append.mp member with waits | now
        · exact fair.stranded other waits acquisition earlier
        · have below := (List.getElem?_eq_some_iff.mp earlier).1
          rw [mem_singleton.mp now] at below
          exact absurd below (Nat.lt_irrefl _)

theorem Fair.timeout (fair : s.Fair capacity) (call : Nat) {s' : SlotsState}
    (next : s.next capacity (.timeout call) = some s') : s'.Fair capacity := by
  have counted := fair.toCounted
  simp only [SlotsState.next] at next
  split at next
  · rename_i acquisition is
    obtain ⟨member, now⟩ := Option.ite_none_right_eq_some.mp next
    cases now
    obtain ⟨same, is', status⟩ := (counted.waiting call).mp member
    obtain rfl := Option.some.inj (is'.symm.trans is)
    have its := counted.once same (mem_of_getElem? is)
    rw [SlotAcquisition.Once, status] at its
    have no : same.holds = false := by rw [SlotAcquisition.holds, status]; rfl
    have unchanged : ∀ p : SlotAcquisition → Bool, p same = false → p { same with status := .refused } = false →
        (s.acquisitions.set call { same with status := .refused }).countP p = s.acquisitions.countP p := by
      intro p out out'
      have count := countP_set_of p { same with status := .refused } is
      rw [out, out', if_neg Bool.false_ne_true, Nat.add_zero, Nat.add_zero] at count
      exact count
    refine ⟨⟨?_, fun relayId => ?_, counted.perRelay, counted.within, fun other among => ?_,
      counted.distinct.erase _, counted.stops is nofun⟩, fun other among value found => ?_⟩
    · exact counted.opened.trans (unchanged _ no rfl).symm
    · refine (counted.usage relayId).trans (unchanged _ ?_ ?_).symm
      · rw [no, Bool.false_and]
      · rfl
    · rcases mem_or_eq_of_mem_set among with before | rfl
      · exact counted.once other before
      · exact its
    · obtain ⟨different, waits⟩ := counted.distinct.mem_erase_iff.mp among
      change (s.acquisitions.set call _)[other]? = some value at found
      rw [getElem?_set_of is, if_neg different] at found
      exact fair.stranded other waits value found
  · cases next

theorem Fair.release (fair : s.Fair capacity) (call : Nat) (next : s.next capacity (.release call) = some s') :
    s'.Fair capacity := by
  have counted := fair.toCounted
  simp only [SlotsState.next] at next
  split at next
  · rename_i acquisition is
    split at next
    · rename_i status
      cases next
      have its := counted.once acquisition (mem_of_getElem? is)
      rw [SlotAcquisition.Once, status] at its
      have yes : acquisition.holds = true := by rw [SlotAcquisition.holds, status]; rfl
      generalize released : ({ acquisition with status := .released, given := acquisition.given + 1 } :
        SlotAcquisition) = value
      have no : value.holds = false := by rw [← released]; rfl
      have mine : value.relayId = acquisition.relayId := by rw [← released]
      refine foldl_wake ⟨?_, fun relayId => ?_, fun relayId => ?_, ?_, fun other among => ?_, counted.distinct,
        fun other => ?_⟩ (fun other member => .inl member) (fun _ member => member) counted.distinct
      · have count := countP_set_of SlotAcquisition.holds value is
        rw [no, yes, ← counted.opened, if_neg Bool.false_ne_true, if_pos rfl] at count
        change s.opened - 1 = (s.acquisitions.set call value).countP _
        omega
      · have count := countP_set_of (fun acquisition => acquisition.holds && acquisition.relayId = relayId) value is
        rw [no, yes, Bool.false_and, Bool.true_and, ← counted.usage, if_neg Bool.false_ne_true] at count
        change update s.usage acquisition.relayId (s.usage acquisition.relayId - 1) relayId =
          (s.acquisitions.set call value).countP _
        by_cases equal : acquisition.relayId = relayId
        · rw [decide_eq_true equal, if_pos rfl] at count
          rw [equal, update_self]
          omega
        · rw [decide_eq_false equal, if_neg Bool.false_ne_true] at count
          rw [update_of_ne fun is => equal is.symm]
          exact count.symm
      · change update s.usage acquisition.relayId (s.usage acquisition.relayId - 1) relayId ≤ _
        by_cases equal : relayId = acquisition.relayId
        · rw [equal, update_self]
          exact Nat.le_trans (Nat.sub_le _ _) (counted.perRelay _)
        · rw [update_of_ne equal]
          exact counted.perRelay relayId
      · exact Nat.le_trans (Nat.sub_le _ _) counted.within
      · rcases mem_or_eq_of_mem_set among with before | rfl
        · exact counted.once other before
        · rw [← released]
          exact ⟨its.1, by rw [its.2]⟩
      · rw [counted.waiting, getElem?_set_of is]
        by_cases same : other = call
        · rw [if_pos same, same, is]
          simp only [Option.some.injEq, exists_eq_left', status, ← released, reduceCtorEq]
        · rw [if_neg same]
    · cases next
      exact fair
    · cases next
  · cases next

theorem Fair.next (fair : s.Fair capacity) {event : SlotEvent} (next : s.next capacity event = some s') :
    s'.Fair capacity := by
  cases event with
  | acquire relayId => exact fair.acquire relayId next
  | timeout call => exact fair.timeout call next
  | release call => exact fair.release call next

theorem fair_of_reachable (reached : (slotSystem capacity).Reachable s) : s.Fair capacity := by
  refine reached.invariant (fun s is => ?_) fun s event s' fair step => fair.next step
  rw [show s = {} from is]
  refine ⟨⟨rfl, fun _ => rfl, fun _ => Nat.zero_le _, Nat.zero_le _, nofun, nodup_nil, fun call => ?_⟩, nofun⟩
  simp

end SlotsState

end Kiln.Hearth
