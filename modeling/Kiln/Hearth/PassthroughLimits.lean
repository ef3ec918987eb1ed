import Kiln.Hearth.PassthroughPacer
import Kiln.Hearth.PassthroughSlots

/-!
# What passthrough is limited to

The budget is a ledger: a piece that is charged takes its bytes from it, and one that is given back returns them. So
within an interval what was passed on came out of the refills of that interval, of what the budget held as it began,
or of pieces that were in hand by then. Over every run of apps/web/src/lib/relay-passthrough-limits.server.ts.
-/

namespace Kiln.Hearth
open Kiln.Lib PieceStatus List

/-! ## Bytes -/

theorem bytesWith_eq_sum (which : PieceStatus → Bool) (pieces : List Piece) :
    bytesWith which pieces = (pieces.map fun piece => if which piece.status then piece.bytes else 0).sum := by
  induction pieces with
  | nil => rfl
  | cons piece rest ih =>
    rw [bytesWith] at ih ⊢
    rw [map_cons, sum_cons, ← ih, filter_cons]
    split
    · rw [map_cons, sum_cons]
    · rw [Nat.zero_add]

theorem bytesWith_append_queued (which : PieceStatus → Bool) (no : which .queued = false) (pieces : List Piece)
    (bytes : Nat) : bytesWith which (pieces ++ [⟨bytes, .queued⟩]) = bytesWith which pieces := by
  rw [bytesWith_eq_sum, bytesWith_eq_sum, map_append, sum_append]
  simp [no]

/-- A piece's bytes leave one sum and enter another as its status changes. -/
theorem bytesWith_modify (which : PieceStatus → Bool) {pieces : List Piece} {piece : Nat} {value : Piece}
    (is : pieces[piece]? = some value) (status : PieceStatus) :
    bytesWith which (pieces.modify piece fun value => { value with status }) +
        (if which value.status then value.bytes else 0) =
      bytesWith which pieces + if which status then value.bytes else 0 := by
  rw [bytesWith_eq_sum, bytesWith_eq_sum]
  induction pieces generalizing piece with
  | nil => cases is
  | cons first rest ih =>
    cases piece with
    | zero =>
      rw [getElem?_cons_zero] at is
      obtain rfl := Option.some.inj is
      rw [modify_zero_cons, map_cons, sum_cons, map_cons, sum_cons]
      change (if which status then first.bytes else 0) + _ + _ = _
      omega
    | succ piece =>
      have rest := ih is
      rw [modify_succ_cons, map_cons, sum_cons, map_cons, sum_cons]
      omega

theorem largestPiece_modify (pieces : List Piece) (piece : Nat) (status : PieceStatus) :
    largestPiece (pieces.modify piece fun value => { value with status }) = largestPiece pieces := by
  induction pieces generalizing piece with
  | nil => rw [modify_nil]
  | cons first rest ih =>
    cases piece with
    | zero => rfl
    | succ piece => exact congrArg (max first.bytes) (ih piece)

theorem largestPiece_le_append (pieces : List Piece) (added : Piece) :
    largestPiece pieces ≤ largestPiece (pieces ++ [added]) := by
  induction pieces with
  | nil => exact Nat.zero_le _
  | cons first rest ih => exact max_le_max_left first.bytes ih

theorem bytes_le_largestPiece {pieces : List Piece} {value : Piece} (member : value ∈ pieces) :
    value.bytes ≤ largestPiece pieces := by
  induction pieces with
  | nil => exact absurd member not_mem_nil
  | cons first rest ih =>
    rcases mem_cons.mp member with rfl | later
    · exact le_max_left _ _
    · exact le_max_of_le_right (ih later)

namespace PacerState

variable {rate : Rat} {base floor : Rat} {s : PacerState}

/-- What was passed on, or may still be without another charge. -/
def spent (s : PacerState) : Rat := bytesWith isPassed s.pieces + bytesWith inHand s.pieces

/-- What may be spent since the clock's forward time was `floor`, where `base` was spent by then. -/
def allowance (rate base floor : Rat) (s : PacerState) : Rat :=
  base + max rate (largestPiece s.pieces) + rate * ((s.forwardAt - floor) / 1000)

/-- What every step keeps, but for the timer and the microtasks. -/
structure Paced (rate base floor : Rat) (s : PacerState) : Prop where
  budget : 0 ≤ s.budget
  queued : ∀ piece ∈ s.queue, ∃ value, s.pieces[piece]? = some value ∧ value.status = .queued
  came : ∀ piece ∈ s.granted, piece < s.pieces.length
  ordered : (s.granted ++ s.queue).Pairwise (· < ·)
  ledger : s.budget + s.spent = s.refilled
  behind : s.now - s.refilledAt ≤ s.forward - s.forwardAt
  refills : s.forwardAt ≤ s.forward
  since : floor ≤ s.forward
  kept : s.spent ≤ base ∨ floor ≤ s.forwardAt ∧ s.spent + s.budget ≤ allowance rate base floor s

/-- The timer and the microtasks don't matter to it. -/
theorem Paced.aside (paced : s.Paced rate base floor) (pacer : Option Int) (microtasks : List (List Nat)) :
    Paced rate base floor { s with pacer, microtasks } :=
  ⟨paced.budget, paced.queued, paced.came, paced.ordered, paced.ledger, paced.behind, paced.refills, paced.since,
    paced.kept⟩

theorem Paced.rebase (paced : s.Paced rate base floor) : s.Paced rate s.spent s.forward :=
  { paced with since := le_refl _, kept := .inl (le_refl _) }

variable {piece : Nat} {value : Piece}

theorem Paced.setStatus (paced : s.Paced rate base floor) (is : s.pieces[piece]? = some value)
    (status : PieceStatus) (credit : Rat) (balanced : (s.setStatus piece status).spent + credit = s.spent)
    (budget : 0 ≤ s.budget + credit)
    (covered : 0 ≤ credit ∨ floor ≤ s.forwardAt ∧ s.spent + s.budget ≤ allowance rate base floor s)
    (queue granted : List Nat) (queued : ∀ other ∈ queue, other ≠ piece ∧ other ∈ s.queue)
    (came : ∀ other ∈ granted, other = piece ∨ other ∈ s.granted)
    (ordered : (granted ++ queue).Pairwise (· < ·)) :
    Paced rate base floor { s.setStatus piece status with budget := s.budget + credit, queue, granted } where
  budget := budget
  queued := by
    intro other member
    obtain ⟨different, before⟩ := queued other member
    obtain ⟨its, found, waits⟩ := paced.queued other before
    exact ⟨its, (List.getElem?_modify_ne _ _ different.symm).trans found, waits⟩
  came := by
    intro other member
    change other < (s.pieces.modify piece _).length
    rw [List.length_modify]
    rcases came other member with rfl | before
    · exact (List.getElem?_eq_some_iff.mp is).1
    · exact paced.came other before
  ordered := ordered
  ledger := by
    have ledger := paced.ledger
    change s.budget + credit + (s.setStatus piece status).spent = s.refilled
    linarith
  behind := paced.behind
  refills := paced.refills
  since := paced.since
  kept := by
    have same : allowance rate base floor (s.setStatus piece status) = allowance rate base floor s := by
      unfold allowance
      rw [show (s.setStatus piece status).pieces = s.pieces.modify piece _ from rfl, largestPiece_modify]
      rfl
    change (s.setStatus piece status).spent ≤ base ∨ floor ≤ s.forwardAt ∧
      (s.setStatus piece status).spent + (s.budget + credit) ≤ allowance rate base floor (s.setStatus piece status)
    rw [same]
    rcases paced.kept with low | ⟨since, within⟩
    · rcases covered with more | ⟨since, within⟩
      · exact .inl (by linarith)
      · exact .inr ⟨since, by linarith⟩
    · exact .inr ⟨since, by linarith⟩

/-- How a status change moves what was spent. -/
theorem spent_setStatus {piece : Nat} {value : Piece} (is : s.pieces[piece]? = some value) (status : PieceStatus) :
    (s.setStatus piece status).spent +
        ((if value.status.isPassed then value.bytes else 0 : Nat) + (if value.status.inHand then value.bytes else 0 : Nat)) =
      s.spent + ((if status.isPassed then value.bytes else 0 : Nat) + (if status.inHand then value.bytes else 0 : Nat)) := by
  have passed := bytesWith_modify isPassed is status
  have hand := bytesWith_modify inHand is status
  have passed' : ((_ : Nat) : Rat) = _ := congrArg Nat.cast passed
  have hand' : ((_ : Nat) : Rat) = _ := congrArg Nat.cast hand
  rw [Nat.cast_add, Nat.cast_add] at passed' hand'
  change (bytesWith _ (s.pieces.modify piece _) : Rat) + bytesWith _ (s.pieces.modify piece _) + _ = _
  unfold spent
  linarith

theorem allowance_of_pieces (s s' : PacerState) (same : s'.pieces = s.pieces) : allowance rate base floor s' =
      base + max rate (largestPiece s.pieces) + rate * ((s'.forwardAt - floor) / 1000) := by
  unfold allowance
  rw [same]

/-- A refill adds no more than the rate's worth of the forward time since the last one, and brings the budget up to
no more than a second's worth or the piece's, so that what is charged next is within the allowance. -/
theorem Paced.refill (paced : s.Paced rate base floor) (positive : 0 < rate) (is : s.pieces[piece]? = some value) :
    (s.refill rate value.bytes).Paced rate base floor ∧ floor ≤ (s.refill rate value.bytes).forwardAt ∧
      (s.refill rate value.bytes).spent + (s.refill rate value.bytes).budget ≤
        allowance rate base floor (s.refill rate value.bytes) := by
  have elapsed : 0 ≤ max 0 (s.now - s.refilledAt) := le_max_left _ _
  have short : max 0 (s.now - s.refilledAt) ≤ s.forward - s.forwardAt :=
    max_le (by linarith [paced.refills]) paced.behind
  have added : max 0 (s.now - s.refilledAt) / 1000 * rate ≤ rate * ((s.forward - s.forwardAt) / 1000) := by
    rw [mul_comm]
    exact mul_le_mul_of_nonneg_left (by linarith) positive.le
  have nonneg : 0 ≤ max 0 (s.now - s.refilledAt) / 1000 * rate := by positivity
  have top : max rate (value.bytes : Rat) ≤ max rate (largestPiece s.pieces) :=
    max_le_max_left rate (Nat.cast_le.mpr (bytes_le_largestPiece (mem_of_getElem? is)))
  have most : (s.refill rate value.bytes).budget ≤ max rate value.bytes := min_le_left _ _
  have gained : (s.refill rate value.bytes).budget ≤ s.budget + max 0 (s.now - s.refilledAt) / 1000 * rate :=
    min_le_right _ _
  have within : (s.refill rate value.bytes).spent + (s.refill rate value.bytes).budget ≤
      allowance rate base floor (s.refill rate value.bytes) := by
    have since : 0 ≤ rate * ((s.forward - floor) / 1000) :=
      mul_nonneg positive.le (by linarith [paced.since])
    rw [allowance_of_pieces s (s.refill rate value.bytes) rfl]
    change s.spent + (s.refill rate value.bytes).budget ≤ _ + rate * ((s.forward - floor) / 1000)
    rcases paced.kept with low | ⟨-, low⟩
    · linarith
    · have parts : rate * ((s.forward - floor) / 1000) =
          rate * ((s.forward - s.forwardAt) / 1000) + rate * ((s.forwardAt - floor) / 1000) := by ring
      rw [allowance] at low
      linarith
  refine ⟨⟨?_, paced.queued, paced.came, paced.ordered, ?_, ?_, le_refl _, paced.since, .inr ⟨paced.since, within⟩⟩,
    paced.since, within⟩
  · exact le_min (le_max_of_le_left positive.le) (add_nonneg paced.budget nonneg)
  · have ledger := paced.ledger
    change (s.refill rate value.bytes).budget + s.spent = s.refilled + ((s.refill rate value.bytes).budget - s.budget)
    linarith
  · change s.now - s.now ≤ s.forward - s.forward
    rw [sub_self, sub_self]

theorem bytesAt_of (is : s.pieces[piece]? = some value) : s.bytesAt piece = value.bytes := by
  rw [bytesAt, is]
  rfl

theorem Paced.paceLoop (positive : 0 < rate) (queue : List Nat) {s : PacerState}
    (paced : Paced rate base floor { s with queue }) :
    (paceLoop rate queue s).2.Paced rate base floor ∧
      (paceLoop rate queue s).2.granted = s.granted ++ (paceLoop rate queue s).1 ∧
      (paceLoop rate queue s).2.microtasks = s.microtasks ∧
      ((paceLoop rate queue s).2.queue ≠ [] → (paceLoop rate queue s).2.pacer ≠ none) := by
  induction queue generalizing s with
  | nil => exact ⟨paced, (append_nil _).symm, rfl, fun some => absurd rfl some⟩
  | cons piece rest ih =>
    obtain ⟨value, is, waits⟩ := paced.queued piece mem_cons_self
    have bytes : s.bytesAt piece = value.bytes := bytesAt_of is
    obtain ⟨filled, since, within⟩ := paced.refill positive is
    rw [PacerState.paceLoop]
    simp only [bytes]
    split
    · exact ⟨filled.aside _ _, (append_nil _).symm, rfl, nofun⟩
    rename_i enough
    have first := pairwise_append.mp paced.ordered
    have distinct := (pairwise_cons.mp first.2.1).1
    have charged : Paced rate base floor { (s.refill rate value.bytes).charge piece with queue := rest } := by
      have its : ((s.refill rate value.bytes).bytesAt piece : Rat) = value.bytes := congrArg Nat.cast bytes
      have moved := @spent_setStatus (s.refill rate value.bytes) piece value is .charged
      rw [waits] at moved
      have balanced : ((s.refill rate value.bytes).setStatus piece .charged).spent + -(value.bytes : Rat) =
          (s.refill rate value.bytes).spent := by
        simp only [isPassed, inHand] at moved
        simp at moved
        linarith
      have now := filled.setStatus is .charged (-(value.bytes : Rat)) balanced
        (by have := not_lt.mp enough; change 0 ≤ (s.refill rate value.bytes).budget + _; linarith)
        (.inr ⟨since, within⟩) rest (s.granted ++ [piece])
        (fun other member => ⟨ne_of_gt (distinct other member), mem_cons_of_mem _ member⟩)
        (fun other member => (mem_append.mp member).elim .inr fun last => .inl (mem_singleton.mp last))
        (by rw [append_assoc]; exact paced.ordered)
      have same : (s.refill rate value.bytes).budget + -(value.bytes : Rat) =
          ((s.refill rate value.bytes).charge piece).budget := by
        rw [← its]
        exact (sub_eq_add_neg _ _).symm
      rw [show ({ (s.refill rate value.bytes).charge piece with queue := rest } : PacerState) =
        { (s.refill rate value.bytes).setStatus piece .charged with
          budget := (s.refill rate value.bytes).budget + -(value.bytes : Rat)
          queue := rest
          granted := s.granted ++ [piece] } from by rw [same]; rfl]
      exact now
    obtain ⟨after, granted, microtasks, timer⟩ := ih charged
    refine ⟨after, ?_, microtasks, timer⟩
    rw [granted]
    exact append_assoc _ _ _

/-- What holds of the pacer at every step. -/
structure Held (rate base floor : Rat) (s : PacerState) : Prop extends s.Paced rate base floor where
  resolves : s.microtasks.flatten <:+ s.granted
  timer : s.queue ≠ [] → s.pacer ≠ none

theorem Paced.pace (paced : s.Paced rate base floor) (positive : 0 < rate)
    (resolves : s.microtasks.flatten <:+ s.granted) : (s.pace rate).Held rate base floor := by
  obtain ⟨after, granted, microtasks, timer⟩ := Paced.paceLoop positive s.queue
    (show Paced rate base floor { ({ s with pacer := none } : PacerState) with queue := s.queue } from
      paced.aside none s.microtasks)
  refine ⟨after.aside _ _, ?_, timer⟩
  change (_ ++ [_]).flatten <:+ (PacerState.paceLoop rate s.queue { s with pacer := none }).2.granted
  rw [granted, microtasks, flatten_append, flatten_singleton]
  obtain ⟨before, is⟩ := resolves
  refine ⟨before, ?_⟩
  rw [← append_assoc]
  exact congrArg (· ++ _) is

theorem Paced.nodup (paced : s.Paced rate base floor) : s.queue.Nodup :=
  ((pairwise_append.mp paced.ordered).2.1).imp Nat.ne_of_lt

/-- A piece that doesn't wait isn't in the queue. -/
theorem Paced.elsewhere (paced : s.Paced rate base floor) (is : s.pieces[piece]? = some value)
    (no : value.status ≠ .queued) (other : Nat) (member : other ∈ s.queue) :
    other ≠ piece ∧ other ∈ s.queue := by
  refine ⟨?_, member⟩
  rintro rfl
  obtain ⟨same, found, waits⟩ := paced.queued _ member
  exact no (Option.some.inj (is.symm.trans found) ▸ waits)

/-- A status changes of a piece that doesn't wait, and its bytes go back with it, or stay spent. -/
theorem Paced.settles (paced : s.Paced rate base floor)
    (is : s.pieces[piece]? = some value) (no : value.status ≠ .queued) (status : PieceStatus) (credit : Nat)
    (balanced : (if status.isPassed then value.bytes else 0) + (if status.inHand then value.bytes else 0) + credit =
      (if value.status.isPassed then value.bytes else 0) + if value.status.inHand then value.bytes else 0) :
    Paced rate base floor { s.setStatus piece status with budget := s.budget + credit } := by
  have moved := spent_setStatus is status
  have balanced' : ((_ : Nat) : Rat) = _ := congrArg Nat.cast balanced
  rw [Nat.cast_add, Nat.cast_add, Nat.cast_add] at balanced'
  exact paced.setStatus is status credit (by linarith) (add_nonneg paced.budget (Nat.cast_nonneg _))
    (.inl (Nat.cast_nonneg _)) s.queue s.granted (paced.elsewhere is no) (fun _ member => .inr member) paced.ordered

theorem Paced.grant (paced : s.Paced rate base floor) (piece : Nat) : (s.grant piece).Paced rate base floor := by
  rw [PacerState.grant]
  split
  · rename_i bytes is
    have now := paced.settles is nofun .resolved 0 rfl
    rw [Nat.cast_zero, add_zero] at now
    exact now
  · exact paced

theorem grant_keeps (s : PacerState) (piece : Nat) : (s.grant piece).queue = s.queue ∧
    (s.grant piece).pacer = s.pacer ∧ (s.grant piece).microtasks = s.microtasks ∧
    (s.grant piece).granted = s.granted := by
  rw [PacerState.grant]
  split <;> exact ⟨rfl, rfl, rfl, rfl⟩

theorem Held.grants (held : s.Held rate base floor) (pieces : List Nat) :
    (pieces.foldl PacerState.grant s).Held rate base floor := by
  induction pieces generalizing s with
  | nil => exact held
  | cons piece rest ih =>
    obtain ⟨queue, pacer, microtasks, granted⟩ := grant_keeps s piece
    refine ih ⟨held.toPaced.grant piece, ?_, ?_⟩
    · rw [microtasks, granted]
      exact held.resolves
    · rw [queue, pacer]
      exact held.timer

theorem Paced.ask (paced : s.Paced rate base floor) (bytes : Nat) : Paced rate base floor { s with
      pieces := s.pieces ++ [⟨bytes, .queued⟩]
      queue := s.queue ++ [s.pieces.length] } := by
  have old : ∀ {piece : Nat} {value : Piece}, s.pieces[piece]? = some value →
      (s.pieces ++ [(⟨bytes, .queued⟩ : Piece)])[piece]? = some value := by
    intro piece value is
    rw [List.getElem?_append_left (List.getElem?_eq_some_iff.mp is).1]
    exact is
  generalize asked : ({ s with
    pieces := s.pieces ++ [⟨bytes, .queued⟩]
    queue := s.queue ++ [s.pieces.length] } : PacerState) = s'
  have pieces : s'.pieces = s.pieces ++ [⟨bytes, .queued⟩] := by rw [← asked]
  have spent : s'.spent = s.spent := by
    rw [PacerState.spent, pieces, bytesWith_append_queued _ rfl, bytesWith_append_queued _ rfl]
    rfl
  have larger : allowance rate base floor s ≤ allowance rate base floor s' := by
    rw [allowance, allowance, pieces, show s'.forwardAt = s.forwardAt by rw [← asked]]
    have larger : max rate (largestPiece s.pieces : Rat) ≤ max rate (largestPiece (s.pieces ++ [⟨bytes, .queued⟩])) :=
      max_le_max_left rate (Nat.cast_le.mpr (largestPiece_le_append _ _))
    linarith
  subst asked
  refine ⟨paced.budget, fun piece member => ?_, fun piece member => ?_, ?_, ?_, paced.behind, paced.refills,
    paced.since, ?_⟩
  · rcases List.mem_append.mp member with before | now
    · obtain ⟨value, is, waits⟩ := paced.queued piece before
      exact ⟨value, old is, waits⟩
    · rw [List.mem_singleton.mp now]
      exact ⟨_, List.getElem?_concat_length, rfl⟩
  · rw [List.length_append]
    exact Nat.lt_add_right _ (paced.came piece member)
  · rw [← List.append_assoc]
    refine List.pairwise_append.mpr ⟨paced.ordered, List.pairwise_singleton _ _, fun piece member last now => ?_⟩
    rw [List.mem_singleton.mp now]
    rcases List.mem_append.mp member with granted | waits
    · exact paced.came piece granted
    · obtain ⟨value, is, -⟩ := paced.queued piece waits
      exact (List.getElem?_eq_some_iff.mp is).1
  · exact (congrArg (s.budget + ·) spent).trans paced.ledger
  · rw [spent]
    rcases paced.kept with low | ⟨since, within⟩
    · exact .inl low
    · exact .inr ⟨since, within.trans larger⟩

theorem Paced.leaves (paced : s.Paced rate base floor) {bytes : Nat} (is : s.pieces[piece]? = some ⟨bytes, .queued⟩) :
    Paced rate base floor { s.setStatus piece .abandoned with queue := s.queue.erase piece } := by
  have moved := spent_setStatus is .abandoned
  have same : (s.setStatus piece .abandoned).spent + 0 = s.spent := by
    simpa [isPassed, inHand] using moved
  have now := paced.setStatus is .abandoned 0 same (by linarith [paced.budget]) (.inl (le_refl _))
    (s.queue.erase piece) s.granted (fun other member => paced.nodup.mem_erase_iff.mp member)
    (fun _ member => .inr member) (paced.ordered.sublist ((erase_sublist).append_left _))
  rw [add_zero] at now
  exact now

theorem Paced.tick (paced : s.Paced rate base floor) (now : Rat) :
    Paced rate base floor { s with now, forward := s.forward + max 0 (now - s.now) } := by
  have ahead : 0 ≤ max 0 (now - s.now) := le_max_left _ _
  have moved : now - s.now ≤ max 0 (now - s.now) := le_max_right _ _
  have behind := paced.behind
  refine ⟨paced.budget, paced.queued, paced.came, paced.ordered, paced.ledger, ?_, ?_, ?_, paced.kept⟩
  · change now - s.refilledAt ≤ s.forward + max 0 (now - s.now) - s.forwardAt
    linarith
  · exact le_add_of_le_of_nonneg paced.refills ahead
  · exact le_add_of_le_of_nonneg paced.since ahead

variable {s' : PacerState}

theorem Held.next (held : s.Held rate base floor) (positive : 0 < rate) {event : PacerEvent}
    (next : s.next rate event = some s') : s'.Held rate base floor := by
  have paced := held.toPaced
  cases event with
  | ask bytes =>
    cases next
    exact (paced.ask bytes).pace positive held.resolves
  | abort piece =>
    simp only [PacerState.next] at next
    split at next
    · rename_i bytes is
      cases next
      exact (paced.leaves is).pace positive held.resolves
    · rename_i bytes is
      cases next
      exact (paced.settles is nofun .abandoned bytes (by simp [isPassed, inHand])).pace positive held.resolves
    · cases next
  | timer =>
    obtain ⟨-, now⟩ := Option.ite_none_right_eq_some.mp next
    cases now
    exact paced.pace positive held.resolves
  | microtask =>
    simp only [PacerState.next] at next
    split at next
    · cases next
    rename_i granted rest is
    cases next
    have resolves := held.resolves
    rw [is, flatten_cons] at resolves
    have first : ({ s with microtasks := rest } : PacerState).Held rate base floor :=
      ⟨paced.aside s.pacer rest, (suffix_append _ _).trans resolves, held.timer⟩
    exact first.grants granted
  | pass piece =>
    simp only [PacerState.next] at next
    split at next
    · rename_i bytes is
      cases next
      have now := paced.settles is nofun .passed 0 (Nat.zero_add _).symm
      rw [Nat.cast_zero, add_zero] at now
      exact ⟨now, held.resolves, held.timer⟩
    · cases next
  | refund piece =>
    simp only [PacerState.next] at next
    split at next
    · rename_i bytes is
      cases next
      exact ⟨paced.settles is nofun .refunded bytes (by simp [isPassed, inHand]), held.resolves, held.timer⟩
    · cases next
  | tick now =>
    cases next
    exact ⟨paced.tick now, held.resolves, held.timer⟩

theorem held_of_reachable (positive : 0 < rate) (reached : (pacerSystem rate).Reachable s) : s.Held rate 0 0 := by
  refine reached.invariant (fun s is => ?_) fun s event s' held step => held.next positive step
  obtain ⟨now, rfl⟩ := is
  refine ⟨⟨le_refl _, nofun, nofun, .nil, ?_, ?_, le_refl _, le_refl _, .inl ?_⟩, suffix_refl _, nofun⟩
  · simp [spent, bytesWith]
  · simp
  · simp [spent, bytesWith]

theorem Held.run (held : s.Held rate base floor) (positive : 0 < rate) {events : List PacerEvent}
    (ran : (pacerSystem rate).Run s events s') : s'.Held rate base floor := by
  induction ran with
  | nil => exact held
  | snoc _ step ih => exact ih.next positive step

theorem Held.paces (held : s.Held rate base floor) : s.Paces rate where
  ordered := held.ordered
  resolves := held.resolves
  ledger := by
    rw [add_assoc]
    exact held.ledger
  timer := held.timer

/-- What was passed on since `floor` came out of `base` or the allowance. -/
theorem Paced.passed_le (paced : s.Paced rate base floor) (positive : 0 < rate) : (bytesWith isPassed s.pieces : Rat) ≤
      base + (rate * ((s.forward - floor) / 1000) + max rate (largestPiece s.pieces)) := by
  have hand : (0 : Rat) ≤ bytesWith inHand s.pieces := Nat.cast_nonneg _
  have most : 0 ≤ max rate (largestPiece s.pieces : Rat) := le_max_of_le_left positive.le
  have worth : 0 ≤ rate * ((s.forward - floor) / 1000) := mul_nonneg positive.le (by linarith [paced.since])
  have kept := paced.kept
  rw [spent, allowance] at kept
  rcases kept with low | ⟨-, within⟩
  · linarith
  · have later : rate * ((s.forwardAt - floor) / 1000) ≤ rate * ((s.forward - floor) / 1000) :=
      mul_le_mul_of_nonneg_left (by linarith [paced.refills]) positive.le
    linarith [paced.budget]

theorem limitedInHand_of_run (positive : 0 < rate) (reached : (pacerSystem rate).Reachable s)
    {events : List PacerEvent} (ran : (pacerSystem rate).Run s events s') :
    LimitedInHand rate s s' := by
  have start := held_of_reachable positive reached
  have first : s.Held rate s.spent s.forward := ⟨start.rebase, start.resolves, start.timer⟩
  have after := first.run positive ran
  have passed := after.passed_le positive
  rw [spent] at passed
  unfold LimitedInHand
  linarith

end PacerState

/-! ## Both limits -/

/-- Slots and pacer keep to their limits: the slots in every state, for any capacity; the pacer in every state and
over every interval, at any rate, with what was in hand as the interval began. -/
theorem passthrough_limited (capacity : Nat) (slots : SlotsState) (taken : (slotSystem capacity).Reachable slots)
    (rate : Rat) (positive : 0 < rate) (s s' : PacerState) (events : List PacerEvent)
    (reached : (pacerSystem rate).Reachable s) (ran : (pacerSystem rate).Run s events s') :
    slots.Fair capacity ∧ s.Paces rate ∧ PacerState.LimitedInHand rate s s' :=
  ⟨SlotsState.fair_of_reachable taken, (PacerState.held_of_reachable positive reached).paces,
    PacerState.limitedInHand_of_run positive reached ran⟩

/-- Five waiters of two Relays at a capacity of two, with a time-out and a release made twice. -/
def slotsRun : List SlotEvent :=
  [.acquire "a", .acquire "b", .acquire "a", .acquire "b", .timeout 2, .release 0, .release 0, .acquire "a"]

/-- Two pieces that are passed on after one is given back that was charged a second before. -/
def heldBackBefore : List PacerEvent := [.tick 1000, .ask 1000, .microtask, .tick 2000]

def heldBackAfter : List PacerEvent := [.ask 1000, .refund 0, .ask 1000, .microtask, .microtask, .pass 1, .pass 2]

def heldBackStart : PacerState := (runAll (PacerState.next 1000) {} heldBackBefore).get (by decide +kernel)

def heldBackEnd : PacerState := (runAll (PacerState.next 1000) heldBackStart heldBackAfter).get (by decide +kernel)

theorem heldBack_reached : (pacerSystem 1000).Reachable heldBackStart :=
  System.reachable_of_runAll _ _ ⟨0, rfl⟩ _ _

theorem heldBack_ran : (pacerSystem 1000).Run heldBackStart heldBackAfter heldBackEnd :=
  System.run_of_runAll (Option.some_get _).symm

theorem passthrough_limited_heldBack :
    ∃ slots, (slotSystem 2).Reachable slots ∧ slots.waiting = [4] ∧ slots.Fair 2 ∧ heldBackStart.Paces 1000 ∧
      PacerState.LimitedInHand 1000 heldBackStart heldBackEnd := by
  have ran : (runAll (SlotsState.next 2) {} slotsRun).any (fun slots => slots.waiting = [4]) = true := by decide +kernel
  rw [Option.any_eq_true] at ran
  obtain ⟨slots, is, waits⟩ := ran
  have taken : (slotSystem 2).Reachable slots := ⟨_, _, rfl, System.run_of_runAll is⟩
  exact ⟨slots, taken, of_decide_eq_true waits,
    passthrough_limited 2 slots taken 1000 (by norm_num) _ _ _ heldBack_reached heldBack_ran⟩

/-- More may be passed on in an interval than the rate's worth and a second's or a piece's. -/
theorem interval_over_limit :
    ¬ ∀ (rate : Rat), 0 < rate → ∀ (s s' : PacerState) (events : List PacerEvent),
      (pacerSystem rate).Reachable s → (pacerSystem rate).Run s events s' → PacerState.Limited rate s s' := by
  intro limited
  have within := limited 1000 (by norm_num) _ _ _ heldBack_reached heldBack_ran
  have beyond : ¬ PacerState.Limited 1000 heldBackStart heldBackEnd := by
    unfold PacerState.Limited
    decide +kernel
  exact beyond within

end Kiln.Hearth
