import Mathlib
import Kiln.Lib.Transition

/-!
# The passthrough pacer

`awaitRate`, `refundRate` and `pace` of apps/web/src/lib/relay-passthrough-limits.server.ts at a rate that is set and
stays as it is, with rational numbers for the budget and the clock. What runs between two awaits is one step: a piece
is charged as it leaves the queue, its promise is resolved in a microtask of its own, and it is passed on, or given
back, once its transfer goes on. The clock may step back.
-/

namespace Kiln.Hearth
open Kiln.Lib

inductive PieceStatus where
  | queued
  /-- Granted: its microtask is still to run. -/
  | charged
  | resolved
  | passed
  /-- Given back once resolved. -/
  | refunded
  | abandoned
  deriving DecidableEq

structure Piece where
  bytes : Nat
  status : PieceStatus := .queued
  deriving DecidableEq

structure PacerState where
  budget : Rat := 0
  /-- Milliseconds, as is the clock. -/
  refilledAt : Rat := 0
  now : Rat := 0
  /-- `rateQueue`, by the numbers of the pieces -/
  queue : List Nat := []
  /-- The delay of the timer, if one is set. -/
  pacer : Option Int := none
  /-- The pieces that each microtask still to run grants. -/
  microtasks : List (List Nat) := []
  /-- Every piece that was asked for, in the order in which they came. -/
  pieces : List Piece := []
  /-- The pieces that were charged, in their order. -/
  granted : List Nat := []
  /-- How far the clock went forward, and how far it had when the budget was refilled. -/
  forward : Rat := 0
  forwardAt : Rat := 0
  /-- What refills added to the budget, or took from it. -/
  refilled : Rat := 0

inductive PacerEvent where
  | ask (bytes : Nat)
  | abort (piece : Nat)
  | timer
  | microtask
  | pass (piece : Nat)
  | refund (piece : Nat)
  | tick (now : Rat)

namespace PacerState

variable (rate : Rat)

def bytesAt (s : PacerState) (piece : Nat) : Nat := (s.pieces[piece]?.map Piece.bytes).getD 0

def setStatus (s : PacerState) (piece : Nat) (status : PieceStatus) : PacerState :=
  { s with pieces := s.pieces.modify piece fun value => { value with status } }

/-- `PACE_RECHECK_MS` -/
def paceRecheckMs : Int := 1000

/-- The budget as of now, no more than a second's worth or the piece's. -/
def refill (s : PacerState) (bytes : Nat) : PacerState :=
  let elapsed := max 0 (s.now - s.refilledAt)
  let budget := min (max rate bytes) (s.budget + elapsed / 1000 * rate)
  { s with
    budget
    refilledAt := s.now
    forwardAt := s.forward
    refilled := s.refilled + (budget - s.budget) }

def charge (s : PacerState) (piece : Nat) : PacerState :=
  { s.setStatus piece .charged with
    budget := s.budget - s.bytesAt piece
    granted := s.granted ++ [piece] }

/-- The loop of `pace` over the queue: what it grants, and what it leaves. -/
def paceLoop : List Nat → PacerState → List Nat × PacerState
  | [], s => ([], { s with queue := [] })
  | next :: rest, s =>
      let filled := s.refill rate (s.bytesAt next)
      if filled.budget < s.bytesAt next then
        ([], { filled with
          queue := next :: rest
          pacer := some (min paceRecheckMs ⌈(s.bytesAt next - filled.budget) / rate * 1000⌉) })
      else
        let after := paceLoop rest (filled.charge next)
        (next :: after.1, after.2)

/-- `pace` -/
def pace (s : PacerState) : PacerState :=
  let after := paceLoop rate s.queue { s with pacer := none }
  { after.2 with microtasks := after.2.microtasks ++ [after.1] }

/-- `waiter.grant` -/
def grant (s : PacerState) (piece : Nat) : PacerState :=
  match s.pieces[piece]? with
  | some ⟨_, .charged⟩ => s.setStatus piece .resolved
  | _ => s

def next (s : PacerState) : PacerEvent → Option PacerState
  | .ask bytes => some (pace rate { s with
      pieces := s.pieces ++ [⟨bytes, .queued⟩]
      queue := s.queue ++ [s.pieces.length] })
  | .abort piece =>
      match s.pieces[piece]? with
      | some ⟨_, .queued⟩ => some (pace rate { s.setStatus piece .abandoned with queue := s.queue.erase piece })
      | some ⟨bytes, .charged⟩ => some (pace rate { s.setStatus piece .abandoned with budget := s.budget + bytes })
      | _ => none
  | .timer => if s.pacer.isSome then some (pace rate s) else none
  | .microtask =>
      match s.microtasks with
      | [] => none
      | granted :: rest => some (granted.foldl grant { s with microtasks := rest })
  | .pass piece =>
      match s.pieces[piece]? with
      | some ⟨_, .resolved⟩ => some (s.setStatus piece .passed)
      | _ => none
  | .refund piece =>
      match s.pieces[piece]? with
      | some ⟨bytes, .resolved⟩ => some { s.setStatus piece .refunded with budget := s.budget + bytes }
      | _ => none
  | .tick now => some { s with now, forward := s.forward + max 0 (now - s.now) }

end PacerState

def pacerSystem (rate : Rat) : System PacerState PacerEvent :=
  .ofFunction (fun s => ∃ now, s = { now, refilledAt := now }) (PacerState.next rate)

/-! ## What is to hold -/

/-- The bytes of the pieces with some statuses. -/
def bytesWith (which : PieceStatus → Bool) (pieces : List Piece) : Nat :=
  ((pieces.filter fun piece => which piece.status).map Piece.bytes).sum

def PieceStatus.isPassed (status : PieceStatus) : Bool := status = .passed

/-- Charged, and neither passed on nor given back. -/
def PieceStatus.inHand (status : PieceStatus) : Bool := status = .charged || status = .resolved

def largestPiece (pieces : List Piece) : Nat := (pieces.map Piece.bytes).foldr max 0

structure PacerState.Paces (rate : Rat) (s : PacerState) : Prop where
  /-- Granted in the order in which they came, and their promises resolved in it. -/
  ordered : (s.granted ++ s.queue).Pairwise (· < ·)
  resolves : s.microtasks.flatten <:+ s.granted
  /-- The budget is what was refilled without what was passed on or is in hand. -/
  ledger : s.budget + (bytesWith PieceStatus.isPassed s.pieces : Rat) + bytesWith PieceStatus.inHand s.pieces = s.refilled
  timer : s.queue ≠ [] → s.pacer ≠ none

/-- The bound on an interval, as the claim has it. -/
def PacerState.Limited (rate : Rat) (s s' : PacerState) : Prop :=
  (bytesWith PieceStatus.isPassed s'.pieces : Rat) - bytesWith PieceStatus.isPassed s.pieces ≤
    rate * ((s'.forward - s.forward) / 1000) + max rate (largestPiece s'.pieces)

/-- What was in hand as the interval began may be passed on in it besides, or given back. -/
def PacerState.LimitedInHand (rate : Rat) (s s' : PacerState) : Prop :=
  (bytesWith PieceStatus.isPassed s'.pieces : Rat) - bytesWith PieceStatus.isPassed s.pieces ≤
    rate * ((s'.forward - s.forward) / 1000) + max rate (largestPiece s'.pieces) + bytesWith PieceStatus.inHand s.pieces

end Kiln.Hearth
