import Kiln.Operations.LanesExclusion

/-!
# Admission order, and no lost wake-up

What the history says of every run: an ordinary operation is granted only once each ordinary
one admitted before it has ended, or is known not to conflict with it. And what every reachable
state says of what still waits: something real is in its way.
-/

set_option linter.unusedSectionVars false

namespace Kiln.Operations
open Kiln.Lib OperationLanes

namespace LaneWorld

variable {κ : Type} [LinearOrder κ]

/-- Something is in the way of a waiting ordinary operation: a lock that is held, that a nested operation or a
continuation waits for, or that an earlier ordinary one waits for. -/
def Obstructed (lanes : OperationLanes κ) (id : WaiterId) : Prop :=
  (∃ holder ∈ lanes.active, Conflict (lanes.locksOf holder) (lanes.locksOf id)) ∨
  (∃ other, (lanes.waiters other).state = .waiting ∧ (lanes.waiters other).nested = true ∧
    Conflict (lanes.locksOf other) (lanes.locksOf id)) ∨
  ∃ ahead < id, (lanes.waiters ahead).state = .waiting ∧ (lanes.waiters ahead).nested = false ∧
    Conflict (lanes.locksOf ahead) (lanes.locksOf id)

/-- In every run ordinary operations that conflict are granted in the order they were admitted,
    and none is granted behind an ordinary one whose locks aren't known; and in every reachable
    state each operation that waits with nothing unknown ahead of it has something in its way. -/
theorem lanes_order (options : OperationLanesOptions κ) {world : LaneWorld κ}
    (reached : (laneSystem options).Reachable world) :
    (∀ later earlier first second,
      world.lanes.history = later ++ .granted second :: earlier → first < second →
      (world.lanes.waiters first).nested = false → (world.lanes.waiters second).nested = false →
      (Conflict (world.lanes.locksOf first) (world.lanes.locksOf second) →
        .ended first ∈ earlier) ∧
      (.ended first ∈ earlier ∨ .known first ∈ earlier)) ∧
    (∀ id, (world.lanes.waiters id).state = .waiting → (world.lanes.waiters id).nested = false →
      (∀ ahead ≤ id, (world.lanes.waiters ahead).state = .waiting →
        (world.lanes.waiters ahead).nested = false →
        (world.lanes.waiters ahead).locks.isSome = true) →
      Obstructed world.lanes id) ∧
    (∀ id, (world.lanes.waiters id).state = .waiting → (world.lanes.waiters id).nested = true →
      ∀ locks, (world.lanes.waiters id).locks = some locks →
        ∃ lock ∈ locks, world.lanes.held.conflicts lock = true) := by
  have sound := (coherent_of_reachable reached).sound
  have placed := sound.placed
  refine ⟨fun later earlier first second shape less ordinary ordinary' => ?_,
    fun id waiting ordinary known => ?_, fun id waiting nested locks found => ?_⟩
  · have inOrder := sound.chronicled.inOrder
    rw [shape] at inOrder
    rcases inOrder.split.2 ordinary' first less ordinary with ended | ⟨known, apart⟩
    · exact ⟨fun _ => ended, Or.inl ended⟩
    · exact ⟨fun clash => absurd clash apart, Or.inr known⟩
  · have inLine : id ∈ world.lanes.waiting := by
      rcases (placed.waits id).mp waiting with member | member | member | member
      · exact member
      · simp [placed.inner id member] at ordinary
      · simp at member
      · simp at member
    have queued : ∀ other ∈ world.lanes.waiting, (world.lanes.waiters other).state = .waiting ∧
        (world.lanes.waiters other).nested = false := fun other member =>
      ⟨(placed.waits other).mpr (Or.inl member), placed.ordinary other member⟩
    rcases sound.quiescent.line id inLine fun ahead member le =>
        known ahead le (queued ahead member).1 (queued ahead member).2 with
      ⟨other, among, clash⟩ | ⟨ahead, member, less, clash⟩
    · rcases List.mem_append.mp among with active | member
      · exact Or.inl ⟨other, active, clash⟩
      · exact Or.inr (Or.inl ⟨other, (placed.waits other).mpr (Or.inr (Or.inl member)),
          placed.inner other member, clash⟩)
    · exact Or.inr (Or.inr ⟨ahead, less, (queued ahead member).1, (queued ahead member).2, clash⟩)
  · have member : id ∈ world.lanes.nested := by
      rcases (placed.waits id).mp waiting with member | member | member | member
      · simp [placed.ordinary id member] at nested
      · exact member
      · simp at member
      · simp at member
    obtain ⟨holder, active, held, holds, lock, wanted, clash⟩ :=
      sound.quiescent.nested id member locks found
    refine ⟨lock, wanted, (placed.sums.conflicts_iff lock).mpr ⟨_, ?_, held, holds, clash⟩⟩
    exact List.mem_map_of_mem (by simpa using active)

/-- A change runs, and two wait behind it: one for the same app, one behind a lookup. -/
def waitingBehindCalls : List (LaneCall String) :=
  [.admitTicket { label := "first", locks := .known [exclusive "app"] },
    .admitTicket { label := "second", locks := .known [exclusive "app"] },
    .admitTicket { label := "third", locks := .lookup },
    .run 0, .resume 0]

def waitingBehind : LaneWorld String :=
  (runAll LaneWorld.step (initial {}) waitingBehindCalls).get (by decide)

theorem lanes_order_waitingBehind :
    waitingBehind.lanes.waiting = [1, 2] ∧ Obstructed waitingBehind.lanes 1 := by
  have reached : (laneSystem {}).Reachable waitingBehind :=
    System.reachable_of_runAll (· = initial {}) LaneWorld.step rfl waitingBehindCalls (by decide)
  obtain ⟨-, line, -⟩ := lanes_order {} reached
  exact ⟨by decide, line 1 (by decide) (by decide) (by decide)⟩

end LaneWorld

end Kiln.Operations
