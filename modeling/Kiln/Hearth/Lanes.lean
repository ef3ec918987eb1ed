import Kiln.Operations.Coverage

/-!
# Hearth's lane keys and what covers them

`apps/web/src/operations/lanes.ts`: a part of something has a key of its own, `<whole>#<part>`,
and `withWholes` takes the whole shared for each part. Nested work takes no lock where what its
parent holds covers what it needs (`apps/web/src/operations/operation.ts:332-343`).
-/

namespace Kiln.Hearth
open Kiln.Operations

/-- `partKey` (`lanes.ts:142`). -/
def partKey (whole part : String) : String := whole ++ "#" ++ part

/-- `LockPolicy` (`lanes.ts:154`). -/
inductive LockPolicy where
  | shared
  | whole
  | part (part : String)

/-- `lockAs` (`lanes.ts:156-160`). -/
def lockAs (key : String) : LockPolicy → LaneLock String
  | .whole => exclusive key
  | .shared => shared key
  | .part part => exclusive (partKey key part)

/-- The key of the whole that a key names a part of. -/
def wholeKey : String → Option String := before '#'

/-- `withWholes` (`lanes.ts:163-173`): the locks, with the whole shared for each part. -/
def withWholes (locks : List (LaneLock String)) : List (LaneLock String) :=
  normalizeLocks (locks ++ locks.flatMap fun lock =>
    match wholeKey lock.key with
    | none => []
    | some whole => [shared whole])

/-- `uncovered` (`lanes.ts:180-192`). -/
def uncovered (wanted held : List (LaneLock String)) : List (LaneLock String) :=
  uncoveredBy wholeKey wanted held

/-! ## Wholes -/

/-- What `withWholes` gives takes the whole of each part: a whole it adds is part of nothing, so each part it gives is
one that was asked for. -/
theorem withWholes_takesWholes (locks : List (LaneLock String)) :
    TakesWholes wholeKey (withWholes locks) := by
  intro lock member whole isWhole
  have named : lock.key ∈ (withWholes locks).map LaneLock.key := List.mem_map_of_mem member
  rw [withWholes, mem_keys_normalizeLocks, List.map_append, List.mem_append] at named
  have asked : lock.key ∈ locks.map LaneLock.key := by
    refine named.resolve_right fun added => ?_
    obtain ⟨taken, among, same⟩ := List.mem_map.mp added
    obtain ⟨source, -, made⟩ := List.mem_flatMap.mp among
    cases found : wholeKey source.key with
    | none => simp [found] at made
    | some itsWhole =>
      obtain rfl : taken = shared itsWhole := by simpa [found] using made
      have none := before_none_of_before found
      obtain rfl : itsWhole = lock.key := same
      exact absurd (none.symm.trans isWhole) (by simp)
  obtain ⟨source, among, same⟩ := List.mem_map.mp asked
  rw [withWholes, mem_keys_normalizeLocks, List.map_append, List.mem_append]
  refine Or.inr (List.mem_map.mpr ⟨shared whole, List.mem_flatMap.mpr ⟨source, among, ?_⟩, rfl⟩)
  rw [same, isWhole]
  simp

/-! ## Nested work is protected -/

/-- Nested work whose locks are covered by what its parent holds conflicts with nothing that is
    granted beside the parent. -/
theorem nested_protected (h o w : List (LaneLock String))
    (beside : Beside (withWholes o) (withWholes h))
    (covered : uncovered (withWholes w) (withWholes h) = []) :
    Beside (withWholes o) (withWholes w) ∧ Beside (withWholes w) (withWholes o) := by
  have apart : ¬ Conflict (withWholes h) (withWholes o) := (beside_normalizeLocks _ _).mp beside
  have safe : ¬ Conflict (withWholes w) (withWholes o) :=
    covered_apart covered apart fun lock member whole isWhole =>
      (withWholes_takesWholes o).noPart apart member isWhole
  exact ⟨(beside_normalizeLocks _ _).mpr safe,
    (beside_normalizeLocks _ _).mpr fun clash => safe clash.symm⟩

/-- A change that replaces a game server covers a power change of it, beside work on the DNS of
    another. -/
theorem nested_protected_power :
    Beside (withWholes [lockAs "instance:r/b" (.part "dns")])
        (withWholes [lockAs "instance:r/a" (.part "power")]) ∧
      Beside (withWholes [lockAs "instance:r/a" (.part "power")])
        (withWholes [lockAs "instance:r/b" (.part "dns")]) :=
  nested_protected [lockAs "instance:r/a" .whole] [lockAs "instance:r/b" (.part "dns")]
    [lockAs "instance:r/a" (.part "power")] (by decide) (by decide)

end Kiln.Hearth
