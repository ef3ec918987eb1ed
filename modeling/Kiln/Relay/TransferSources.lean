import Kiln.Lib.OrderedMap
import Kiln.Lib.Transition

/-!
# Artifacts that a Relay packs for others

`TransferSources` (`apps/relay/src/transfers/peer/sources.ts`) for one transfer ID: an ID holds no dot
(`packages/contracts/src/relay-transfers.ts`), so nothing it keeps is shared between IDs. What runs
between two awaits is one step. Calls are numbered, and so are packings.

A packing's fiber waits for its turn in the lanes; once it has its turn, `packTransferArchive`
(`apps/relay/src/files.ts:962-990`) runs to its end though the fiber is interrupted
(`packages/operations/src/lanes.ts:397-445`). A record that is being written is written to the end
(`effect/atomic-file.ts`). Which roots resolve, what the lanes refuse, which saves fail and what is packed
are whatever they are.

Times, the number of entries and the error's text are left out; what has expired is whatever has. A
removal's own failures are left out.
-/

namespace Kiln.Relay
open Kiln.Lib

inductive SourceState where
  | packing
  | ready
  | failed
  deriving DecidableEq, Repr

/-- `RelayTransferSource`. -/
structure SourceRecord (δ ρ : Type) where
  root : ρ
  state : SourceState
  sha256 : Option δ
  size : Option Nat
  deriving DecidableEq, Repr

namespace SourceRecord

variable {δ ρ : Type}

/-- What `prepare` stores. -/
def packing (root : ρ) : SourceRecord δ ρ := ⟨root, .packing, none, none⟩

def ready (root : ρ) (sha256 : δ) (size : Nat) : SourceRecord δ ρ := ⟨root, .ready, some sha256, some size⟩

def failed (root : ρ) : SourceRecord δ ρ := ⟨root, .failed, none, none⟩

end SourceRecord

/-- The file at a transfer's path, and which packing made it. -/
structure SourceArtifact (β : Type) where
  maker : Nat
  content : List β
  deriving DecidableEq, Repr

/-- The files named for a transfer. -/
inductive SourceFile where
  | record
  | artifact
  deriving DecidableEq, Repr

/-- What a packing's fiber awaits. -/
inductive PackStage (δ ρ : Type) where
  | resolving
  | queued
  /-- Its work in the lanes. -/
  | packing
  | saving (record : SourceRecord δ ρ)
  deriving DecidableEq, Repr

structure PackFiber (δ ρ : Type) where
  root : ρ
  stage : PackStage δ ρ := .resolving
  interrupted : Bool := false
  deriving DecidableEq, Repr

/-- `packTransferArchive`: before its file is there, while it writes it, and once it has failed. -/
inductive PackWork (β : Type) where
  | collecting
  | writing (content : List β)
  | cleaning
  deriving DecidableEq, Repr

inductive PrepareStage where
  | making
  | saving
  deriving DecidableEq, Repr

inductive RemoveStage where
  | interrupting (packing : Nat)
  | listing
  | removing (left : List SourceFile)
  deriving DecidableEq, Repr

/-- A call under way, and what it awaits. A removal is that of a discard or of a sweep. -/
inductive SourceCall (ρ : Type) where
  | prepare (root : ρ) (stage : PrepareStage)
  | remove (stage : RemoveStage)
  deriving DecidableEq, Repr

/-- The Relay's state of a transfer: its record in memory and on disk, its artifact, its fibers with the one to be
interrupted, their work in the lanes and the calls under way. `again` and `removed` are noted by nothing but the model:
whether it was prepared again since its record was last deleted, and whether a removal is done with it and it wasn't. -/
structure SourceWorld (β δ ρ : Type) where
  memory : Option (SourceRecord δ ρ) := none
  disk : Option (SourceRecord δ ρ) := none
  file : Option (SourceArtifact β) := none
  packing : Option Nat := none
  fibers : OrderedMap Nat (PackFiber δ ρ) := .empty
  works : OrderedMap Nat (PackWork β) := .empty
  nextPacking : Nat := 0
  calls : OrderedMap Nat (SourceCall ρ) := .empty
  loading : Bool := false
  again : Bool := false
  removed : Bool := false
  deriving DecidableEq

/-- One step. -/
inductive SourceEvent (β δ ρ : Type) where
  | prepare (id : Nat) (root : ρ)
  | made (id : Nat)
  | prepared (id : Nat) (ok : Bool)
  | discard (id : Nat) (root : ρ)
  /-- The sweep comes to the transfer, which has expired. -/
  | sweep (id : Nat)
  | interrupted (id : Nat)
  | listed (id : Nat) (names : List SourceFile)
  | removed (id : Nat)
  | resolved (packing : Nat) (found : Bool)
  | granted (packing : Nat)
  | refused (packing : Nat)
  /-- The entries can't be collected. -/
  | uncollected (packing : Nat)
  | opened (packing : Nat)
  | chunk (packing : Nat) (bytes : List β)
  | broke (packing : Nat)
  | cleaned (packing : Nat)
  | packed (packing : Nat)
  | saved (packing : Nat) (ok : Bool)
  | unwound (packing : Nat)
  /-- The Relay stops, a record that was being written in place or not, and starts again. -/
  | restart (landed : Option (SourceRecord δ ρ))
  | loaded
  deriving DecidableEq, Repr

namespace SourceWorld

variable {β δ ρ : Type}

/-- `#remove`, once no fiber is left to wait for. -/
def forget (world : SourceWorld β δ ρ) (id : Nat) : SourceWorld β δ ρ :=
  { world with memory := none, again := false, calls := world.calls.set id (.remove .listing) }

/-- `#remove`. -/
def remove (world : SourceWorld β δ ρ) (id : Nat) : SourceWorld β δ ρ :=
  match world.packing with
  | none => world.forget id
  | some packing =>
      match world.fibers.get packing with
      | none => world.forget id
      | some fiber => { world with
          fibers := world.fibers.set packing { fiber with interrupted := true }
          calls := world.calls.set id (.remove (.interrupting packing)) }

/-- What is left of the files that a removal listed. -/
def removing (world : SourceWorld β δ ρ) (id : Nat) : List SourceFile → SourceWorld β δ ρ
  | [] => { world with calls := world.calls.delete id, removed := !world.again }
  | left => { world with calls := world.calls.set id (.remove (.removing left)) }

def without (world : SourceWorld β δ ρ) : SourceFile → SourceWorld β δ ρ
  | .record => { world with disk := none }
  | .artifact => { world with file := none }

/-- Whether these are the files that are there, in some order. -/
def Lists (world : SourceWorld β δ ρ) (names : List SourceFile) : Prop :=
  names.Nodup ∧ (.record ∈ names ↔ world.disk.isSome = true) ∧ (.artifact ∈ names ↔ world.file.isSome = true)

instance (world : SourceWorld β δ ρ) (names : List SourceFile) : Decidable (world.Lists names) :=
  inferInstanceAs (Decidable (_ ∧ _ ∧ _))

def toStage (world : SourceWorld β δ ρ) (packing : Nat) (fiber : PackFiber δ ρ)
    (stage : PackStage δ ρ) : SourceWorld β δ ρ :=
  { world with fibers := world.fibers.set packing { fiber with stage } }

/-- A fiber ends, and whichever is noted for the transfer no longer is. -/
def ended (world : SourceWorld β δ ρ) (packing : Nat) : SourceWorld β δ ρ :=
  { world with fibers := world.fibers.delete packing, packing := none }

/-- A packing's work ends, and its fiber, where it still waits, goes on. -/
def worked (digest : List β → δ) (world : SourceWorld β δ ρ) (packing : Nat)
    (result : Option (List β)) : SourceWorld β δ ρ :=
  let done := { world with works := world.works.delete packing }
  match world.fibers.get packing with
  | some ⟨root, .packing, false⟩ =>
      done.toStage packing ⟨root, .packing, false⟩ <| .saving <|
        match result with
        | some content => .ready root (digest content) content.length
        | none => .failed root
  | _ => done

/-- The records that are being written. -/
def writes (world : SourceWorld β δ ρ) : List (SourceRecord δ ρ) :=
  (world.calls.entries.filterMap fun entry =>
    match entry.2 with
    | .prepare root .saving => some (.packing root)
    | _ => none) ++
  (world.fibers.entries.filterMap fun entry =>
    match entry.2.stage with
    | .saving record => some record
    | _ => none) ++
  if world.loading then (world.disk.map fun record => .failed record.root).toList else []

/-- `load`, of the transfer's record. -/
def load (world : SourceWorld β δ ρ) : SourceWorld β δ ρ :=
  match world.disk with
  | some record =>
      if record.state = .packing then { world with loading := true }
      else { world with memory := some record }
  | none => world

variable [DecidableEq δ] [DecidableEq ρ]

def next (digest : List β → δ) (world : SourceWorld β δ ρ) : SourceEvent β δ ρ → Option (SourceWorld β δ ρ)
  | .prepare id root =>
      if world.loading || world.calls.has id then none
      else
        match world.memory with
        | some _ => some world
        | none => some { world with
            calls := world.calls.set id (.prepare root .making), again := true, removed := false }
  | .made id =>
      match world.calls.get id with
      | some (.prepare root .making) =>
          some { world with calls := world.calls.set id (.prepare root .saving) }
      | _ => none
  | .prepared id ok =>
      match world.calls.get id with
      | some (.prepare root .saving) =>
          some (if ok then { world with
            disk := some (.packing root)
            memory := some (.packing root)
            calls := world.calls.delete id
            fibers := world.fibers.set world.nextPacking { root }
            packing := some world.nextPacking
            nextPacking := world.nextPacking + 1 }
          else { world with calls := world.calls.delete id })
      | _ => none
  | .discard id root =>
      if world.loading || world.calls.has id then none
      else
        match world.memory with
        | some record => some (if record.root = root then world.remove id else world)
        | none => some world
  | .sweep id =>
      if world.loading || world.calls.has id then none
      else
        match world.memory with
        | some _ => some (world.remove id)
        | none => some world
  | .interrupted id =>
      match world.calls.get id with
      | some (.remove (.interrupting packing)) =>
          if (world.fibers.get packing).isSome then none else some (world.forget id)
      | _ => none
  | .listed id names =>
      match world.calls.get id with
      | some (.remove .listing) => if world.Lists names then some (world.removing id names) else none
      | _ => none
  | .removed id =>
      match world.calls.get id with
      | some (.remove (.removing (name :: left))) => some ((world.without name).removing id left)
      | _ => none
  | .resolved packing found =>
      match world.fibers.get packing with
      | some ⟨root, .resolving, false⟩ =>
          some (world.toStage packing ⟨root, .resolving, false⟩ (if found then .queued else .saving (.failed root)))
      | _ => none
  | .granted packing =>
      match world.fibers.get packing with
      | some ⟨root, .queued, interrupted⟩ =>
          -- An interrupt that comes after its turn finds the work begun.
          some ({ world with works := world.works.set packing .collecting }.toStage packing
            ⟨root, .queued, interrupted⟩ .packing)
      | _ => none
  | .refused packing =>
      match world.fibers.get packing with
      | some ⟨root, .queued, false⟩ =>
          some (world.toStage packing ⟨root, .queued, false⟩ (.saving (.failed root)))
      | _ => none
  | .uncollected packing =>
      match world.works.get packing with
      | some .collecting => some (world.worked digest packing none)
      | _ => none
  | .opened packing =>
      match world.works.get packing with
      | some .collecting =>
          some (match world.file with
          | none => { world with
              file := some ⟨packing, []⟩, works := world.works.set packing (.writing []) }
          -- A file that is there isn't written over (`wx`).
          | some _ => { world with works := world.works.set packing .cleaning })
      | _ => none
  | .chunk packing bytes =>
      match world.works.get packing with
      | some (.writing content) => some { world with
          works := world.works.set packing (.writing (content ++ bytes))
          -- A file that was removed is no longer at the path.
          file := world.file.map fun artifact =>
            if artifact.maker = packing then { artifact with content := artifact.content ++ bytes }
            else artifact }
      | _ => none
  | .broke packing =>
      match world.works.get packing with
      | some .collecting | some (.writing _) =>
          some { world with works := world.works.set packing .cleaning }
      | _ => none
  | .cleaned packing =>
      match world.works.get packing with
      | some .cleaning => some ({ world with file := none }.worked digest packing none)
      | _ => none
  | .packed packing =>
      match world.works.get packing with
      | some (.writing content) => some (world.worked digest packing (some content))
      | _ => none
  | .saved packing ok =>
      match world.fibers.get packing with
      | some ⟨root, .saving record, interrupted⟩ =>
          some (
            if ok then
              let written := { world with disk := some record }
              if interrupted then written.ended packing
              else { written with memory := some record }.ended packing
            else if !interrupted && record.state = .ready then
              world.toStage packing ⟨root, .saving record, interrupted⟩ (.saving (.failed root))
            else world.ended packing)
      | _ => none
  | .unwound packing =>
      match world.fibers.get packing with
      | some ⟨_, .saving _, _⟩ | some ⟨_, _, false⟩ | none => none
      | some _ => some (world.ended packing)
  | .restart landed =>
      if landed.all (· ∈ world.writes) then
        some ({
          disk := landed.or world.disk
          file := world.file
          nextPacking := world.nextPacking
          again := world.again
          removed := world.removed : SourceWorld β δ ρ }.load)
      else none
  | .loaded =>
      match world.loading, world.disk with
      | true, some record => some { world with
          disk := some (.failed record.root), memory := some (.failed record.root), loading := false }
      | _, _ => none

end SourceWorld

/-- A Relay that knows nothing of the transfer yet, and what happens to it. -/
def sourceSystem {β δ ρ : Type} [DecidableEq δ] [DecidableEq ρ] (digest : List β → δ) :
    System (SourceWorld β δ ρ) (SourceEvent β δ ρ) :=
  .ofFunction (· = {}) (SourceWorld.next digest)

/-! ## The claims on a source -/

namespace SourceWorld

variable {β δ ρ : Type}

/-- A packing's fiber, or its work in the lanes. -/
def UnderWay (world : SourceWorld β δ ρ) (packing : Nat) : Prop :=
  (world.fibers.get packing).isSome = true ∨ (world.works.get packing).isSome = true

/-- The record names the file at the transfer's path. -/
def Names (digest : List β → δ) (world : SourceWorld β δ ρ) (record : SourceRecord δ ρ) : Prop :=
  ∃ artifact, world.file = some artifact ∧ record.size = some artifact.content.length ∧
    record.sha256 = some (digest artifact.content)

/-- One packing at a time; a ready record, but for one on disk that is being removed, names the artifact; and once a
transfer was removed and its packings are over, nothing of it is left. -/
structure Upholds (digest : List β → δ) (world : SourceWorld β δ ρ) : Prop where
  one : ∀ packing other, world.UnderWay packing → world.UnderWay other → packing = other
  ready : ∀ record, record.state = .ready → (world.memory = some record ∨ (world.disk = some record ∧
      ∀ id left, world.calls.get id ≠ some (.remove (.removing left)))) →
    world.Names digest record
  gone : world.removed = true → (∀ packing, ¬ world.UnderWay packing) →
    world.memory = none ∧ world.disk = none ∧ world.file = none

end SourceWorld

end Kiln.Relay
