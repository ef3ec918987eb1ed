import Mathlib

/-!
# Claiming backup tasks

`claimNextBackupTask` and `claimBatchBackupTasks` of apps/relay/src/effect/state.ts: a worker's next task, and the rest of
a stopped batch. How the stored texts decode is a parameter. A task that's moved to running has a worker only if the call
returns it.
-/

namespace Kiln.Relay

namespace BackupClaim

inductive BackupTaskKind where
  | create
  | restore
  | delete
  | export_
  | prune
  deriving DecidableEq

inductive BackupTaskStatus where
  | queued
  | running
  | succeeded
  | failed
  | cancelled
  deriving DecidableEq

inductive BackupTaskPhase where
  | preparing
  | collecting
  | archiving
  | dumping
  | uploading
  | finalizing
  deriving DecidableEq

/-- `relay_backup_tasks`, without the repository that a prune is for. -/
structure BackupTaskRow where
  taskId : String
  backupId : String
  kind : BackupTaskKind
  status : BackupTaskStatus
  inputJson : String
  inputRefreshRequired : Bool := false
  resultJson : Option String := none
  bytesCompleted : Nat := 0
  bytesTotal : Option Nat := none
  phase : Option BackupTaskPhase := none
  currentArtifactId : Option String := none
  currentPath : Option String := none
  error : Option String := none
  errorCode : Option String := none
  createdAt : Int
  startedAt : Option Int := none
  finishedAt : Option Int := none
  updatedAt : Int
  deriving DecidableEq

/-- `RelayBackupTask` -/
structure BackupTask (ι ρ : Type) where
  row : BackupTaskRow
  input : ι
  result : Option ρ

/-- What's done with the texts of a row: their schemas, what SQLite reads of `$.batch.id`, and the input without secrets. -/
structure BackupTexts (ι ρ : Type) where
  decodeBackupTaskInput : String → Option ι
  decodeBackupTaskResult : String → Option ρ
  /-- An error where the text isn't JSON. -/
  batchId : String → Except String (Option String)
  scrubBackupTaskInputJson : String → String

/-- The rows, by their primary key. -/
structure BackupTaskStore where
  rows : List BackupTaskRow
  unique : (rows.map (·.taskId)).Nodup

def unparseableBackupTaskError : String := "The Relay journal row could not be parsed"

variable {ι ρ : Type} (texts : BackupTexts ι ρ)

/-- `backupTaskFromRow` -/
def backupTaskFromRow (row : BackupTaskRow) : Option (BackupTask ι ρ) :=
  match texts.decodeBackupTaskInput row.inputJson with
  | none => none
  | some input =>
      match row.resultJson with
      | none | some "" => some ⟨row, input, none⟩
      | some text => (texts.decodeBackupTaskResult text).map fun result => ⟨row, input, some result⟩

namespace BackupTaskStore

/-- `UPDATE relay_backup_tasks SET … WHERE …` -/
def update (store : BackupTaskStore) (where_ : BackupTaskRow → Bool) (set : BackupTaskRow → BackupTaskRow)
    (keeps : ∀ row, (set row).taskId = row.taskId) : BackupTaskStore where
  rows := store.rows.map fun row => if where_ row then set row else row
  unique := by
    rw [List.map_map]
    have same : (fun row : BackupTaskRow => row.taskId) ∘ (fun row => if where_ row then set row else row) = (·.taskId) := by
      funext row
      simp only [Function.comp_apply]
      split
      · exact keeps row
      · rfl
    rw [same]
    exact store.unique

/-- `backupTasks({ taskId })`, of which a failure is taken for no task. -/
def backupTask (store : BackupTaskStore) (taskId : String) : Option (BackupTask ι ρ) :=
  (store.rows.find? (·.taskId = taskId)).bind (backupTaskFromRow texts)

end BackupTaskStore

/-- A row that a worker has. -/
def BackupTaskRow.started (now : Int) (row : BackupTaskRow) : BackupTaskRow :=
  { row with
    status := .running
    startedAt := some (row.startedAt.getD now)
    updatedAt := now
    error := none
    errorCode := none
    phase := some .preparing
    currentArtifactId := none
    currentPath := none
    finishedAt := none }

def BackupTaskRow.unparseable (now : Int) (row : BackupTaskRow) : BackupTaskRow :=
  { row with
    status := .failed
    inputJson := texts.scrubBackupTaskInputJson row.inputJson
    resultJson := none
    currentArtifactId := none
    error := some unparseableBackupTaskError
    finishedAt := some now
    updatedAt := now }

/-- `ORDER BY created_at ASC, task_id ASC` -/
def comesBefore (a b : BackupTaskRow) : Bool :=
  a.createdAt < b.createdAt || a.createdAt = b.createdAt && a.taskId ≤ b.taskId

/-! ## The next task -/

/-- A prune waits while deletes are queued. -/
def isNext (store : BackupTaskStore) (row : BackupTaskRow) : Bool :=
  row.status = .queued && !row.inputRefreshRequired && (row.kind ≠ .prune || !store.rows.any fun deletion =>
    deletion.kind = .delete && deletion.status = .queued && !deletion.inputRefreshRequired)

def nextRow (store : BackupTaskStore) : Option BackupTaskRow :=
  ((store.rows.filter (isNext store)).mergeSort comesBefore).head?

def failRow (store : BackupTaskStore) (taskId : String) (now : Int) : BackupTaskStore :=
  store.update (fun row => row.taskId = taskId) (BackupTaskRow.unparseable texts now) fun _ => rfl

def startNext (store : BackupTaskStore) (taskId : String) (now : Int) : BackupTaskStore :=
  store.update (fun row => row.taskId = taskId && row.status = .queued && !row.inputRefreshRequired)
    (BackupTaskRow.started now) fun _ => rfl

def queued (store : BackupTaskStore) : Nat := store.rows.countP (·.status = .queued)

theorem nextRow_spec {store : BackupTaskStore} {row : BackupTaskRow} (next : nextRow store = some row) :
    row ∈ store.rows ∧ row.status = .queued ∧ row.inputRefreshRequired = false := by
  have member := List.mem_of_head? next
  rw [List.mem_mergeSort, List.mem_filter, isNext, Bool.and_eq_true, Bool.and_eq_true, decide_eq_true_eq,
    Bool.not_eq_true'] at member
  exact ⟨member.1, member.2.1.1, member.2.1.2⟩

theorem countP_map_lt {α : Type} {p : α → Bool} {f : α → α} (fewer : ∀ x, p (f x) = true → p x = true) {xs : List α} {x : α}
    (member : x ∈ xs) (was : p x = true) (lost : p (f x) = false) : (xs.map f).countP p < xs.countP p := by
  have le : ∀ xs : List α, (xs.map f).countP p ≤ xs.countP p := by
    intro xs
    rw [List.countP_map]
    exact List.countP_mono_left fun x _ is => fewer x is
  induction xs with
  | nil => cases member
  | cons y xs ih =>
    have rest := le xs
    rw [List.map_cons, List.countP_cons, List.countP_cons]
    rcases List.mem_cons.mp member with rfl | later
    · rw [lost, was, if_neg Bool.false_ne_true, if_pos rfl]
      omega
    have less := ih later
    by_cases is : p (f y) = true
    · rw [if_pos is, if_pos (fewer y is)]
      omega
    · rw [if_neg is]
      omega

/-- A row that's failed isn't queued any more. -/
theorem queued_failRow_lt {store : BackupTaskStore} {row : BackupTaskRow} (next : nextRow store = some row) (now : Int) :
    queued (failRow texts store row.taskId now) < queued store := by
  obtain ⟨member, status, -⟩ := nextRow_spec next
  refine countP_map_lt (fun r is => ?_) member (decide_eq_true status) ?_
  · by_cases same : r.taskId = row.taskId
    · simp [same, BackupTaskRow.unparseable] at is
    · simpa [same] using is
  · simp [BackupTaskRow.unparseable]

/-- `claimNextBackupTask` -/
def claimNextBackupTask (now : Int) (store : BackupTaskStore) : Option (BackupTask ι ρ) × BackupTaskStore :=
  match _next : nextRow store with
  | none => (none, store)
  | some row =>
      match store.backupTask texts row.taskId with
      | none => claimNextBackupTask now (failRow texts store row.taskId now)
      | some _ =>
          ((startNext store row.taskId now).backupTask texts row.taskId, startNext store row.taskId now)
termination_by queued store
decreasing_by exact queued_failRow_lt texts _next now

/-! ## The rest of a batch -/

def isInBatch (batchId : String) (row : BackupTaskRow) : Except String Bool :=
  if row.status = .queued ∧ row.inputRefreshRequired = false ∧ row.kind = .create then
    (texts.batchId row.inputJson).map fun id => id = some batchId
  else .ok false

/-- The rows of the batch that are queued, unless a text that has to be read isn't JSON. -/
def batchRows (batchId : String) : List BackupTaskRow → Except String (List BackupTaskRow)
  | [] => .ok []
  | row :: rows => do
      let is ← isInBatch texts batchId row
      let rest ← batchRows batchId rows
      pure (if is then row :: rest else rest)

def startBatched (store : BackupTaskStore) (taskId : String) (now : Int) : BackupTaskStore :=
  store.update (fun row => row.taskId = taskId && row.status = .queued) (BackupTaskRow.started now) fun _ => rfl

/-- The loop of `claimBatchBackupTasks`: what it returns, and the rows it leaves. -/
def claimRows (now : Int) : List String → BackupTaskStore → List (BackupTask ι ρ) × BackupTaskStore
  | [], store => ([], store)
  | taskId :: taskIds, store =>
      let started := startBatched store taskId now
      let rest := claimRows now taskIds started
      match started.backupTask texts taskId with
      | some task => (task :: rest.1, rest.2)
      | none => rest

/-- `claimBatchBackupTasks`, which changes nothing where it fails. -/
def claimBatchBackupTasks (batchId : String) (now : Int) (store : BackupTaskStore) :
    Except String (List (BackupTask ι ρ)) × BackupTaskStore :=
  match batchRows texts batchId store.rows with
  | .error message => (.error message, store)
  | .ok rows =>
      let claimed := claimRows texts now ((rows.mergeSort comesBefore).map (·.taskId)) store
      (.ok claimed.1, claimed.2)

/-! ## What's claimed has a worker -/

/-- Every task that's been moved to running is returned, and every one that was asked for is returned or failed. -/
structure HandsOver (before after : BackupTaskStore) (asked : BackupTaskRow → Prop) (returned : List String) : Prop where
  owned : ∀ row ∈ after.rows, row.status = .running → row.taskId ∈ returned ∨
    ∃ earlier ∈ before.rows, earlier.taskId = row.taskId ∧ earlier.status = .running
  settled : ∀ row ∈ after.rows, asked row → row.taskId ∈ returned ∨ row.status = .failed

/-- A batch's claim hands over what it claims. A claim that fails has changed nothing. -/
def BatchHandsOver (batchId : String) (now : Int) (store : BackupTaskStore) : Prop :=
  match batchRows texts batchId store.rows, claimBatchBackupTasks texts batchId now store with
  | .ok rows, (.ok tasks, after) => HandsOver store after (·.taskId ∈ rows.map (·.taskId)) (tasks.map (·.row.taskId))
  | _, (_, after) => after = store

end BackupClaim

end Kiln.Relay
