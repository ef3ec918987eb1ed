import Mathlib
import Kiln.Relay.BackupClaims

/-!
# Which claims hand over their tasks

The claim of a worker's next task fails a row that can't be decoded. The claim of a batch moves such a row to running
without returning it, so that it hands over its tasks only where all of them can be decoded.
-/

namespace Kiln.Relay
open List

namespace BackupClaim

variable {ι ρ : Type} {texts : BackupTexts ι ρ}

/-! ## Decoding a row -/

variable {row : BackupTaskRow}

theorem backupTaskFromRow_row {task : BackupTask ι ρ} (decoded : backupTaskFromRow texts row = some task) :
    task.row = row := by
  unfold backupTaskFromRow at decoded
  split at decoded
  · cases decoded
  split at decoded
  · cases decoded
    rfl
  · cases decoded
    rfl
  · obtain ⟨result, -, rfl⟩ := Option.map_eq_some_iff.mp decoded
    rfl

/-- Whether a row can be decoded depends on its texts only. -/
theorem backupTaskFromRow_isSome_congr {row' : BackupTaskRow} (input : row.inputJson = row'.inputJson)
    (result : row.resultJson = row'.resultJson) :
    (backupTaskFromRow texts row).isSome = (backupTaskFromRow texts row').isSome := by
  unfold backupTaskFromRow
  rw [input, result]
  cases texts.decodeBackupTaskInput row'.inputJson with
  | none => rfl
  | some input =>
    simp only
    split
    · rfl
    · rfl
    · rw [Option.isSome_map, Option.isSome_map]

variable {store : BackupTaskStore}

theorem backupTask_row {taskId : String} {task : BackupTask ι ρ}
    (found : store.backupTask texts taskId = some task) : task.row.taskId = taskId := by
  obtain ⟨row, here, decoded⟩ := Option.bind_eq_some_iff.mp found
  have same := find?_some here
  rw [backupTaskFromRow_row decoded]
  exact of_decide_eq_true same

theorem backupTask_of_mem (member : row ∈ store.rows) :
    store.backupTask texts row.taskId = backupTaskFromRow texts row := by
  have found : store.rows.find? (·.taskId = row.taskId) = some row := by
    cases here : store.rows.find? (·.taskId = row.taskId) with
    | none => exact absurd rfl (of_decide_eq_false (Bool.eq_false_iff.mpr (find?_eq_none.mp here row member)))
    | some other =>
      have same := find?_some here
      rw [decide_eq_true_eq] at same
      rw [inj_on_of_nodup_map store.unique (mem_of_find?_eq_some here) member same]
  rw [BackupTaskStore.backupTask, found, Option.bind_some]

/-- An update of other columns leaves what can be decoded. -/
theorem backupTask_update_isSome (store : BackupTaskStore) (where_ : BackupTaskRow → Bool)
    (set : BackupTaskRow → BackupTaskRow) (keeps : ∀ row, (set row).taskId = row.taskId)
    (same : ∀ row, (set row).inputJson = row.inputJson ∧ (set row).resultJson = row.resultJson) (taskId : String) :
    ((store.update where_ set keeps).backupTask texts taskId).isSome = (store.backupTask texts taskId).isSome := by
  have ids : (fun row : BackupTaskRow => decide (row.taskId = taskId)) ∘ (fun row => if where_ row then set row else row) =
      fun row => decide (row.taskId = taskId) := by
    funext row
    simp only [Function.comp_apply]
    split
    · rw [keeps]
    · rfl
  rw [BackupTaskStore.backupTask, BackupTaskStore.backupTask]
  unfold BackupTaskStore.update
  rw [find?_map, ids]
  cases store.rows.find? fun row => decide (row.taskId = taskId) with
  | none => rfl
  | some row =>
    rw [Option.map_some, Option.bind_some, Option.bind_some]
    split
    · exact backupTaskFromRow_isSome_congr (same row).1 (same row).2
    · rfl

/-! ## The next task -/

theorem mem_update {where_ : BackupTaskRow → Bool} {set : BackupTaskRow → BackupTaskRow}
    {keeps : ∀ row, (set row).taskId = row.taskId} (member : row ∈ (store.update where_ set keeps).rows) :
    ∃ earlier ∈ store.rows, earlier.taskId = row.taskId ∧
      (where_ earlier = true ∧ row = set earlier ∨ where_ earlier = false ∧ row = earlier) := by
  obtain ⟨earlier, origin, rfl⟩ := mem_map.mp member
  refine ⟨earlier, origin, ?_⟩
  cases holds : where_ earlier with
  | true => exact ⟨(keeps earlier).symm, .inl ⟨rfl, rfl⟩⟩
  | false => exact ⟨rfl, .inr ⟨rfl, rfl⟩⟩

/-- What a claim of the next task changes it returns or fails. -/
theorem claimNextBackupTask_handsOver (now : Int) (store : BackupTaskStore) :
    HandsOver store (claimNextBackupTask texts now store).2 (· ∉ store.rows)
      ((claimNextBackupTask texts now store).1.toList.map (·.row.taskId)) := by
  induction store using claimNextBackupTask.induct texts now with
  | case1 store none_ =>
    have result : claimNextBackupTask texts now store = (none, store) := by
      rw [claimNextBackupTask]
      split
      · rfl
      · rename_i row some_
        rw [none_] at some_
        cases some_
    rw [result]
    exact ⟨fun row member running => .inr ⟨row, member, rfl, running⟩, fun row member new => absurd member new⟩
  | case2 store row next undecoded ih =>
    have result : claimNextBackupTask texts now store = claimNextBackupTask texts now (failRow texts store row.taskId now) := by
      rw [claimNextBackupTask]
      split
      · rename_i none_
        rw [next] at none_
        cases none_
      · rename_i row' some_
        cases next.symm.trans some_
        rw [undecoded]
    rw [result]
    constructor
    · intro row' member running
      rcases ih.owned row' member running with returned | ⟨earlier, there, same, was⟩
      · exact .inl returned
      · -- The row that's been failed isn't running.
        obtain ⟨first, origin, same', ⟨-, rfl⟩ | ⟨-, rfl⟩⟩ := mem_update there
        · cases was
        · exact .inr ⟨_, origin, same, was⟩
    · intro row' member new
      by_cases failed : row' ∈ (failRow texts store row.taskId now).rows
      · obtain ⟨first, origin, -, ⟨-, rfl⟩ | ⟨-, rfl⟩⟩ := mem_update failed
        · exact .inr rfl
        · exact absurd origin new
      · exact ih.settled row' member failed
  | case3 store row next task decoded =>
    have result : claimNextBackupTask texts now store =
        ((startNext store row.taskId now).backupTask texts row.taskId, startNext store row.taskId now) := by
      rw [claimNextBackupTask]
      split
      · rename_i none_
        rw [next] at none_
        cases none_
      · rename_i row' some_
        cases next.symm.trans some_
        rw [decoded]
    have same : ((startNext store row.taskId now).backupTask texts row.taskId).isSome =
        (store.backupTask texts row.taskId).isSome :=
      backupTask_update_isSome store _ (BackupTaskRow.started now) _ (fun _ => ⟨rfl, rfl⟩) row.taskId
    have again : ((startNext store row.taskId now).backupTask texts row.taskId).isSome = true := by
      rw [same, decoded]
      rfl
    obtain ⟨task', started⟩ := Option.isSome_iff_exists.mp again
    have returned : task'.row.taskId = row.taskId := backupTask_row started
    rw [result, started]
    simp only [Option.toList_some, map_cons, map_nil, returned]
    constructor
    · intro row' member running
      obtain ⟨first, origin, same, ⟨holds, rfl⟩ | ⟨-, rfl⟩⟩ := mem_update member
      · simp only [Bool.and_eq_true, decide_eq_true_eq] at holds
        exact .inl (mem_singleton.mpr (same.symm.trans holds.1.1))
      · exact .inr ⟨_, origin, rfl, running⟩
    · intro row' member new
      obtain ⟨first, origin, same, ⟨holds, rfl⟩ | ⟨-, rfl⟩⟩ := mem_update member
      · simp only [Bool.and_eq_true, decide_eq_true_eq] at holds
        exact .inl (mem_singleton.mpr (same.symm.trans holds.1.1))
      · exact absurd origin new

/-! ## The rest of a batch -/

/-- A row that may be in a batch. -/
def BackupTaskRow.MayBatch (row : BackupTaskRow) : Prop :=
  row.status = .queued ∧ row.inputRefreshRequired = false ∧ row.kind = .create

theorem batchRows_spec (batchId : String) (rows : List BackupTaskRow) :
    match batchRows texts batchId rows with
    | .error _ => ∃ row ∈ rows, row.MayBatch ∧ ∃ message, texts.batchId row.inputJson = .error message
    | .ok found => (∀ row ∈ rows, row.MayBatch → ∃ id, texts.batchId row.inputJson = .ok id) ∧
        ∀ row, row ∈ found ↔ row ∈ rows ∧ row.MayBatch ∧ texts.batchId row.inputJson = .ok (some batchId) := by
  induction rows with
  | nil => simp [batchRows]
  | cons row rows ih =>
    have one : match isInBatch texts batchId row with
        | .error _ => row.MayBatch ∧ ∃ message, texts.batchId row.inputJson = .error message
        | .ok is => (row.MayBatch → ∃ id, texts.batchId row.inputJson = .ok id) ∧
            (is = true ↔ row.MayBatch ∧ texts.batchId row.inputJson = .ok (some batchId)) := by
      unfold isInBatch
      by_cases may : row.status = .queued ∧ row.inputRefreshRequired = false ∧ row.kind = .create
      · rw [if_pos may]
        cases read : texts.batchId row.inputJson with
        | error message => exact ⟨may, message, rfl⟩
        | ok id =>
          refine ⟨fun _ => ⟨id, rfl⟩, ?_⟩
          rw [decide_eq_true_eq, Except.ok.injEq]
          exact ⟨fun same => ⟨may, same⟩, fun both => both.2⟩
      · rw [if_neg may]
        exact ⟨fun is => absurd is may, fun is => absurd is Bool.false_ne_true, fun both => absurd both.1 may⟩
    rw [batchRows]
    cases first : isInBatch texts batchId row with
    | error message =>
      rw [first] at one
      exact ⟨row, mem_cons_self, one⟩
    | ok is =>
      rw [first] at one
      cases rest : batchRows texts batchId rows with
      | error message =>
        rw [rest] at ih
        obtain ⟨row', member, failed⟩ := ih
        exact ⟨row', mem_cons_of_mem _ member, failed⟩
      | ok found =>
        rw [rest] at ih
        change (∀ row' ∈ row :: rows, row'.MayBatch → ∃ id, texts.batchId row'.inputJson = .ok id) ∧
          ∀ row', row' ∈ (if is then row :: found else found) ↔ _
        refine ⟨forall_mem_cons.mpr ⟨one.1, ih.1⟩, fun row' => ?_⟩
        have later := ih.2 row'
        cases is with
        | true =>
          have here := one.2.mp rfl
          rw [if_pos rfl, mem_cons, mem_cons, later]
          constructor
          · intro either
            rcases either with rfl | ⟨member, both⟩
            · exact ⟨.inl rfl, here⟩
            · exact ⟨.inr member, both⟩
          · intro ⟨either, both⟩
            rcases either with rfl | member
            · exact .inl rfl
            · exact .inr ⟨member, both⟩
        | false =>
          rw [if_neg Bool.false_ne_true, mem_cons, later]
          constructor
          · intro ⟨member, both⟩
            exact ⟨.inr member, both⟩
          · intro ⟨either, both⟩
            rcases either with rfl | member
            · exact absurd (one.2.mpr both) Bool.false_ne_true
            · exact ⟨member, both⟩

/-- What the loop makes of a row. -/
def startedAmong (now : Int) (taskIds : List String) (row : BackupTaskRow) : BackupTaskRow :=
  if row.taskId ∈ taskIds ∧ row.status = .queued then row.started now else row

/-- The loop starts every row, and returns those that can be decoded. -/
theorem claimRows_spec (now : Int) (taskIds : List String) (store : BackupTaskStore) :
    (claimRows texts now taskIds store).2.rows = store.rows.map (startedAmong now taskIds) ∧
      (claimRows texts now taskIds store).1.map (·.row.taskId) =
        taskIds.filter fun taskId => (store.backupTask texts taskId).isSome := by
  induction taskIds generalizing store with
  | nil =>
    refine ⟨?_, rfl⟩
    rw [claimRows, show startedAmong now [] = id by funext row; simp [startedAmong], map_id]
  | cons taskId taskIds ih =>
    obtain ⟨rows, returned⟩ := ih (startBatched store taskId now)
    have decodes : ∀ id, ((startBatched store taskId now).backupTask texts id).isSome = (store.backupTask texts id).isSome :=
      backupTask_update_isSome store _ (BackupTaskRow.started now) _ (fun _ => ⟨rfl, rfl⟩)
    have rows_ : (startBatched store taskId now).rows.map (startedAmong now taskIds) =
        store.rows.map (startedAmong now (taskId :: taskIds)) := by
      unfold startBatched BackupTaskStore.update
      rw [map_map]
      refine map_congr_left fun row _ => ?_
      simp only [Function.comp_apply]
      by_cases here : row.taskId = taskId ∧ row.status = .queued
      · rw [if_pos (by simpa using here)]
        simp [startedAmong, BackupTaskRow.started, here.1, here.2]
      · rw [if_neg (by simpa using here)]
        by_cases waits : row.status = .queued
        · have other : row.taskId ≠ taskId := fun same => here ⟨same, waits⟩
          simp [startedAmong, other]
        · simp [startedAmong, waits]
    simp only [decodes] at returned
    rw [claimRows]
    cases started : (startBatched store taskId now).backupTask texts taskId with
    | none =>
      have missing : (store.backupTask texts taskId).isSome = false := by rw [← decodes, started]; rfl
      refine ⟨rows.trans rows_, ?_⟩
      rw [filter_cons, missing, if_neg Bool.false_ne_true]
      exact returned
    | some task =>
      have found : (store.backupTask texts taskId).isSome = true := by rw [← decodes, started]; rfl
      refine ⟨rows.trans rows_, ?_⟩
      rw [filter_cons, found, if_pos rfl, map_cons, backupTask_row started, returned]

/-- A batch's claim hands over what it claims if and only if every row of the batch can be decoded, or the rows aren't read. -/
theorem batchHandsOver_iff (texts : BackupTexts ι ρ) (batchId : String) (now : Int) (store : BackupTaskStore) :
    BatchHandsOver texts batchId now store ↔
      (∃ row ∈ store.rows, row.MayBatch ∧ ∃ message, texts.batchId row.inputJson = .error message) ∨
        ∀ row ∈ store.rows, row.MayBatch → texts.batchId row.inputJson = .ok (some batchId) →
          (backupTaskFromRow texts row).isSome = true := by
  have spec := @batchRows_spec ι ρ texts batchId store.rows
  rw [BatchHandsOver]
  cases read : batchRows texts batchId store.rows with
  | error message =>
    rw [read] at spec
    rw [claimBatchBackupTasks, read]
    exact ⟨fun _ => .inl spec, fun _ => rfl⟩
  | ok rows =>
    rw [read] at spec
    obtain ⟨all, among⟩ := spec
    have readable : ¬ ∃ row ∈ store.rows, row.MayBatch ∧ ∃ message, texts.batchId row.inputJson = .error message := by
      intro ⟨row, member, may, message, failed⟩
      obtain ⟨id, ok⟩ := all row member may
      rw [failed] at ok
      cases ok
    rw [or_iff_right readable]
    generalize ids : (rows.mergeSort comesBefore).map (·.taskId) = taskIds
    have claim : claimBatchBackupTasks texts batchId now store =
        (.ok (claimRows texts now taskIds store).1, (claimRows texts now taskIds store).2) := by
      rw [claimBatchBackupTasks, read, ← ids]
    rw [claim]
    have asked : ∀ id, id ∈ taskIds ↔ ∃ row ∈ rows, row.taskId = id := by
      intro id
      rw [← ids, List.mem_map]
      simp only [List.mem_mergeSort]
    obtain ⟨after, returned⟩ := @claimRows_spec ι ρ texts now taskIds store
    change HandsOver store (claimRows texts now taskIds store).2 (·.taskId ∈ rows.map (·.taskId))
      ((claimRows texts now taskIds store).1.map (·.row.taskId)) ↔ _
    rw [returned]
    constructor
    · intro over_ row member may batch
      have mine : row ∈ rows := (among row).mpr ⟨member, may, batch⟩
      have id : row.taskId ∈ taskIds := (asked _).mpr ⟨row, mine, rfl⟩
      have started : row.started now ∈ (claimRows texts now taskIds store).2.rows := by
        rw [after]
        exact List.mem_map.mpr ⟨row, member, if_pos ⟨id, may.1⟩⟩
      rcases over_.owned _ started rfl with given | ⟨earlier, there, same, running⟩
      · have decoded := (List.mem_filter.mp given).2
        rw [show (row.started now).taskId = row.taskId from rfl, backupTask_of_mem member] at decoded
        exact decoded
      · obtain rfl := List.inj_on_of_nodup_map store.unique there member same
        rw [may.1] at running
        cases running
    · intro decodes
      have given : ∀ id ∈ taskIds, id ∈ taskIds.filter fun id => (store.backupTask texts id).isSome := by
        intro id member
        obtain ⟨row, mine, rfl⟩ := (asked id).mp member
        obtain ⟨here, may, batch⟩ := (among row).mp mine
        rw [List.mem_filter, backupTask_of_mem here]
        exact ⟨member, decodes row here may batch⟩
      constructor
      · intro row' member running
        rw [after] at member
        obtain ⟨row, here, rfl⟩ := List.mem_map.mp member
        by_cases both : row.taskId ∈ taskIds ∧ row.status = .queued
        · rw [startedAmong, if_pos both]
          exact .inl (given _ both.1)
        · rw [startedAmong, if_neg both] at running ⊢
          exact .inr ⟨row, here, rfl, running⟩
      · intro row' member mine
        obtain ⟨row, here, same⟩ := List.mem_map.mp mine
        exact .inl (given _ ((asked _).mpr ⟨row, here, same⟩))

/-! ## A row that can't be decoded -/

/-- Texts of which one has a batch's ID and no more of an input. -/
def bareBatch : BackupTexts String String where
  decodeBackupTaskInput text := if text = "\x7b\"batch\":\x7b\"id\":\"b\"\x7d\x7d" then none else some text
  decodeBackupTaskResult := some
  batchId text := .ok (if text = "\x7b\"batch\":\x7b\"id\":\"b\"\x7d\x7d" then some "b" else none)
  scrubBackupTaskInputJson text := text

def bareRow : BackupTaskRow :=
  ⟨"task", "backup", .create, .queued, "\x7b\"batch\":\x7b\"id\":\"b\"\x7d\x7d", false, none, 0, none, none, none, none, none, none, 1, none, none, 1⟩

def bareStore : BackupTaskStore := ⟨[bareRow], by decide⟩

/-- The task is running, and nobody has it. -/
theorem bareBatch_left_running : (claimBatchBackupTasks bareBatch "b" 2 bareStore).1 = .ok [] ∧
    (claimBatchBackupTasks bareBatch "b" 2 bareStore).2.rows = [bareRow.started 2] ∧
    ¬ BatchHandsOver bareBatch "b" 2 bareStore := by
  have read : batchRows bareBatch "b" bareStore.rows = .ok [bareRow] := rfl
  have claim : claimBatchBackupTasks bareBatch "b" 2 bareStore = (.ok [], ⟨[bareRow.started 2], by decide⟩) := by
    rw [claimBatchBackupTasks, read]
    simp only [List.mergeSort_singleton]
    rfl
  refine ⟨by rw [claim], by rw [claim], fun over_ => ?_⟩
  rw [BatchHandsOver, read, claim] at over_
  rcases over_.owned (bareRow.started 2) List.mem_cons_self rfl with given | ⟨earlier, there, -, running⟩
  · cases given
  · obtain rfl := List.mem_singleton.mp there
    cases running

end BackupClaim

end Kiln.Relay
