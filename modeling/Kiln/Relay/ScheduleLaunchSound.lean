import Kiln.Relay.ScheduleLaunches

/-!
# What a scheduler keeps

A run that is launched has a row as long as history keeps it, and neither a claim nor a manual run
writes one that is there. What a tick reads is claimed row by row, and each is handled or still to be.
-/

namespace Kiln.Relay
open Kiln.Lib Kiln.Contracts ScheduleWorld OrderedMap List Option

variable {clock : ScheduleClock}

/-! ## The tables -/

namespace ScheduleWorld

variable {world : ScheduleWorld} {run : RunId} {row : ScheduleRunRow}

/-- A row that isn't pruned reads as before. -/
theorem get_pruneRuns :
    (world.pruneRuns clock).runs.get run = (world.runs.get run).filter (inHistory clock world.runs run) :=
  get_filter ..

theorem kept_or_pruned (there : world.runs.get run = some row) :
    (world.pruneRuns clock).runs.get run = some row ∨ run ∈ (world.pruneRuns clock).pruned := by
  by_cases keeps : inHistory clock world.runs run row = true
  · left
    rw [get_pruneRuns, there, filter_some, if_pos keeps]
  · right
    refine mem_append_right _ (mem_map.mpr ⟨(run, row), mem_filter.mpr ⟨?_, ?_⟩, rfl⟩)
    · exact get_eq_some.mp there
    · simpa using keeps

theorem running_pruneRuns (there : world.runs.get run = some row) (runs : row.status = .running) :
    (world.pruneRuns clock).runs.get run = some row := by
  rw [get_pruneRuns, there, filter_some, if_pos (by simp [inHistory, runs])]

theorem get_interruptRuns {now : Nat} : (world.interruptRuns now).runs.get run = (world.runs.get run).map fun row =>
      if row.status = .running then { row with status := .interrupted, finishedAt := some now }
      else row :=
  get_mapValues ..

variable {nextRunAt : Nat} {id : String}

@[simp] theorem setNextRunAt_runs : (world.setNextRunAt id nextRunAt).runs = world.runs := by
  unfold setNextRunAt
  split <;> rfl

@[simp] theorem setNextRunAt_launched : (world.setNextRunAt id nextRunAt).launched = world.launched := by
  unfold setNextRunAt
  split <;> rfl

@[simp] theorem setNextRunAt_pruned : (world.setNextRunAt id nextRunAt).pruned = world.pruned := by
  unfold setNextRunAt
  split <;> rfl

@[simp] theorem setNextRunAt_logged : (world.setNextRunAt id nextRunAt).logged = world.logged := by
  unfold setNextRunAt
  split <;> rfl

theorem setNextRunAt_schedules {id : String} {nextRunAt : Nat} {row : ScheduleRow}
    (there : world.tables.schedules.get id = some row) :
    (world.setNextRunAt id nextRunAt).tables.schedules =
      world.tables.schedules.set id { row with nextRunAt := some nextRunAt } := by
  rw [setNextRunAt, there]

/-- A manual run's time is after every other's of its schedule. -/
theorem manualTime_fresh {id : String} {row : ScheduleRow} {now : Nat} :
    world.runs.get (id, world.manualTime id row now) = none := by
  cases there : world.runs.get (id, world.manualTime id row now) with
  | none => rfl
  | some run =>
    have listed : world.manualTime id row now ∈ (world.runs.entries.filter (·.1.1 = id)).map (·.1.2) :=
      mem_map.mpr ⟨_, mem_filter.mpr ⟨get_eq_some.mp there, by simp⟩, rfl⟩
    have latest := le_max?_getD_of_mem listed (k := 0)
    have later : ((world.runs.entries.filter (·.1.1 = id)).map (·.1.2)).max?.getD 0 < world.manualTime id row now := by
      unfold manualTime
      dsimp only
      split <;> omega
    omega

end ScheduleWorld

/-! ## What a scheduler keeps -/

namespace ScheduleManager

/-- The runs that are written and not launched yet. -/
def pending (manager : ScheduleManager) : List RunId :=
  manager.starting.toList ++ ((manager.tick.bind ScheduleTick.batch).elim [] fun batch =>
      running batch.occurrences)

end ScheduleManager

/-- What was done about a row that `claimDue` read. -/
inductive Handled (world : ScheduleWorld) (batch : ScheduleBatch) (now bootAt : Nat)
    (entry : String × ScheduleRow) : Prop
  /-- It has a run, recorded missed if it fell due before the Relay started. -/
  | claimed (scheduledAt nextRunAt : Nat) (due : entry.2.nextRunAt = some scheduledAt)
      (moved : world.tables.schedules.get entry.1 =
        some { entry.2 with nextRunAt := some nextRunAt }) (past : now < nextRunAt)
      (occurrence : ∃ occurrence ∈ batch.occurrences, occurrence.run = (entry.1, scheduledAt) ∧
        occurrence.status = if scheduledAt ≤ bootAt then .missed else .running)
  /-- A run with its ID was there. -/
  | skipped (scheduledAt nextRunAt : Nat) (due : entry.2.nextRunAt = some scheduledAt)
      (moved : world.tables.schedules.get entry.1 =
        some { entry.2 with nextRunAt := some nextRunAt }) (past : now < nextRunAt)
      (there : (entry.1, scheduledAt) ∈ batch.skipped)
  /-- It can't be read, and its removal is logged. -/
  | dropped (gone : world.tables.schedules.get entry.1 = none) (logged : entry.1 ∈ world.logged)
  /-- It stays due, and the failure is returned. -/
  | left (due : world.tables.schedules.get entry.1 = some entry.2) (failed : batch.failed = true)

/-- How many schedules are due. -/
def dueCount (world : ScheduleWorld) (now : Nat) : Nat :=
  world.tables.schedules.count (isDue now)

/-- What holds of what a tick is claiming. -/
structure BatchSound (world : ScheduleWorld) (bootAt : Nat) (tick : ScheduleTick)
    (batch : ScheduleBatch) : Prop where
  distinct : (batch.rows.map Prod.fst).Nodup
  left : batch.left <:+ batch.rows
  due : ∀ entry ∈ batch.left, world.tables.schedules.get entry.1 = some entry.2 ∧ isDue tick.now entry.2 = true
  handled : ∀ entry ∈ batch.rows, entry ∈ batch.left ∨ Handled world batch tick.now bootAt entry
  enough : batch.failed = false → batch.left.length ≤ dueCount world tick.now
  space : 0 < tick.available

/-- What holds of the runs that go on, those that are about to, and the ones there were. -/
structure RunsSound (world : ScheduleWorld) (fibers pending : List RunId) : Prop where
  /-- A run that was launched has its row until that is pruned. -/
  kept : ∀ run ∈ world.launched, run ∉ world.pruned → world.runs.get run ≠ none
  once : ∀ run ∉ world.pruned, world.launched.count run ≤ 1
  /-- Those that go on, or are about to, are each there once, and recorded as running. -/
  distinct : (fibers ++ pending).Nodup
  recorded : ∀ run ∈ fibers ++ pending, ∃ row, world.runs.get run = some row ∧ row.status = .running
  /-- What is about to be launched wasn't yet, unless its row was pruned since. -/
  fresh : ∀ run ∈ pending, run ∉ world.pruned → run ∉ world.launched

namespace RunsSound

variable {world world' : ScheduleWorld} {fibers pending : List RunId} {run : RunId} {row : ScheduleRunRow}

theorem congr (sound : RunsSound world fibers pending) (runs : world'.runs = world.runs)
    (launched : world'.launched = world.launched) (pruned : world'.pruned = world.pruned) :
    RunsSound world' fibers pending := by
  refine ⟨?_, ?_, sound.distinct, ?_, ?_⟩
  · rw [runs, launched, pruned]
    exact sound.kept
  · rw [launched, pruned]
    exact sound.once
  · rw [runs]
    exact sound.recorded
  · rw [launched, pruned]
    exact sound.fresh

theorem prune (sound : RunsSound world fibers pending) :
    RunsSound (world.pruneRuns clock) fibers pending := by
  have grows : ∀ run, run ∉ (world.pruneRuns clock).pruned → run ∉ world.pruned :=
    fun run absent there => absent (mem_append_left _ there)
  refine ⟨fun run launched absent => ?_, fun run absent => sound.once run (grows run absent),
    sound.distinct, fun run active => ?_, fun run about absent => sound.fresh run about (grows run absent)⟩
  · obtain ⟨row, there⟩ := ne_none_iff_exists'.mp (sound.kept run launched (grows run absent))
    rcases ScheduleWorld.kept_or_pruned there with kept | pruned
    · rw [kept]
      exact nofun
    · exact absurd pruned absent
  · obtain ⟨row, there, runs⟩ := sound.recorded run active
    exact ⟨row, ScheduleWorld.running_pruneRuns there runs, runs⟩

/-- A row is written for what has none. -/
theorem insert (sound : RunsSound world fibers pending) (absent : world.runs.get run = none) :
    RunsSound { world with runs := world.runs.set run row } fibers pending := by
  refine ⟨fun other launched kept => ?_, sound.once, sound.distinct, fun other active => ?_, sound.fresh⟩
  · rw [get_set]
    split
    · exact nofun
    · exact sound.kept other launched kept
  · obtain ⟨held, there, runs⟩ := sound.recorded other active
    refine ⟨held, ?_, runs⟩
    rw [get_set, if_neg]
    · exact there
    · rintro rfl
      exact nomatch absent.symm.trans there

/-- One that is running, and about to be launched. -/
theorem insertRunning (sound : RunsSound world fibers pending)
    (absent : world.runs.get run = none) (runs : row.status = .running) :
    RunsSound { world with runs := world.runs.set run row } fibers (pending ++ [run]) := by
  have inserted : RunsSound { world with runs := world.runs.set run row } fibers pending :=
    sound.insert absent
  have new : run ∉ fibers ++ pending := by
    intro active
    obtain ⟨held, there, -⟩ := sound.recorded run active
    exact nomatch absent.symm.trans there
  refine ⟨inserted.kept, inserted.once, ?_, fun other active => ?_, fun other about kept => ?_⟩
  · rw [← append_assoc, nodup_append]
    refine ⟨sound.distinct, nodup_singleton _, ?_⟩
    rintro other active _ here rfl
    exact new (mem_singleton.mp here ▸ active)
  · rw [← append_assoc] at active
    rcases mem_append.mp active with active | here
    · exact inserted.recorded other active
    · obtain rfl := mem_singleton.mp here
      exact ⟨row, by rw [get_set, if_pos rfl], runs⟩
  · rcases mem_append.mp about with about | here
    · exact sound.fresh other about kept
    · obtain rfl := mem_singleton.mp here
      exact fun launched => sound.kept other launched kept absent

theorem launch (sound : RunsSound world fibers pending) :
    RunsSound { world with launched := world.launched ++ pending } (fibers ++ pending) [] := by
  refine ⟨fun run launched kept => ?_, fun run kept => ?_, ?_, ?_, nofun⟩
  · rcases mem_append.mp launched with before | now
    · exact sound.kept run before kept
    · obtain ⟨row, there, -⟩ := sound.recorded run (mem_append_right _ now)
      rw [there]
      exact nofun
  · rw [count_append]
    have once := sound.once run kept
    have among : pending.count run ≤ 1 :=
      nodup_iff_count_le_one.mp (nodup_append.mp sound.distinct).2.1 run
    by_cases now : run ∈ pending
    · have before := count_eq_zero.mpr (sound.fresh run now kept)
      omega
    · have none' := count_eq_zero.mpr now
      omega
  · rw [append_nil]
    exact sound.distinct
  · rw [append_nil]
    exact sound.recorded

/-- A run goes on no longer. -/
theorem erase (sound : RunsSound world fibers pending) (run : RunId) :
    RunsSound world (fibers.erase run) pending := by
  have fewer : (fibers.erase run ++ pending).Sublist (fibers ++ pending) :=
    erase_sublist.append_right _
  exact ⟨sound.kept, sound.once, sound.distinct.sublist fewer,
    fun other active => sound.recorded other (fewer.subset active), sound.fresh⟩

/-- None does. -/
theorem stopped (sound : RunsSound world fibers pending) : RunsSound world [] [] :=
  ⟨sound.kept, sound.once, nodup_nil, nofun, nofun⟩

/-- A run's end is written. -/
theorem finish (sound : RunsSound world fibers pending) (there : run ∈ fibers) :
    RunsSound { world with runs := world.runs.set run row } (fibers.erase run) pending := by
  refine ⟨fun other launched kept => ?_, sound.once, (sound.erase run).distinct, fun other active => ?_, sound.fresh⟩
  · rw [get_set]
    split
    · exact nofun
    · exact sound.kept other launched kept
  have distinct := nodup_append.mp sound.distinct
  have other' : run ≠ other := by
    rintro rfl
    rcases mem_append.mp active with still | about
    · exact distinct.1.not_mem_erase still
    · exact distinct.2.2 run there run about rfl
  obtain ⟨held, is, runs⟩ := (sound.erase run).recorded other active
  exact ⟨held, by rw [get_set, if_neg other']; exact is, runs⟩

/-- A Relay that starts interrupts what was running. -/
theorem interrupt (sound : RunsSound world [] []) (now : Nat) : RunsSound (world.interruptRuns now) [] [] := by
  refine ⟨fun run launched kept => ?_, sound.once, nodup_nil, nofun, nofun⟩
  rw [ScheduleWorld.get_interruptRuns]
  exact fun absent => sound.kept run launched kept (map_eq_none_iff.mp absent)

end RunsSound

/-- What holds of a process. -/
structure ManagerSound (world : ScheduleWorld) (manager : ScheduleManager) : Prop where
  runs : RunsSound world manager.fibers manager.pending
  exclusive : manager.tick ≠ none → manager.starting = none
  space : ∀ tick ∈ manager.tick, 0 < tick.available
  batch : ∀ tick ∈ manager.tick, ∀ batch ∈ tick.batch, BatchSound world manager.bootAt tick batch

/-- What holds of the tables, and of the process if there is one. -/
structure WorldSound (world : ScheduleWorld) : Prop where
  runs : world.manager = none → RunsSound world [] []
  manager : ∀ manager ∈ world.manager, ManagerSound world manager

/-! ## What each step leaves -/

variable {world : ScheduleWorld} {manager : ScheduleManager}

variable {now : Nat}

theorem dueRows_sublist {limit : Nat} :
    ∀ entry ∈ world.dueRows now limit, world.tables.schedules.get entry.1 = some entry.2 ∧
      isDue now entry.2 = true := by
  intro entry listed
  have among := mem_filter.mp (mem_mergeSort.mp (mem_of_mem_take listed))
  exact ⟨get_eq_some.mpr among.1, among.2⟩

theorem dueRows_nodup {limit : Nat} : ((world.dueRows now limit).map Prod.fst).Nodup := by
  have sorted := (mergeSort_perm (world.tables.schedules.entries.filter (isDue now ·.2)) dueFirst).map Prod.fst
  have distinct := sorted.nodup_iff.mpr (world.tables.schedules.nodup.sublist (filter_sublist.map Prod.fst))
  exact distinct.sublist ((take_sublist _ _).map Prod.fst)

theorem dueRows_length {now limit : Nat} : (world.dueRows now limit).length ≤ dueCount world now := by
  rw [dueRows, length_take, length_mergeSort, ← countP_eq_length_filter]
  exact Nat.min_le_right _ _

variable {tick : ScheduleTick} {bootAt : Nat}

/-- What a tick reads is yet to be claimed. -/
theorem select_batch (space : 0 < tick.available) : BatchSound world bootAt tick
      { rows := world.dueRows tick.now tick.available,
        left := world.dueRows tick.now tick.available } :=
  ⟨dueRows_nodup, suffix_refl _, dueRows_sublist, fun _ listed => .inl listed, fun _ => dueRows_length, space⟩

variable {batch : ScheduleBatch} {world' : ScheduleWorld}

/-- What is done about the tables is that, or nothing the batch sees. -/
theorem BatchSound.congr {world : ScheduleWorld} (sound : BatchSound world bootAt tick batch)
    (tables : world'.tables = world.tables) (logged : world'.logged = world.logged) :
    BatchSound world' bootAt tick batch := by
  refine ⟨sound.distinct, sound.left, ?_, fun entry listed => ?_, ?_, sound.space⟩
  · rw [tables]
    exact sound.due
  · refine (sound.handled entry listed).imp_right fun handled => ?_
    cases handled with
    | claimed scheduledAt nextRunAt due moved past occurrence =>
      exact .claimed scheduledAt nextRunAt due (tables ▸ moved) past occurrence
    | skipped scheduledAt nextRunAt due moved past there =>
      exact .skipped scheduledAt nextRunAt due (tables ▸ moved) past there
    | dropped gone there => exact .dropped (tables ▸ gone) (logged ▸ there)
    | left due failed => exact .left (tables ▸ due) failed
  · unfold dueCount
    rw [tables]
    exact sound.enough

/-- A claim changes no schedule but the one it claims, and forgets nothing. -/
structure Claims (world world' : ScheduleWorld) (batch batch' : ScheduleBatch) (id : String) :
    Prop where
  others : ∀ other, id ≠ other → world'.tables.schedules.get other = world.tables.schedules.get other
  rows : batch'.rows = batch.rows
  occurrences : batch.occurrences ⊆ batch'.occurrences
  skipped : batch.skipped ⊆ batch'.skipped
  logged : world.logged ⊆ world'.logged
  failed : batch.failed = true → batch'.failed = true

variable {entry : String × ScheduleRow}

theorem Handled.later {world : ScheduleWorld} {batch' : ScheduleBatch} {id : String}
    (claims : Claims world world' batch batch' id) (other : id ≠ entry.1)
    (handled : Handled world batch now bootAt entry) :
    Handled world' batch' now bootAt entry := by
  have same := claims.others entry.1 other
  cases handled with
  | claimed scheduledAt nextRunAt due moved past occurrence =>
    obtain ⟨occurrence, listed, is⟩ := occurrence
    exact .claimed scheduledAt nextRunAt due (same.trans moved) past ⟨occurrence, claims.occurrences listed, is⟩
  | skipped scheduledAt nextRunAt due moved past there =>
    exact .skipped scheduledAt nextRunAt due (same.trans moved) past (claims.skipped there)
  | dropped gone there => exact .dropped (same.trans gone) (claims.logged there)
  | left due failed => exact .left (same.trans due) (claims.failed failed)

theorem claim_batch {batch' : ScheduleBatch} {later : List (String × ScheduleRow)}
    (sound : BatchSound world bootAt tick batch) (head : batch.left = entry :: later)
    (rest : batch'.left = later) (claims : Claims world world' batch batch' entry.1)
    (handled : Handled world' batch' tick.now bootAt entry)
    (enough : batch'.failed = false → batch.failed = false ∧ dueCount world' tick.now + 1 = dueCount world tick.now) :
    BatchSound world' bootAt tick batch' := by
  have suffix := sound.left
  rw [head] at suffix
  have distinct := sound.distinct.sublist (suffix.sublist.map Prod.fst)
  rw [map_cons, nodup_cons] at distinct
  have other : ∀ e ∈ later, entry.1 ≠ e.1 := fun e listed same =>
    distinct.1 (same ▸ mem_map_of_mem listed)
  refine ⟨?_, ?_, ?_, ?_, ?_, sound.space⟩
  · rw [claims.rows]
    exact sound.distinct
  · rw [claims.rows, rest]
    exact (suffix_cons entry later).trans suffix
  · rw [rest]
    intro e listed
    rw [claims.others e.1 (other e listed)]
    exact sound.due e (head ▸ mem_cons_of_mem _ listed)
  · rw [claims.rows, rest]
    intro e listed
    by_cases same : entry.1 = e.1
    · -- it is the row that is claimed, as the rows read are distinct
      have is : entry = e := by
        have first := suffix.subset mem_cons_self
        exact inj_on_of_nodup_map sound.distinct first listed same
      exact .inr (is ▸ handled)
    · rcases sound.handled e listed with still | handled
      · rw [head] at still
        rcases mem_cons.mp still with rfl | still
        · exact absurd rfl same
        · exact .inl still
      · exact .inr (handled.later claims same)
  · intro none'
    obtain ⟨before, fewer⟩ := enough none'
    have had := sound.enough before
    rw [head, length_cons] at had
    rw [rest]
    omega

/-- A next occurrence is after the time it is asked for. -/
def ScheduleClock.Advances (clock : ScheduleClock) : Prop :=
  ∀ cron now nextRunAt, clock.nextScheduleOccurrence cron now = some nextRunAt → now < nextRunAt

/-- What a row is recorded as, by when it fell due. -/
def claimedStatus (scheduledAt bootAt : Nat) : ScheduleRunStatus :=
  if scheduledAt ≤ bootAt then .missed else .running

/-- What claiming a row comes to. -/
inductive ClaimOutcome (world : ScheduleWorld) (batch : ScheduleBatch) (now bootAt : Nat)
    (entry : String × ScheduleRow) : ScheduleWorld × ScheduleBatch → Prop
  | failed : ClaimOutcome world batch now bootAt entry (world, { batch with failed := true })
  | dropped : ClaimOutcome world batch now bootAt entry ({ world with
          tables := { world.tables with schedules := world.tables.schedules.delete entry.1 }
          logged := world.logged ++ [entry.1] }, batch)
  | inserted (definition : RelayScheduleProjection) (scheduledAt nextRunAt : Nat)
      (row : ScheduleRunRow) (due : entry.2.nextRunAt = some scheduledAt) (past : now < nextRunAt)
      (absent : world.runs.get (entry.1, scheduledAt) = none)
      (status : row.status = claimedStatus scheduledAt bootAt) :
      ClaimOutcome world batch now bootAt entry (({ world with runs := world.runs.set (entry.1, scheduledAt) row } :
            ScheduleWorld).setNextRunAt entry.1 nextRunAt,
          { batch with occurrences := batch.occurrences ++
            [⟨definition, (entry.1, scheduledAt), claimedStatus scheduledAt bootAt⟩] })
  | skipped (scheduledAt nextRunAt : Nat) (due : entry.2.nextRunAt = some scheduledAt)
      (past : now < nextRunAt) (there : world.runs.has (entry.1, scheduledAt) = true) :
      ClaimOutcome world batch now bootAt entry (world.setNextRunAt entry.1 nextRunAt,
          { batch with skipped := batch.skipped ++ [(entry.1, scheduledAt)] })

theorem claimRow_outcome (advances : clock.Advances) {batch : ScheduleBatch} {now bootAt : Nat}
    {entry : String × ScheduleRow} (due : isDue now entry.2 = true) (made : Bool) :
    ClaimOutcome world batch now bootAt entry (world.claimRow clock batch entry now bootAt made) := by
  have there : entry.2.nextRunAt ≠ none := by
    intro absent
    simp [isDue, absent] at due
  obtain ⟨scheduledAt, is⟩ := ne_none_iff_exists'.mp there
  unfold claimRow
  split
  · exact .failed
  dsimp only
  split
  · exact .dropped
  rename_i definition nextRunAt found
  obtain ⟨read, -, found⟩ := bind_eq_some_iff.mp found
  obtain ⟨nextRunAt', answered, same⟩ := bind_eq_some_iff.mp found
  cases same
  have past := advances _ _ _ answered
  simp only [ScheduleWorld.claim, is, getD_some]
  split
  · rename_i claimed run status inserted
    split at inserted
    · cases (Prod.mk.inj inserted).2
    rename_i absent
    obtain ⟨rfl, same⟩ := Prod.mk.inj inserted
    cases same
    refine .inserted _ scheduledAt _ _ is past ?_ rfl
    rw [OrderedMap.has] at absent
    simpa using absent
  · rename_i claimed skipped
    split at skipped
    · rename_i has
      cases skipped
      exact .skipped scheduledAt _ is past has
    · cases (Prod.mk.inj skipped).2

theorem isDue_moved {row : ScheduleRow} {nextRunAt : Nat} (past : now < nextRunAt) :
    isDue now { row with nextRunAt := some nextRunAt } = false := by
  simp [isDue, past]

variable {claimed : ScheduleWorld × ScheduleBatch}

theorem claim_fewer (there : world.tables.schedules.get entry.1 = some entry.2) (due : isDue now entry.2 = true)
    (outcome : ClaimOutcome world batch now bootAt entry claimed) :
    (claimed.2.rows = batch.rows ∧ claimed.2.left = batch.left ∧ claimed.2.swept = batch.swept) ∧
      (claimed.2.failed = false → batch.failed = false ∧ dueCount claimed.1 now + 1 = dueCount world now) := by
  cases outcome with
  | failed => exact ⟨⟨rfl, rfl, rfl⟩, (nomatch ·)⟩
  | dropped =>
    refine ⟨⟨rfl, rfl, rfl⟩, fun before => ⟨before, ?_⟩⟩
    exact count_delete there due
  | inserted definition scheduledAt nextRunAt row dueAt past absent status =>
    refine ⟨⟨rfl, rfl, rfl⟩, fun before => ⟨before, ?_⟩⟩
    have moved := @ScheduleWorld.setNextRunAt_schedules
      { world with runs := world.runs.set (entry.1, scheduledAt) row } entry.1 nextRunAt _ there
    unfold dueCount
    rw [moved]
    exact count_set there due (isDue_moved past)
  | skipped scheduledAt nextRunAt dueAt past has =>
    refine ⟨⟨rfl, rfl, rfl⟩, fun before => ⟨before, ?_⟩⟩
    have moved := @ScheduleWorld.setNextRunAt_schedules world entry.1 nextRunAt _ there
    unfold dueCount
    rw [moved]
    exact count_set there due (isDue_moved past)

theorem claim_sound {later : List (String × ScheduleRow)}
    (sound : BatchSound world bootAt tick batch) (head : batch.left = entry :: later)
    (outcome : ClaimOutcome world { batch with left := later } tick.now bootAt entry claimed) :
    BatchSound claimed.1 bootAt tick claimed.2 := by
  obtain ⟨there, due⟩ := sound.due entry (head ▸ mem_cons_self)
  have others : ∀ {row} other, entry.1 ≠ other →
      (world.tables.schedules.set entry.1 row).get other = world.tables.schedules.get other :=
    fun other different => by rw [get_set, if_neg different]
  have fewer := (claim_fewer there due outcome).2
  cases outcome with
  | failed =>
    exact claim_batch sound head rfl ⟨fun _ _ => rfl, rfl, fun _ => id, fun _ => id, fun _ => id,
      fun _ => rfl⟩ (.left there rfl) fewer
  | dropped =>
    refine claim_batch sound head rfl ⟨fun other different => ?_, rfl, fun _ => id, fun _ => id,
      subset_append_left _ _, id⟩ (.dropped ?_ (by simp)) fewer
    · exact (get_delete ..).trans (if_neg different)
    · exact (get_delete ..).trans (if_pos rfl)
  | inserted definition scheduledAt nextRunAt row dueAt past absent status =>
    have moved := @ScheduleWorld.setNextRunAt_schedules
      { world with runs := world.runs.set (entry.1, scheduledAt) row } entry.1 nextRunAt _ there
    refine claim_batch sound head rfl ⟨fun other different => ?_, rfl, subset_append_left _ _, fun _ => id, by simp, id⟩
      (.claimed scheduledAt nextRunAt dueAt ?_ past ⟨_, mem_append_right _ mem_cons_self, rfl, rfl⟩) fewer
    · rw [moved]
      exact others other different
    · rw [moved, get_set, if_pos rfl]
  | skipped scheduledAt nextRunAt dueAt past has =>
    have moved := @ScheduleWorld.setNextRunAt_schedules world entry.1 nextRunAt _ there
    refine claim_batch sound head rfl ⟨fun other different => ?_, rfl, fun _ => id, subset_append_left _ _, by simp, id⟩
      (.skipped scheduledAt nextRunAt dueAt ?_ past (by simp)) fewer
    · rw [moved]
      exact others other different
    · rw [moved, get_set, if_pos rfl]

theorem running_append (occurrences : List ScheduleOccurrence) (occurrence : ScheduleOccurrence) :
    running (occurrences ++ [occurrence]) = running occurrences ++
      if occurrence.status = .running then [occurrence.run] else [] := by
  rw [running, filter_append, map_append]
  congr 1
  split <;> simp_all

theorem claim_runs {fibers : List RunId} (sound : RunsSound world fibers (running batch.occurrences))
    (outcome : ClaimOutcome world batch now bootAt entry claimed) :
    RunsSound claimed.1 fibers (running claimed.2.occurrences) := by
  cases outcome with
  | failed => exact sound
  | dropped => exact sound.congr rfl rfl rfl
  | inserted definition scheduledAt nextRunAt row dueAt past absent status =>
    dsimp only
    rw [running_append]
    dsimp only
    split
    · rename_i runs
      exact (sound.insertRunning absent (status.trans runs)).congr (by simp) (by simp) (by simp)
    · rw [append_nil]
      have inserted : RunsSound { world with runs := world.runs.set (entry.1, scheduledAt) row }
          fibers (running batch.occurrences) := sound.insert absent
      exact inserted.congr (by simp) (by simp) (by simp)
  | skipped scheduledAt nextRunAt dueAt past has =>
    exact sound.congr (by simp) (by simp) (by simp)

/-! ## Every step keeps it -/

theorem worldSound_of (is : world.manager = some manager) (sound : ManagerSound world manager) :
    WorldSound world :=
  ⟨fun stopped => absurd (is.symm.trans stopped) nofun, fun _ there =>
    Option.some.inj (is.symm.trans there) ▸ sound⟩

/-- A process isn't part of what holds of it. -/
theorem worldSound_with (sound : ManagerSound world manager) :
    WorldSound { world with manager := some manager } :=
  worldSound_of rfl ⟨sound.runs.congr rfl rfl rfl, sound.exclusive, sound.space,
    fun tick is batch is' => (sound.batch tick is batch is').congr rfl rfl⟩

theorem free_iff : manager.free = true ↔ manager.tick = none ∧ manager.starting = none := by
  simp [ScheduleManager.free]

theorem pending_of_free (free : manager.free = true) : manager.pending = [] := by
  obtain ⟨tick, starting⟩ := free_iff.mp free
  simp [ScheduleManager.pending, tick, starting]

/-- Nothing is claimed. -/
theorem ManagerSound.idle (free : manager.free = true)
    (runs : RunsSound world manager.fibers []) : ManagerSound world manager := by
  obtain ⟨tick, starting⟩ := free_iff.mp free
  refine ⟨pending_of_free free ▸ runs, fun _ => starting, ?_, ?_⟩
  · rw [tick]
    exact nofun
  · rw [tick]
    exact nofun

/-- A tick goes on to claim, or is over. -/
theorem claimMore_sound (starting : manager.starting = none) (runs : RunsSound world manager.fibers []) (now : Nat) :
    ManagerSound world (manager.claimMore now) := by
  unfold ScheduleManager.claimMore
  dsimp only
  split
  · exact .idle (free_iff.mpr ⟨rfl, starting⟩) runs
  rename_i space
  have pending : ({ manager with tick := some ⟨now, scheduleBatchSize - manager.fibers.length, none⟩ }
      : ScheduleManager).pending = [] := by simp [ScheduleManager.pending, starting]
  refine ⟨pending ▸ runs, fun _ => starting, fun tick is => ?_, fun tick is batch none' => ?_⟩
  · cases is
    exact Nat.pos_of_ne_zero space
  · cases is
    exact nomatch none'

theorem claimFailed_sound (starting : manager.starting = none) (runs : RunsSound world manager.fibers []) (now : Nat) :
    ManagerSound world (manager.claimFailed now) :=
  .idle (free_iff.mpr ⟨rfl, starting⟩) runs

theorem tick_sound (free : manager.free = true) (runs : RunsSound world manager.fibers [])
    (is : world.manager = some manager) (now : Nat) (reads : Bool) :
    WorldSound (world.tickNext manager now reads) := by
  obtain ⟨tick, starting⟩ := free_iff.mp free
  have at' : ∀ nextRunAt, WorldSound { world with manager := some (manager.tickAt now nextRunAt) } := by
    intro nextRunAt
    refine worldSound_with ?_
    unfold ScheduleManager.tickAt
    split
    · exact .idle (free_iff.mpr ⟨tick, starting⟩) runs
    · refine claimMore_sound ?_ ?_ now
      · exact starting
      · exact runs
  unfold tickNext
  split
  · exact worldSound_of is (.idle free runs)
  · split
    · exact at' _
    · split
      · exact at' _
      · exact worldSound_with (claimFailed_sound starting runs now)

theorem runNow_sound (free : manager.free = true) (runs : RunsSound world manager.fibers [])
    {scheduleId : String} {revision : Nat}
    (made : world.runNowNext manager scheduleId revision now = some world') :
    WorldSound world' := by
  obtain ⟨tick, starting⟩ := free_iff.mp free
  unfold runNowNext at made
  split at made
  · cases made
  split at made
  · cases made
  rename_i row _
  split at made
  · cases made
    refine worldSound_of rfl ?_
    have absent := @ScheduleWorld.manualTime_fresh world scheduleId row now
    have written := @RunsSound.insertRunning world manager.fibers [] _
      ⟨row.revision, now, none, .running⟩ runs absent rfl
    refine ⟨?_, fun ticks => absurd tick ticks, ?_, ?_⟩
    · simp only [ScheduleManager.pending, tick]
      exact written.congr rfl rfl rfl
    · simp [tick]
    · simp [tick]
  · cases made

theorem start_sound' (sound : ManagerSound world manager) {run : RunId} (starting : manager.starting = some run) :
    WorldSound { world with
      launched := world.launched ++ [run]
      manager := some { manager with fibers := manager.fibers ++ [run], starting := none } } := by
  have tick : manager.tick = none := by
    by_contra ticks
    exact nomatch starting.symm.trans (sound.exclusive ticks)
  have pending : manager.pending = [run] := by
    simp [ScheduleManager.pending, tick, starting]
  have runs := sound.runs
  rw [pending] at runs
  refine worldSound_of rfl (.idle (free_iff.mpr ⟨tick, rfl⟩) ?_)
  exact runs.launch.congr rfl rfl rfl

/-- What a tick that claims has about to be launched. -/
theorem pending_of_batch {began available : Nat} {batch : ScheduleBatch}
    (starting : manager.starting = none) (ticks : manager.tick = some ⟨began, available, some batch⟩) :
    manager.pending = running batch.occurrences := by
  simp [ScheduleManager.pending, starting, ticks]

theorem batch_goesOn (starting : manager.starting = none)
    (runs : RunsSound world manager.fibers (running batch.occurrences))
    (sound : BatchSound world manager.bootAt tick batch) :
    WorldSound { world with manager := some { manager with
      tick := some { tick with batch := some batch } } } := by
  refine worldSound_with ⟨?_, fun _ => starting, fun tick' is => ?_, fun tick' is batch' is' => ?_⟩
  · exact (@pending_of_batch { manager with tick := some { tick with batch := some batch } } _ _ _ starting rfl) ▸ runs
  · cases is
    exact sound.space
  · cases is
    cases is'
    exact ⟨sound.distinct, sound.left, sound.due, sound.handled, sound.enough, sound.space⟩

theorem select_sound (sound : ManagerSound world manager) (ticks : manager.tick = some tick)
    (none' : tick.batch = none) (reads : Bool) (now : Nat) :
    WorldSound (world.selectNext manager tick reads now) := by
  have starting := sound.exclusive (by simp [ticks])
  have pending : manager.pending = [] := by
    simp [ScheduleManager.pending, starting, ticks, none']
  have runs := sound.runs
  rw [pending] at runs
  unfold selectNext
  split
  · exact batch_goesOn starting runs (select_batch (sound.space tick ticks))
  · exact worldSound_with (claimFailed_sound starting runs now)

theorem claimNext_sound (advances : clock.Advances) (sound : ManagerSound world manager)
    (ticks : manager.tick = some tick) (claims : tick.batch = some batch) {made : Bool}
    (claimed : world.claimNext clock manager tick batch made = some world') :
    WorldSound world' := by
  have starting := sound.exclusive (by simp [ticks])
  have batchSound := sound.batch tick ticks batch claims
  have runs := sound.runs
  obtain ⟨began, available, _⟩ := tick
  subst claims
  rw [pending_of_batch starting ticks] at runs
  unfold claimNext at claimed
  split at claimed
  · cases claimed
  rename_i entry later head
  cases claimed
  have due := (batchSound.due entry (head ▸ mem_cons_self)).2
  have outcome := @claimRow_outcome clock world advances { batch with left := later } began
    manager.bootAt entry due made
  refine batch_goesOn starting (claim_runs ?_ outcome) (claim_sound batchSound head outcome)
  exact runs

theorem sweep_sound (sound : ManagerSound world manager) (ticks : manager.tick = some tick)
    (claims : tick.batch = some batch) (made : Bool) :
    WorldSound (world.sweepNext clock manager tick batch made) := by
  have starting := sound.exclusive (by simp [ticks])
  have batchSound := sound.batch tick ticks batch claims
  have runs := sound.runs
  obtain ⟨began, available, _⟩ := tick
  subst claims
  rw [pending_of_batch starting ticks] at runs
  have swept : BatchSound world manager.bootAt ⟨began, available, some batch⟩
      { batch with swept := true, failed := batch.failed || !made } := by
    refine ⟨batchSound.distinct, batchSound.left, batchSound.due, fun entry listed => ?_,
      fun none' => ?_, batchSound.space⟩
    · refine (batchSound.handled entry listed).imp_right fun handled => ?_
      cases handled with
      | claimed scheduledAt nextRunAt due moved past occurrence =>
        exact .claimed scheduledAt nextRunAt due moved past occurrence
      | skipped scheduledAt nextRunAt due moved past there =>
        exact .skipped scheduledAt nextRunAt due moved past there
      | dropped gone there => exact .dropped gone there
      | left due failed => exact .left due (by rw [failed, Bool.true_or])
    · exact batchSound.enough (Bool.or_eq_false_iff.mp none').1
  unfold sweepNext
  cases made with
  | true => exact batch_goesOn starting runs.prune (swept.congr rfl rfl)
  | false => exact batch_goesOn starting runs swept

theorem launch_sound (sound : ManagerSound world manager) (ticks : manager.tick = some tick)
    (claims : tick.batch = some batch) (now : Nat) :
    WorldSound (world.launchNext manager tick batch now) := by
  have starting := sound.exclusive (by simp [ticks])
  have runs := sound.runs
  obtain ⟨began, available, _⟩ := tick
  subst claims
  rw [pending_of_batch starting ticks] at runs
  have launched := runs.launch
  unfold launchNext
  dsimp only
  refine @worldSound_with
    { world with launched := world.launched ++ running batch.occurrences } _ ?_
  split
  · refine claimFailed_sound ?_ ?_ now
    · exact starting
    · exact launched
  · split
    · refine claimMore_sound ?_ ?_ began
      · exact starting
      · exact launched
    · exact .idle (free_iff.mpr ⟨rfl, starting⟩) launched

theorem end_sound (sound : ManagerSound world manager) (run : RunId)
    (runs : RunsSound world' (manager.fibers.erase run) manager.pending)
    (tables : world'.tables = world.tables) (logged : world'.logged = world.logged) :
    WorldSound { world' with
      manager := some { manager with fibers := manager.fibers.erase run } } :=
  worldSound_with ⟨runs, sound.exclusive, sound.space,
    fun tick is batch is' => (sound.batch tick is batch is').congr tables logged⟩

/-- A step of a process that is up. -/
theorem managerNext_sound (advances : clock.Advances) (is : world.manager = some manager)
    (sound : ManagerSound world manager) {event : ScheduleEvent}
    (step : world.managerNext clock manager event = some world') : WorldSound world' := by
  have runsOf : manager.free = true → RunsSound world manager.fibers [] := fun free =>
    pending_of_free free ▸ sound.runs
  cases event with
  | apply definition calledAt =>
    simp only [managerNext] at step
    split at step
    · rename_i free
      obtain ⟨nextRunAt, -, step⟩ := bind_eq_some_iff.mp step
      obtain ⟨applied, -, rfl⟩ := map_eq_some_iff.mp step
      exact worldSound_of rfl (.idle free ((runsOf free).congr rfl rfl rfl))
    · cases step
  | remove scheduleId revision =>
    simp only [managerNext] at step
    split at step
    · rename_i free
      cases step
      exact worldSound_of rfl (.idle free ((runsOf free).congr rfl rfl rfl))
    · cases step
  | runNow scheduleId revision now =>
    simp only [managerNext] at step
    split at step
    · rename_i free
      exact runNow_sound free (runsOf free) step
    · cases step
  | start =>
    obtain ⟨run, starting, rfl⟩ := map_eq_some_iff.mp step
    exact start_sound' sound starting
  | tick now reads =>
    simp only [managerNext] at step
    split at step
    · rename_i free
      cases step
      exact tick_sound free (runsOf free) is now reads
    · cases step
  | select reads now =>
    simp only [managerNext] at step
    split at step
    · rename_i ticks
      cases step
      exact select_sound sound ticks rfl reads now
    · cases step
  | claim made =>
    simp only [managerNext] at step
    split at step
    · rename_i ticks
      exact claimNext_sound advances sound ticks rfl step
    · cases step
  | sweep made =>
    simp only [managerNext] at step
    split at step
    · rename_i ticks
      split at step
      · cases step
        exact sweep_sound sound ticks rfl made
      · cases step
    · cases step
  | launch now =>
    simp only [managerNext] at step
    split at step
    · rename_i ticks
      split at step
      · cases step
        exact launch_sound sound ticks rfl now
      · cases step
    · cases step
  | complete run status now =>
    simp only [managerNext] at step
    split at step
    · rename_i active
      obtain ⟨row, -, rfl⟩ := map_eq_some_iff.mp step
      exact end_sound sound run (sound.runs.finish active.1).prune rfl rfl
    · cases step
  | die run =>
    simp only [managerNext] at step
    split at step
    · cases step
      exact end_sound sound run (sound.runs.erase run) rfl rfl
    · cases step
  | crash =>
    cases step
    exact ⟨fun _ => sound.runs.stopped.congr rfl rfl rfl, nofun⟩
  | boot now => cases step

theorem next_sound (advances : clock.Advances) {event : ScheduleEvent} (sound : WorldSound world)
    (step : world.next clock event = some world') : WorldSound world' := by
  unfold ScheduleWorld.next at step
  split at step
  · rename_i manager is
    exact managerNext_sound advances is (sound.manager manager is) step
  rename_i stopped
  split at step
  · rename_i now
    cases step
    have interrupted := (sound.runs stopped).interrupt now
    exact worldSound_with (.idle rfl interrupted)
  · cases step

theorem worldSound_of_reachable (advances : clock.Advances)
    (reached : (scheduleLaunchSystem clock).Reachable world) : WorldSound world := by
  refine System.Reachable.invariant ?_ ?_ reached
  · rintro world ⟨stopped, launched, pruned, -⟩
    refine ⟨fun _ => ?_, fun manager is => nomatch stopped.symm.trans is⟩
    refine ⟨?_, ?_, nodup_nil, nofun, nofun⟩
    · rw [launched]
      exact nofun
    · rw [launched]
      simp
  · exact fun world event world' sound step => next_sound advances sound step

end Kiln.Relay
