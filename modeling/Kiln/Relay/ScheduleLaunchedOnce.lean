import Mathlib
import Kiln.Relay.ScheduleLaunchSound

/-!
# No run is launched twice

A run is launched again only once its row was pruned. As each row that a tick claims is due no longer,
its loop ends.
-/

namespace Kiln.Relay
open Kiln.Lib Kiln.Contracts ScheduleWorld OrderedMap

variable {clock : ScheduleClock} {world : ScheduleWorld} {manager : ScheduleManager}

/-! ## A tick ends -/

/-- What a batch has still to do. -/
def batchLeft (batch : ScheduleBatch) : Nat :=
  batch.left.length + (if batch.swept then 0 else 1) + 1

/-- How many steps a tick may still take. While nothing failed, what is left of a batch is due, and so was what it has
claimed, so that a batch after it finds fewer due. -/
def tickLeft (world : ScheduleWorld) : Nat :=
  match world.manager.bind ScheduleManager.tick with
  | none => 0
  | some ⟨now, _, none⟩ => (dueCount world now + 2) ^ 2
  | some ⟨now, _, some batch⟩ =>
      if batch.failed then batchLeft batch
      else (dueCount world now + (batch.rows.length - batch.left.length) + 1) ^ 2 + batchLeft batch

/-- The steps of a tick once it has begun. -/
def ofTick : ScheduleEvent → Bool
  | .select .. | .claim _ | .sweep _ | .launch _ => true
  | _ => false

theorem tickLeft_none (none' : world.manager.bind ScheduleManager.tick = none) : tickLeft world = 0 := by
  rw [tickLeft, none']

variable {now : Nat}

theorem tickLeft_selecting {available : Nat}
    (ticks : world.manager.bind ScheduleManager.tick = some ⟨now, available, none⟩) :
    tickLeft world = (dueCount world now + 2) ^ 2 := by
  rw [tickLeft, ticks]

theorem tickLeft_claiming {now available : Nat} {batch : ScheduleBatch}
    (ticks : world.manager.bind ScheduleManager.tick = some ⟨now, available, some batch⟩) :
    tickLeft world = if batch.failed then batchLeft batch
      else (dueCount world now + (batch.rows.length - batch.left.length) + 1) ^ 2 +
        batchLeft batch := by
  rw [tickLeft, ticks]

theorem claimMore_left {now : Nat} :
    tickLeft { world with manager := some (manager.claimMore now) } ≤ (dueCount world now + 2) ^ 2 := by
  unfold ScheduleManager.claimMore
  dsimp only
  split
  · rw [tickLeft_none rfl]
    omega
  · rw [tickLeft_selecting rfl]
    exact Nat.le_refl _

variable {tick : ScheduleTick}

theorem select_left (none' : tick.batch = none) (is : world.manager = some manager)
    (ticks : manager.tick = some tick) (reads : Bool) (now : Nat) :
    tickLeft (world.selectNext manager tick reads now) < tickLeft world := by
  obtain ⟨began, available, _⟩ := tick
  subst none'
  have before : tickLeft world = (dueCount world began + 2) ^ 2 :=
    tickLeft_selecting (by rw [is]; exact ticks)
  unfold selectNext
  split
  · rw [tickLeft_claiming rfl, before]
    have few := @dueRows_length world began available
    show (dueCount world began + (_ - _) + 1) ^ 2 + (_ + 1 + 1) < _
    rw [Nat.sub_self]
    nlinarith
  · rw [tickLeft_none rfl, before]
    positivity

variable {batch : ScheduleBatch}

theorem launch_left (sound : BatchSound world manager.bootAt tick batch)
    (claims : tick.batch = some batch) (is : world.manager = some manager)
    (ticks : manager.tick = some tick) (over' : batch.left = []) (now : Nat) :
    tickLeft (world.launchNext manager tick batch now) < tickLeft world := by
  obtain ⟨began, available, _⟩ := tick
  subst claims
  have before := tickLeft_claiming (show world.manager.bind ScheduleManager.tick = _ by
    rw [is]; exact ticks)
  have some' : 0 < batchLeft batch := Nat.succ_pos _
  unfold launchNext
  dsimp only
  split
  · rename_i failed
    rw [tickLeft_none rfl, before, if_pos failed]
    exact some'
  rename_i fine
  rw [before, if_neg fine, over', List.length_nil, Nat.sub_zero]
  split
  · rename_i full
    have space : 0 < batch.rows.length := full ▸ sound.space
    refine Nat.lt_of_le_of_lt (@claimMore_left
      { world with launched := world.launched ++ ScheduleWorld.running batch.occurrences } _ began) ?_
    show (dueCount world began + 2) ^ 2 < _
    have squares := Nat.pow_le_pow_left
      (show dueCount world began + 2 ≤ dueCount world began + batch.rows.length + 1 by omega) 2
    omega
  · rw [tickLeft_none rfl]
    omega

variable {world' : ScheduleWorld}

theorem claim_left (advances : clock.Advances) (sound : BatchSound world manager.bootAt tick batch)
    (claims : tick.batch = some batch) (is : world.manager = some manager)
    (ticks : manager.tick = some tick) {made : Bool}
    (claimed : world.claimNext clock manager tick batch made = some world') :
    tickLeft world' < tickLeft world := by
  obtain ⟨began, available, _⟩ := tick
  subst claims
  have before := tickLeft_claiming (show world.manager.bind ScheduleManager.tick = _ by
    rw [is]; exact ticks)
  unfold claimNext at claimed
  split at claimed
  · cases claimed
  rename_i entry later head
  cases claimed
  obtain ⟨there, due⟩ := sound.due entry (head ▸ List.mem_cons_self)
  have outcome := @claimRow_outcome clock world advances { batch with left := later } began
    manager.bootAt entry due made
  obtain ⟨⟨rows, left, swept⟩, fewer⟩ := claim_fewer there due outcome
  generalize world.claimRow clock { batch with left := later } entry began manager.bootAt made =
    claimed at rows left swept fewer ⊢
  have among := sound.left.length_le
  dsimp only at rows left swept fewer
  rw [head, List.length_cons] at among before
  have taken : batch.rows.length - later.length = batch.rows.length - (later.length + 1) + 1 := by omega
  have less : batchLeft claimed.2 < batchLeft batch := by
    rw [batchLeft, batchLeft, left, swept, head, List.length_cons]
    omega
  have after := @tickLeft_claiming { claimed.1 with manager := some { manager with
      tick := some ⟨began, available, some claimed.2⟩ } } began available claimed.2 rfl
  rw [rows, left, taken] at after
  rw [before, after]
  cases failed : claimed.2.failed with
  | true =>
    rw [if_pos rfl]
    split <;> omega
  | false =>
    obtain ⟨fine, due'⟩ := fewer failed
    -- one fewer is due, and one more was claimed
    have same : dueCount claimed.1 began + (batch.rows.length - (later.length + 1) + 1) =
        dueCount world began + (batch.rows.length - (later.length + 1)) := by omega
    rw [if_neg Bool.false_ne_true, fine, if_neg Bool.false_ne_true]
    show (dueCount claimed.1 began + (batch.rows.length - (later.length + 1) + 1) + 1) ^ 2 + _ < _
    rw [same]
    omega

theorem sweep_left (claims : tick.batch = some batch) (is : world.manager = some manager)
    (ticks : manager.tick = some tick) (sweeps : toSweep batch = true) (made : Bool) :
    tickLeft (world.sweepNext clock manager tick batch made) < tickLeft world := by
  obtain ⟨began, available, _⟩ := tick
  subst claims
  have before := tickLeft_claiming (show world.manager.bind ScheduleManager.tick = _ by
    rw [is]; exact ticks)
  have unswept : batch.swept = false := by
    simp only [toSweep, Bool.and_eq_true, Bool.not_eq_true'] at sweeps
    exact sweeps.1
  have same : dueCount (world.sweepNext clock manager ⟨began, available, some batch⟩ batch made) began =
      dueCount world began := by
    cases made <;> rfl
  have had : batchLeft batch = batch.left.length + 1 + 1 := by
    rw [batchLeft, if_neg (by simp [unswept])]
  have has : batchLeft { batch with swept := true, failed := batch.failed || !made } = batch.left.length + 1 := rfl
  have after := @tickLeft_claiming (world.sweepNext clock manager ⟨began, available, some batch⟩
    batch made) began available _ rfl
  rw [before, after, same, had, has]
  dsimp only
  split
  · split <;> omega
  · rename_i fine
    rw [if_neg fun failed => fine (by rw [failed, Bool.true_or])]
    omega

theorem tickLeft_congr (ticks : world'.manager.bind ScheduleManager.tick = world.manager.bind ScheduleManager.tick)
    (tables : world'.tables = world.tables) : tickLeft world' = tickLeft world := by
  unfold tickLeft dueCount
  rw [ticks, tables]

variable {event : ScheduleEvent}

theorem managerNext_left (advances : clock.Advances) (is : world.manager = some manager)
    (sound : ManagerSound world manager) (begun : ∀ now reads, event ≠ .tick now reads)
    (step : world.managerNext clock manager event = some world') :
    tickLeft world' + (ofTick event).toNat ≤ tickLeft world := by
  have over' : ∀ {world' : ScheduleWorld}, manager.free = true →
      world'.manager.bind ScheduleManager.tick = manager.tick → tickLeft world' + 0 ≤ tickLeft world :=
    fun free same => by
      rw [tickLeft_none (same.trans (free_iff.mp free).1)]
      exact Nat.zero_le _
  have goesOn : ∀ {world' : ScheduleWorld}, world'.manager.bind ScheduleManager.tick = manager.tick →
      world'.tables = world.tables → tickLeft world' + 0 ≤ tickLeft world :=
    fun same tables => Nat.le_of_eq (tickLeft_congr (by rw [same, is]; rfl) tables)
  cases event with
  | apply definition calledAt =>
    simp only [managerNext] at step
    split at step
    · rename_i free
      obtain ⟨nextRunAt, -, step⟩ := Option.bind_eq_some_iff.mp step
      obtain ⟨applied, -, rfl⟩ := Option.map_eq_some_iff.mp step
      exact over' free rfl
    · cases step
  | remove scheduleId revision =>
    simp only [managerNext] at step
    split at step
    · rename_i free
      cases step
      exact over' free rfl
    · cases step
  | runNow scheduleId revision now =>
    simp only [managerNext] at step
    split at step
    · rename_i free
      unfold runNowNext at step
      split at step
      · cases step
      split at step
      · cases step
      · split at step
        · cases step
          exact over' free rfl
        · cases step
    · cases step
  | start =>
    obtain ⟨run, starting, rfl⟩ := Option.map_eq_some_iff.mp step
    exact goesOn rfl rfl
  | tick now reads => exact absurd rfl (begun now reads)
  | select reads now =>
    simp only [managerNext] at step
    split at step
    · rename_i ticks
      cases step
      exact select_left rfl is ticks reads now
    · cases step
  | claim made =>
    simp only [managerNext] at step
    split at step
    · rename_i ticks
      exact claim_left advances (sound.batch _ ticks _ rfl) rfl is ticks step
    · cases step
  | sweep made =>
    simp only [managerNext] at step
    split at step
    · rename_i ticks
      split at step
      · rename_i sweeps
        cases step
        exact sweep_left rfl is ticks sweeps.2 made
      · cases step
    · cases step
  | launch now =>
    simp only [managerNext] at step
    split at step
    · rename_i ticks
      split at step
      · rename_i claimed
        cases step
        exact launch_left (sound.batch _ ticks _ rfl) rfl is ticks claimed.1 now
      · cases step
    · cases step
  | complete run status now =>
    simp only [managerNext] at step
    split at step
    · obtain ⟨row, -, rfl⟩ := Option.map_eq_some_iff.mp step
      exact goesOn rfl rfl
    · cases step
  | die run =>
    simp only [managerNext] at step
    split at step
    · cases step
      exact goesOn rfl rfl
    · cases step
  | crash =>
    cases step
    rw [tickLeft_none rfl]
    exact Nat.zero_le _
  | boot now => cases step

/-- A step of a tick leaves it fewer, and no other leaves it more. -/
theorem next_left (advances : clock.Advances) (sound : WorldSound world)
    (begun : ∀ now reads, event ≠ .tick now reads) (step : world.next clock event = some world') :
    tickLeft world' + (ofTick event).toNat ≤ tickLeft world := by
  unfold next at step
  split at step
  · rename_i manager is
    exact managerNext_left advances is (sound.manager manager is) begun step
  · split at step
    · cases step
      rw [tickLeft_none rfl]
      exact Nat.zero_le _
    · cases step

/-- However a tick's steps come, among all others there are, they are no more than it had left. -/
theorem run_left (advances : clock.Advances) {events : List ScheduleEvent}
    (reached : (scheduleLaunchSystem clock).Reachable world)
    (run : (scheduleLaunchSystem clock).Run world events world')
    (begun : ∀ now reads, .tick now reads ∉ events) :
    tickLeft world' + events.countP ofTick ≤ tickLeft world := by
  induction run with
  | nil => simp
  | snoc before last ih =>
    rename_i middle world' events event
    have first := ih fun now reads there => begun now reads (List.mem_append_left _ there)
    have then' := next_left advances (worldSound_of_reachable advances (reached.run before))
      (fun now reads is => begun now reads (is ▸ List.mem_append_right _ List.mem_cons_self)) last
    have one : (if ofTick event = true then 1 else 0) = (ofTick event).toNat := by
      cases ofTick event <;> rfl
    rw [List.countP_append, List.countP_singleton, one]
    omega

/-- A tick that is under way has a step to take. -/
theorem tick_goesOn (is : world.manager = some manager) (ticks : manager.tick = some tick) :
    ∃ event, ofTick event = true ∧ world.next clock event ≠ none := by
  obtain ⟨began, available, batch⟩ := tick
  have up : ∀ event, world.next clock event = world.managerNext clock manager event := fun event => by
    simp only [next, is]
  cases batch with
  | none =>
    refine ⟨.select true 0, rfl, ?_⟩
    rw [up, managerNext, ticks]
    rintro ⟨⟩
  | some batch =>
    cases left : batch.left with
    | cons entry later =>
      refine ⟨.claim true, rfl, ?_⟩
      rw [up, managerNext, ticks]
      dsimp only
      rw [claimNext, left]
      rintro ⟨⟩
    | nil =>
      cases sweeps : toSweep batch with
      | true =>
        refine ⟨.sweep true, rfl, ?_⟩
        rw [up, managerNext, ticks]
        dsimp only
        rw [if_pos ⟨left, sweeps⟩]
        rintro ⟨⟩
      | false =>
        refine ⟨.launch 0, rfl, ?_⟩
        rw [up, managerNext, ticks]
        dsimp only
        rw [if_pos ⟨left, sweeps⟩]
        rintro ⟨⟩

/-! ## A run that ended stays so -/

/-- A run that isn't running stays as it is recorded, and isn't launched, unless its row is pruned. -/
structure Stays (world world' : ScheduleWorld) : Prop where
  pruned : world.pruned ⊆ world'.pruned
  ended : ∀ run row, world.runs.get run = some row → row.status ≠ .running → run ∉ world'.pruned →
    world'.runs.get run = some row ∧ world'.launched.count run = world.launched.count run

namespace Stays

variable {world' world'' : ScheduleWorld}

theorem rfl' : Stays world world :=
  ⟨List.Subset.refl _, fun _ _ there _ _ => ⟨there, rfl⟩⟩

theorem trans' (first : Stays world world') (then' : Stays world' world'') : Stays world world'' := by
  refine ⟨fun run there => then'.pruned (first.pruned there), fun run row there ended kept => ?_⟩
  obtain ⟨there', launched⟩ := first.ended run row there ended fun gone => kept (then'.pruned gone)
  obtain ⟨there'', launched'⟩ := then'.ended run row there' ended kept
  exact ⟨there'', launched'.trans launched⟩

theorem of_same (runs : world'.runs = world.runs) (launched : world'.launched = world.launched)
    (pruned : world'.pruned = world.pruned) : Stays world world' := by
  refine ⟨?_, fun run row there _ _ => ?_⟩
  · rw [pruned]
    exact fun _ => id
  · rw [runs, launched]
    exact ⟨there, rfl⟩

theorem prune : Stays world (world.pruneRuns clock) := by
  refine ⟨List.subset_append_left _ _, fun run row there _ kept => ⟨?_, rfl⟩⟩
  rcases kept_or_pruned there with still | gone
  · exact still
  · exact absurd gone kept

theorem write {run : RunId} {row : ScheduleRunRow}
    (free : ∀ row, world.runs.get run = some row → row.status = .running) :
    Stays world { world with runs := world.runs.set run row } := by
  refine ⟨fun _ => id, fun other held there ended _ => ⟨?_, rfl⟩⟩
  rw [get_set, if_neg]
  · exact there
  · rintro rfl
    exact ended (free held there)

theorem launch {runs : List RunId} (recorded : ∀ run ∈ runs, ∃ row, world.runs.get run = some row ∧
    row.status = .running) : Stays world { world with launched := world.launched ++ runs } := by
  refine ⟨fun _ => id, fun run row there ended _ => ⟨there, ?_⟩⟩
  have other : run ∉ runs := by
    intro among
    obtain ⟨held, is, running⟩ := recorded run among
    exact ended (Option.some.inj (there.symm.trans is) ▸ running)
  rw [List.count_append, List.count_eq_zero.mpr other, Nat.add_zero]

theorem interrupt {now : Nat} : Stays world (world.interruptRuns now) := by
  refine ⟨fun _ => id, fun run row there ended _ => ⟨?_, rfl⟩⟩
  rw [get_interruptRuns, there, Option.map_some, if_neg ended]

end Stays

theorem claimRow_stays {bootAt : Nat} {entry : String × ScheduleRow} {claimed : ScheduleWorld × ScheduleBatch}
    (outcome : ClaimOutcome world batch now bootAt entry claimed) : Stays world claimed.1 := by
  cases outcome with
  | failed => exact .rfl'
  | dropped => exact .of_same rfl rfl rfl
  | inserted definition scheduledAt nextRunAt row due past absent status =>
    have written : Stays world { world with runs := world.runs.set (entry.1, scheduledAt) row } :=
      .write fun held there => nomatch absent.symm.trans there
    exact written.trans' (.of_same (by simp) (by simp) (by simp))
  | skipped scheduledAt nextRunAt due past there => exact .of_same (by simp) (by simp) (by simp)

/-- What a tick has claimed runs for. -/
def occurrences (world : ScheduleWorld) : List ScheduleOccurrence :=
  ((world.manager.bind ScheduleManager.tick).bind ScheduleTick.batch).elim []
    ScheduleBatch.occurrences

/-- What a step claims is recorded by it. -/
def RunNoted (world world' : ScheduleWorld) : Prop :=
  ∀ occurrence ∈ occurrences world', occurrence ∈ occurrences world ∨
    ∃ row, world'.runs.get occurrence.run = some row ∧ row.status = occurrence.status

theorem runNoted_none (none' : (world'.manager.bind ScheduleManager.tick).bind ScheduleTick.batch = none) :
    RunNoted world world' := by
  intro occurrence there
  rw [occurrences, none'] at there
  cases there

theorem runNoted_same (same : world'.manager.bind ScheduleManager.tick = world.manager.bind ScheduleManager.tick) :
    RunNoted world world' := by
  intro occurrence there
  rw [occurrences, same] at there
  exact .inl there

theorem claimRow_records {bootAt : Nat} {entry : String × ScheduleRow} {claimed : ScheduleWorld × ScheduleBatch}
    (outcome : ClaimOutcome world batch now bootAt entry claimed) :
    ∀ occurrence ∈ claimed.2.occurrences, occurrence ∈ batch.occurrences ∨
      ∃ row, claimed.1.runs.get occurrence.run = some row ∧ row.status = occurrence.status := by
  intro occurrence there
  cases outcome with
  | failed => exact .inl there
  | dropped => exact .inl there
  | inserted definition scheduledAt nextRunAt row due past absent status =>
    rcases List.mem_append.mp there with before | new
    · exact .inl before
    · obtain rfl := List.mem_singleton.mp new
      refine .inr ⟨row, ?_, status⟩
      rw [setNextRunAt_runs, get_set, if_pos rfl]
  | skipped scheduledAt nextRunAt due past has => exact .inl there

theorem managerNext_stays (advances : clock.Advances) (is : world.manager = some manager)
    (sound : ManagerSound world manager)
    (step : world.managerNext clock manager event = some world') :
    Stays world world' ∧ RunNoted world world' := by
  have same : ∀ {world' : ScheduleWorld}, world'.manager.bind ScheduleManager.tick = manager.tick →
      RunNoted world world' := fun same => runNoted_same (by rw [same, is]; rfl)
  cases event with
  | apply definition calledAt =>
    simp only [managerNext] at step
    split at step
    · obtain ⟨nextRunAt, -, step⟩ := Option.bind_eq_some_iff.mp step
      obtain ⟨applied, -, rfl⟩ := Option.map_eq_some_iff.mp step
      exact ⟨.of_same rfl rfl rfl, same rfl⟩
    · cases step
  | remove scheduleId revision =>
    simp only [managerNext] at step
    split at step
    · cases step
      exact ⟨.of_same rfl rfl rfl, same rfl⟩
    · cases step
  | runNow scheduleId revision now =>
    simp only [managerNext] at step
    split at step
    · unfold runNowNext at step
      split at step
      · cases step
      split at step
      · cases step
      · rename_i row _
        split at step
        · cases step
          have absent := @manualTime_fresh world scheduleId row now
          refine ⟨.trans' (.write fun held there => ?_) (.of_same rfl rfl rfl), same rfl⟩
          cases absent.symm.trans there
        · cases step
    · cases step
  | start =>
    obtain ⟨run, starting, rfl⟩ := Option.map_eq_some_iff.mp step
    refine ⟨.trans' (.launch fun other about => ?_) (.of_same rfl rfl rfl), same rfl⟩
    refine sound.runs.recorded other (List.mem_append_right _ (List.mem_append_left _ ?_))
    rw [starting]
    exact about
  | tick now reads =>
    simp only [managerNext] at step
    split at step
    · rename_i free
      cases step
      have tick := (free_iff.mp free).1
      have at' : ∀ nextRunAt, ((manager.tickAt now nextRunAt).tick.bind ScheduleTick.batch) = none := by
        intro nextRunAt
        unfold ScheduleManager.tickAt
        split
        · rw [tick]
          rfl
        · unfold ScheduleManager.claimMore
          dsimp only
          split <;> rfl
      unfold tickNext
      split
      · exact ⟨.rfl', runNoted_same rfl⟩
      · split
        · exact ⟨.of_same rfl rfl rfl, runNoted_none (at' _)⟩
        · split
          · exact ⟨.of_same rfl rfl rfl, runNoted_none (at' _)⟩
          · exact ⟨.of_same rfl rfl rfl, runNoted_none rfl⟩
    · cases step
  | select reads now =>
    simp only [managerNext] at step
    split at step
    · cases step
      unfold selectNext
      split
      · exact ⟨.of_same rfl rfl rfl, fun _ there => by cases there⟩
      · exact ⟨.of_same rfl rfl rfl, runNoted_none rfl⟩
    · cases step
  | claim made =>
    simp only [managerNext] at step
    split at step
    · rename_i began available batch ticks
      unfold claimNext at step
      split at step
      · cases step
      rename_i entry later head
      cases step
      have due := ((sound.batch _ ticks _ rfl).due entry (head ▸ List.mem_cons_self)).2
      have outcome := @claimRow_outcome clock world advances { batch with left := later } began
        manager.bootAt entry due made
      refine ⟨(claimRow_stays outcome).trans' (.of_same rfl rfl rfl), fun occurrence there => ?_⟩
      refine (claimRow_records outcome occurrence there).imp_left fun before => ?_
      simpa [occurrences, is, ticks] using before
    · cases step
  | sweep made =>
    simp only [managerNext] at step
    split at step
    · rename_i began available batch ticks
      split at step
      · cases step
        have records : ∀ {world' : ScheduleWorld} {failed : Bool},
            world'.manager = some { manager with tick := some ⟨began, available,
              some { batch with swept := true, failed }⟩ } → RunNoted world world' := by
          intro world' failed is' occurrence there
          left
          simpa [occurrences, is, is', ticks] using there
        unfold sweepNext
        refine ⟨?_, records rfl⟩
        cases made with
        | true => exact Stays.prune.trans' (.of_same rfl rfl rfl)
        | false => exact .of_same rfl rfl rfl
      · cases step
    · cases step
  | launch now =>
    simp only [managerNext] at step
    split at step
    · rename_i began available batch ticks
      split at step
      · cases step
        have starting := sound.exclusive (by simp [ticks])
        have runs := sound.runs
        rw [pending_of_batch starting ticks] at runs
        refine ⟨.trans' (.launch fun run about => runs.recorded run (List.mem_append_right _ about))
          (.of_same rfl rfl rfl), runNoted_none ?_⟩
        unfold launchNext
        dsimp only
        split
        · rfl
        · split
          · unfold ScheduleManager.claimMore
            dsimp only
            split <;> rfl
          · rfl
      · cases step
    · cases step
  | complete run status now =>
    simp only [managerNext] at step
    split at step
    · rename_i active
      obtain ⟨row, there, rfl⟩ := Option.map_eq_some_iff.mp step
      obtain ⟨held, is', running⟩ := sound.runs.recorded run (List.mem_append_left _ active.1)
      refine ⟨.trans' (.write fun row there => ?_) (Stays.prune.trans' (.of_same rfl rfl rfl)), same rfl⟩
      exact Option.some.inj (is'.symm.trans there) ▸ running
    · cases step
  | die run =>
    simp only [managerNext] at step
    split at step
    · cases step
      exact ⟨.of_same rfl rfl rfl, same rfl⟩
    · cases step
  | crash =>
    cases step
    exact ⟨.of_same rfl rfl rfl, runNoted_none rfl⟩
  | boot now => cases step

theorem next_stays (advances : clock.Advances) (sound : WorldSound world)
    (step : world.next clock event = some world') :
    Stays world world' ∧ RunNoted world world' := by
  unfold next at step
  split at step
  · rename_i manager is
    exact managerNext_stays advances is (sound.manager manager is) step
  · split at step
    · cases step
      exact ⟨Stays.interrupt.trans' (.of_same rfl rfl rfl), runNoted_none rfl⟩
    · cases step

theorem run_stays (advances : clock.Advances) {events : List ScheduleEvent}
    (reached : (scheduleLaunchSystem clock).Reachable world)
    (run : (scheduleLaunchSystem clock).Run world events world') : Stays world world' :=
  System.Run.relates (fun _ => worldSound_of_reachable advances) (fun _ => .rfl')
    (fun _ _ _ _ sound before step => before.trans' (next_stays advances sound step).1) reached run

/-- What a tick found missed is recorded as that. -/
def MissedRecorded (world : ScheduleWorld) : Prop :=
  ∀ occurrence ∈ occurrences world, occurrence.status = .missed → occurrence.run ∉ world.pruned →
    ∃ row, world.runs.get occurrence.run = some row ∧ row.status = .missed

theorem missed_recorded (advances : clock.Advances)
    (reached : (scheduleLaunchSystem clock).Reachable world) : MissedRecorded world := by
  refine System.Reachable.strengthen (fun _ => worldSound_of_reachable advances) ?_ ?_ reached
  · rintro world ⟨stopped, -⟩ occurrence there
    rw [occurrences, stopped] at there
    cases there
  intro world event world' sound recorded step occurrence there missed kept
  obtain ⟨stays, records⟩ := next_stays advances sound step
  rcases records occurrence there with before | ⟨row, is, status⟩
  · obtain ⟨row, is, status⟩ := recorded occurrence before missed fun gone => kept (stays.pruned gone)
    have ended : row.status ≠ .running := by
      rw [status]
      decide
    exact ⟨row, (stays.ended _ row is ended kept).1, status⟩
  · exact ⟨row, is, status.trans missed⟩

/-! ## The whole of it -/

/-- What a batch comes to once every row it read was tried. -/
structure BatchEnds (clock : ScheduleClock) (world : ScheduleWorld) (manager : ScheduleManager)
    (tick : ScheduleTick) (batch : ScheduleBatch) : Prop where
  handled : ∀ entry ∈ batch.rows, Handled world batch tick.now manager.bootAt entry
  missed : ∀ occurrence ∈ batch.occurrences, occurrence.status = .missed → occurrence.run ∉ world.pruned →
      ∃ row, world.runs.get occurrence.run = some row ∧ row.status = .missed
  /-- What it claimed to run is launched, failures or not. -/
  launched : ∀ now world', world.next clock (.launch now) = some world' →
    ∀ occurrence ∈ batch.occurrences, occurrence.status = .running → occurrence.run ∈ world'.launched

/-- Schedules launch a run once as long as its row is kept; one that a restart cut off ends interrupted
    and isn't launched again as long as its row is kept; a tick ends; and none that it read as due is
    dropped silently. -/
theorem schedules_launch (clock : ScheduleClock) (advances : clock.Advances) {world : ScheduleWorld}
    (reached : (scheduleLaunchSystem clock).Reachable world) :
    (∀ run, run ∉ world.pruned → world.launched.count run ≤ 1) ∧
    (∀ now world', world.next clock (.boot now) = some world' → ∀ run row,
      world.runs.get run = some row → row.status = .running →
        world'.runs.get run = some { row with status := .interrupted, finishedAt := some now }) ∧
    (∀ events world', (scheduleLaunchSystem clock).Run world events world' → ∀ run row,
      world.runs.get run = some row → row.status = .interrupted → run ∉ world'.pruned →
        world'.runs.get run = some row ∧ world'.launched.count run = world.launched.count run) ∧
    (∀ events world', (scheduleLaunchSystem clock).Run world events world' →
      (∀ now reads, .tick now reads ∉ events) → events.countP ofTick ≤ tickLeft world) ∧
    ∀ manager ∈ world.manager, ∀ tick ∈ manager.tick,
      (∃ event, ofTick event = true ∧ world.next clock event ≠ none) ∧
      ∀ batch ∈ tick.batch, batch.left = [] → BatchEnds clock world manager tick batch := by
  have sound := worldSound_of_reachable advances reached
  refine ⟨fun run kept => ?_, fun now world' step run row there runs => ?_,
    fun events world' run id row there ended kept => ?_, fun events world' run begun => ?_,
    fun manager is tick ticks => ⟨tick_goesOn is ticks, fun batch claims left => ⟨?_, ?_, ?_⟩⟩⟩
  · cases is : world.manager with
    | none => exact (sound.runs is).once run kept
    | some manager => exact (sound.manager manager is).runs.once run kept
  · unfold next at step
    split at step
    · cases step
    · cases step
      show (world.interruptRuns now).runs.get run = _
      rw [get_interruptRuns, there, Option.map_some, if_pos runs]
  · refine (run_stays advances reached run).ended id row there ?_ kept
    rw [ended]
    decide
  · exact Nat.le_of_add_left_le (run_left advances reached run begun)
  · intro entry listed
    have handled := ((sound.manager manager is).batch tick ticks batch claims).handled entry listed
    rw [left] at handled
    exact handled.resolve_left nofun
  · intro occurrence listed missed kept
    refine missed_recorded advances reached occurrence ?_ missed kept
    rw [Option.mem_def] at is ticks claims
    rw [occurrences, is, Option.bind_some, ticks, Option.bind_some, claims]
    exact listed
  · intro now world' step occurrence listed runs
    obtain ⟨began, available, _⟩ := tick
    rw [Option.mem_def] at is ticks claims
    dsimp only at claims
    subst claims
    simp only [next, is, managerNext, ticks] at step
    split at step
    · cases step
      refine List.mem_append_right _ (List.mem_map.mpr ⟨occurrence, List.mem_filter.mpr ⟨listed, ?_⟩, rfl⟩)
      simpa using runs
    · cases step

def everyMinute : ScheduleClock := ⟨fun _ now => some (now + 60000), fun _ _ => false⟩

theorem everyMinute_advances : everyMinute.Advances := by
  intro cron now nextRunAt is
  cases is
  omega

/-- A schedule that is due in a minute. -/
def dueInAMinute : ScheduleTables where
  schedules := .ofEntries [("a", ⟨1, true, some 60000, .projection
    { id := "a", revision := 1, cron := "* * * * *", targets := [], actions := [] }⟩)]

/-- Its run is cut off by a restart. -/
def cutOffEvents : List ScheduleEvent :=
  [.boot 0, .tick 60000 true, .select true 60000, .claim true, .launch 60000, .crash, .boot 70000]

def untouched : ScheduleWorld := { tables := dueInAMinute, runs := .empty }

theorem cutOff_runs : (runAll (next everyMinute) untouched cutOffEvents).isSome = true := by
  decide +kernel

def cutOff : ScheduleWorld :=
  (runAll (next everyMinute) untouched cutOffEvents).get cutOff_runs

theorem schedules_launch_cutOff :
    cutOff.launched = [("a", 60000)] ∧ cutOff.launched.count ("a", 60000) ≤ 1 ∧
      ∀ events world', (scheduleLaunchSystem everyMinute).Run cutOff events world' →
        ("a", 60000) ∉ world'.pruned → world'.launched.count ("a", 60000) = 1 := by
  have reached : (scheduleLaunchSystem everyMinute).Reachable cutOff :=
    ⟨untouched, cutOffEvents, ⟨rfl, rfl, rfl, rfl⟩,
      System.run_of_runAll (Option.some_get cutOff_runs).symm⟩
  have launches := schedules_launch everyMinute everyMinute_advances reached
  refine ⟨by decide +kernel, launches.1 _ (by decide +kernel), fun events world' run kept => ?_⟩
  have interrupted : cutOff.runs.get ("a", 60000) = some ⟨1, 60000, some 70000, .interrupted⟩ := by
    decide +kernel
  rw [(launches.2.2.1 events world' run _ _ interrupted rfl kept).2]
  decide +kernel

/-! ## Where a row is pruned -/

/-- What history doesn't keep: enough ended after it. -/
theorem inHistory_of_later {runs : OrderedMap RunId ScheduleRunRow} {run : RunId}
    {row : ScheduleRunRow} (ended : row.status ≠ .running) (later : List (RunId × ScheduleRunRow))
    (distinct : later.Nodup) (many : historyLimit ≤ later.length)
    (listed : ∀ other ∈ later, runs.get other.1 = some other.2 ∧ other.2.status ≠ .running ∧
      endsLater clock other (run, row) = true) : inHistory clock runs run row = false := by
  have among : later ⊆ runs.entries.filter fun other =>
      decide (other.2.status ≠ .running) && endsLater clock other (run, row) := by
    intro other there
    obtain ⟨is, ended, after⟩ := listed other there
    refine List.mem_filter.mpr ⟨get_eq_some.mp is, ?_⟩
    rw [after, Bool.and_true]
    exact decide_eq_true ended
  have fewer := (List.subperm_of_subset distinct among).length_le
  rw [inHistory, Bool.or_eq_false_iff]
  refine ⟨decide_eq_false ended, decide_eq_false ?_⟩
  omega

theorem manualTime_of_none {id : String} {row : ScheduleRow}
    (none' : ∀ at', world.runs.get (id, at') = none) (other : row.nextRunAt ≠ some now)
    (pos : 0 < now) : world.manualTime id row now = now := by
  have empty : world.runs.entries.filter (fun entry => decide (entry.1.1 = id)) = [] := by
    rw [List.filter_eq_nil_iff]
    rintro ⟨⟨id', at'⟩, held⟩ there same
    obtain rfl : id' = id := of_decide_eq_true same
    exact nomatch (none' at').symm.trans (get_eq_some.mpr there)
  have latest : max now (([] : List Nat).max?.getD 0 + 1) = now := by
    show max now (0 + 1) = now
    omega
  rw [manualTime, empty, List.map_nil, latest, if_neg fun same => other same.symm]

theorem manualRun_launched {id : String} {row : ScheduleRow} {now : Nat}
    (is : world.manager = some manager) (free : manager.free = true)
    (space : manager.fibers.length < scheduleBatchSize)
    (there : world.tables.schedules.get id = some row) (read : row.definition.read.isSome = true)
    (none' : ∀ at', world.runs.get (id, at') = none) (other : row.nextRunAt ≠ some now)
    (pos : 0 < now) :
    (scheduleLaunchSystem clock).Run world [.runNow id row.revision now, .start]
      { world with
        runs := world.runs.set (id, now) ⟨row.revision, now, none, .running⟩
        launched := world.launched ++ [(id, now)]
        manager := some { manager with fibers := manager.fibers ++ [(id, now)], starting := none } } := by
  refine .cons (m := { world with
    runs := world.runs.set (id, now) ⟨row.revision, now, none, .running⟩
    manager := some { manager with starting := some (id, now) } }) ?_ (.single ?_)
  swap
  · rfl
  show world.next clock (.runNow id row.revision now) = _
  simp only [next, is, managerNext]
  rw [if_pos free, runNowNext, if_neg (Nat.not_le.mpr space), there]
  dsimp only
  rw [if_pos ⟨rfl, read⟩, manualTime_of_none none' other pos]

theorem complete_pruned {run : RunId} {row : ScheduleRunRow} {status : ScheduleRunStatus} {now : Nat}
    (is : world.manager = some manager) (active : run ∈ manager.fibers)
    (there : world.runs.get run = some row) (ends : runEnds status = true)
    (drops : inHistory clock (world.runs.set run { row with status, finishedAt := some now }) run
      { row with status, finishedAt := some now } = false) :
    ∃ world', world.next clock (.complete run status now) = some world' ∧
      world'.manager = some { manager with fibers := manager.fibers.erase run } ∧
      world'.tables = world.tables ∧ world'.launched = world.launched ∧
      world'.runs.get run = none ∧
      ∀ other, world.runs.get other = none → world'.runs.get other = none := by
  refine ⟨{ pruneRuns clock { world with
      runs := world.runs.set run { row with status, finishedAt := some now } } with
      manager := some { manager with fibers := manager.fibers.erase run } }, ?_, rfl, rfl, rfl, ?_,
    fun other none' => ?_⟩
  · simp only [next, is, managerNext]
    rw [if_pos ⟨active, ends⟩, completeNext, there]
    rfl
  · refine get_filter_of_drops fun value held => ?_
    rw [get_set, if_pos rfl] at held
    exact Option.some.inj held ▸ drops
  · show (filter _ _).get other = none
    rw [get_filter, get_set, if_neg, none']
    · rfl
    · rintro rfl
      cases none'.symm.trans there

theorem manualRun_again {id : String} {row : ScheduleRow} {now finished : Nat}
    (is : world.manager = some manager) (free : manager.free = true) (idle : manager.fibers = [])
    (there : world.tables.schedules.get id = some row) (read : row.definition.read.isSome = true)
    (none' : ∀ at', world.runs.get (id, at') = none) (other : row.nextRunAt ≠ some now)
    (pos : 0 < now) (later : List (RunId × ScheduleRunRow)) (distinct : later.Nodup)
    (many : historyLimit ≤ later.length)
    (listed : ∀ other ∈ later, world.runs.get other.1 = some other.2 ∧ other.2.status ≠ .running ∧
      finished < other.2.finishedAt.getD 0) :
    ∃ events world', (scheduleLaunchSystem clock).Run world events world' ∧
      world'.launched = world.launched ++ [(id, now)] ++ [(id, now)] := by
  have space : manager.fibers.length < scheduleBatchSize := by
    rw [idle]
    decide
  have first := @manualRun_launched clock world manager id row now is free space there read none' other pos
  generalize launching : ({ manager with
    fibers := manager.fibers ++ [(id, now)], starting := none } : ScheduleManager) = manager' at first
  have fibers : manager'.fibers = [(id, now)] := by
    rw [← launching, idle]
    rfl
  have free' : manager'.free = true := by
    rw [← launching]
    exact free_iff.mpr ⟨(free_iff.mp free).1, rfl⟩
  generalize starts : (⟨row.revision, now, none, .running⟩ : ScheduleRunRow) = record at first
  have drops : inHistory clock ((world.runs.set (id, now) record).set (id, now)
      { record with status := .succeeded, finishedAt := some finished }) (id, now)
      { record with status := .succeeded, finishedAt := some finished } = false := by
    refine inHistory_of_later (show ScheduleRunStatus.succeeded ≠ .running by decide) later distinct many fun other among => ?_
    obtain ⟨held, ended, after⟩ := listed other among
    have different : (id, now) ≠ other.1 := by
      intro same
      rw [← same, none'] at held
      cases held
    refine ⟨?_, ended, ?_⟩
    · rw [get_set, if_neg different, get_set, if_neg different]
      exact held
    · simp [endsLater, after]
  obtain ⟨world', step, is', tables, launched, gone, others⟩ := @complete_pruned clock
    { world with
      runs := world.runs.set (id, now) record, launched := world.launched ++ [(id, now)]
      manager := some manager' } manager' (id, now) record .succeeded finished rfl
    (fibers ▸ List.mem_cons_self) (by rw [get_set, if_pos rfl]) rfl drops
  have absent : ∀ at', world'.runs.get (id, at') = none := by
    intro at'
    by_cases same : at' = now
    · exact same ▸ gone
    · refine others (id, at') ?_
      rw [get_set, if_neg fun is => same (Prod.mk.inj is).2.symm]
      exact none' at'
  have second := @manualRun_launched clock world' _ id row now is' free'
    (Nat.lt_of_le_of_lt List.length_erase_le (fibers ▸ (by decide : 1 < scheduleBatchSize)))
    (tables ▸ there) read absent other pos
  refine ⟨_, _, (first.snoc step).append second, ?_⟩
  rw [launched]

/-- A row that ended at a time the Relay's clock, set back since, has yet to reach. -/
def aheadRow : ScheduleRunRow := ⟨1, 1000000, some 1000000, .succeeded⟩

def aheadRows (count : Nat) : List (RunId × ScheduleRunRow) :=
  (List.range count).map fun i => (("b", i), aheadRow)

theorem mem_aheadRows {count : Nat} {entry : RunId × ScheduleRunRow} :
    entry ∈ aheadRows count → entry.1.1 = "b" ∧ entry.2 = aheadRow := by
  intro there
  obtain ⟨i, -, rfl⟩ := List.mem_map.mp there
  exact ⟨rfl, rfl⟩

theorem aheadRows_nodup (count : Nat) : ((aheadRows count).map Prod.fst).Nodup := by
  rw [aheadRows, List.map_map]
  exact List.nodup_range.map fun i j same => (Prod.mk.inj same).2

def endedAhead (count : Nat) : OrderedMap RunId ScheduleRunRow :=
  ⟨aheadRows count, aheadRows_nodup count⟩

theorem get_endedAhead {count : Nat} {entry : RunId × ScheduleRunRow}
    (there : entry ∈ aheadRows count) : (endedAhead count).get entry.1 = some entry.2 :=
  get_eq_some.mpr there

theorem endedAhead_other (count at' : Nat) : (endedAhead count).get ("a", at') = none := by
  cases there : (endedAhead count).get ("a", at') with
  | none => rfl
  | some row =>
    have other : ("a" : String) = "b" := (mem_aheadRows (get_eq_some.mp there)).1
    exact absurd other (by decide)

def clockSetBack : ScheduleWorld := { tables := dueInAMinute, runs := endedAhead historyLimit }

/-- A manual run's row is pruned as it ends, and the same run is launched again. -/
theorem manualRun_relaunched :
    ¬ ∀ clock : ScheduleClock, clock.Advances → ∀ world, (scheduleLaunchSystem clock).Reachable world →
      ∀ run, world.launched.count run ≤ 1 := by
  intro once
  have begins : (scheduleLaunchSystem everyMinute).Reachable clockSetBack :=
    .init ⟨rfl, rfl, rfl, rfl⟩
  have up : (scheduleLaunchSystem everyMinute).Reachable
      { clockSetBack.interruptRuns 0 with manager := some { bootAt := 0 } } :=
    begins.step (e := .boot 0) rfl
  have held : ∀ run, (clockSetBack.interruptRuns 0).runs.get run =
      ((endedAhead historyLimit).get run).map fun row =>
        if row.status = .running then { row with status := .interrupted, finishedAt := some 0 }
        else row := fun run => get_interruptRuns
  obtain ⟨events, world, run, launched⟩ := @manualRun_again everyMinute
    { clockSetBack.interruptRuns 0 with manager := some { bootAt := 0 } } { bootAt := 0 } "a" _ 100 200
    rfl rfl rfl rfl rfl (fun at' => by
      show (clockSetBack.interruptRuns 0).runs.get ("a", at') = none
      rw [held, endedAhead_other, Option.map_none]) (by decide) (by decide) (aheadRows historyLimit)
    (.of_map _ (aheadRows_nodup _)) (by rw [aheadRows, List.length_map, List.length_range])
    (fun other among => by
      have ahead := (mem_aheadRows among).2
      refine ⟨?_, by rw [ahead]; decide, by rw [ahead]; decide⟩
      show (clockSetBack.interruptRuns 0).runs.get other.1 = some other.2
      rw [held, get_endedAhead among, Option.map_some, if_neg (by rw [ahead]; decide)])
  have twice := once everyMinute everyMinute_advances world (up.run run) ("a", 100)
  rw [launched] at twice
  exact absurd twice (by decide)

end Kiln.Relay
