import Kiln.Relay.TransferPullsSound

/-!
# The steps of a fiber that pulls

Each step of a fiber that wasn't interrupted keeps the invariant of
`Kiln.Relay.PullWorld.Sound` (`#run`, `#pull`, `#fetch`, `apps/relay/src/transfers/peer/pulls.ts:193-389`).
-/

namespace Kiln.Relay
open Kiln.Lib List

namespace PullWorld

variable {β δ τ : Type} {digest : List β → δ} {popped : List PullSaver} {world : PullWorld β δ τ}
  {fiber : PullFiber δ τ}

namespace Sound

theorem standing (sound : world.Sound digest popped) (is : world.fiber = some fiber) (goes : fiber.run.ending = false) :
    ∃ record, world.memory = some record ∧ fiber.run.Stands record.state := by
  rcases sound.stands fiber is with ⟨record, held, fits⟩
  exact ⟨record, held, (PullRun.fits_of_not_ending goes).mp fits⟩

theorem noWorks_of_run (sound : world.Sound digest popped) (is : world.fiber = some fiber)
    (other : ∀ record, fiber.run ≠ .going record .installing) : world.works = [] := by
  apply sound.noWorks
  intro running record is'
  cases is.symm.trans is'
  exact other record

/-- A fiber goes on, with the saves `tokens` after it. Its record is written down where it becomes another. -/
theorem goes (sound : world.Sound digest popped) (is : world.fiber = some fiber)
    (free : fiber.interrupted = false) (owned : ∀ saver ∈ popped, saver = .fiber)
    (noToken : PullSaver.fiber ∉ world.saving) (run : PullRun δ τ) (record : PullRecord δ τ)
    (tokens : List PullSaver) (part : Option (List β)) (works : List (PullInstall β δ))
    (stands : run.Stands record.state)
    (kept : (tokens = [.fiber] ∧ run.saves = true) ∨ ((∀ saver ∈ tokens, saver = .progress) ∧ run.saves = false ∧
        ∃ current, world.memory = some current ∧ record.state = current.state))
    (hashed : ∀ seen stage, run = .going seen stage → stage.hashed = true →
      ∃ content, part = some content ∧ digest content = seen.sha256)
    (offset : ∀ seen stage offset, run = .going seen stage → stage.offset = some offset →
      (part.getD []).length = offset)
    (worked : ∀ work ∈ works, fiber.id = work.fiber ∧ ∃ seen, run = .going seen .installing ∧
      work.sha256 = seen.sha256 ∧
      ∀ content, work.reading = some (some content) → digest content = work.sha256) :
    Sound digest [] { world with
      memory := some record
      part
      works
      saving := world.saving ++ tokens
      fiber := some { fiber with run } } := by
  have noCall : ∀ id, PullSaver.call id ∉ tokens := by
    intro id listed
    rcases kept with ⟨rfl, -⟩ | ⟨progress, -⟩
    · exact nomatch mem_singleton.mp listed
    · exact nomatch progress _ listed
  have noLoad : PullSaver.load ∉ tokens := by
    intro listed
    rcases kept with ⟨rfl, -⟩ | ⟨progress, -⟩
    · exact nomatch mem_singleton.mp listed
    · exact nomatch progress _ listed
  refine { sound with
    fiberToken := ?_, callTokens := ?_, loading := ?_, loaded := ?_, turn := ?_, stands := ?_,
    starting := nofun, idle := nofun, interrupted := ?_, cancelling := ?_, cancelled := ?_,
    cancelledWrite := ?_, works := ?_, hashed := ?_, offset := ?_, written := ?_, landed := ?_,
    quiet := ?_ }
  · show (world.saving ++ tokens).count PullSaver.fiber = if run.saves then 1 else 0
    rw [count_append, count_eq_zero.mpr noToken, Nat.zero_add]
    rcases kept with ⟨rfl, saves⟩ | ⟨progress, saves, -⟩
    · rw [saves]
      rfl
    · have none' : PullSaver.fiber ∉ tokens := fun listed => nomatch progress _ listed
      rw [saves, count_eq_zero.mpr none']
      rfl
  · intro id
    have popped' : popped.count (.call id) = 0 :=
      count_eq_zero.mpr fun listed => nomatch owned _ listed
    rw [← sound.callTokens id]
    show (world.saving ++ tokens).count _ = _
    rw [count_append, count_append, popped', count_eq_zero.mpr (noCall id)]
    omega
  · intro loading
    exact nomatch (sound.isLoaded_of_fiber is).symm.trans loading
  · intro loaded listed
    rcases mem_append.mp (show PullSaver.load ∈ world.saving ++ tokens from listed) with old | new
    · exact sound.loaded loaded (mem_append_right _ old)
    · exact noLoad new
  · exact fun writes => ⟨append_ne_nil_of_left_ne_nil (sound.turn writes).1 _, rfl⟩
  · rintro - ⟨⟩
    refine ⟨record, rfl, ?_⟩
    show run.Fits (overtaken (world.saving ++ tokens)) record.state
    rw [overtaken_append_of_not_mem noToken]
    rcases kept with ⟨rfl, -⟩ | ⟨-, quiet, -⟩
    · exact PullRun.fits_of_not_overtaken.mpr stands
    · refine (PullRun.fits_of_not_ending ?_).mpr stands
      rw [← Bool.not_eq_true]
      intro ending
      rw [PullRun.saves_of_ending ending] at quiet
      cases quiet
  · rintro - ⟨⟩ hit
    exact nomatch free.symm.trans hit
  · exact fun id stage there => absurd there (sound.noCancel is free id stage)
  · exact fun id there => absurd there (sound.noCancel is free id _)
  · exact fun id there => absurd there (sound.noCancel is free id _)
  · intro work member
    rcases worked work member with ⟨same, seen, at', granted, read⟩
    exact ⟨_, seen, rfl, same, at', free, granted, read⟩
  · rintro - seen stage ⟨⟩ at'
    exact hashed seen stage at'
  · rintro - seen stage size ⟨⟩ at'
    exact offset seen stage size at'
  · intro all _ now writing
    rcases kept with ⟨rfl, -⟩ | ⟨progress, -, current, held, same⟩
    · exact nomatch all _ (mem_waiting_of_last _ fun writes => (sound.turn writes).1)
    have before : ∀ saver ∈ world.waiting, saver = .progress := by
      intro saver listed
      apply all
      unfold waiting at listed ⊢
      split at listed
      · rename_i writes
        show saver ∈ if world.writing.isSome then (world.saving ++ tokens).tail else _
        rw [if_pos writes, tail_append_of_ne_nil (sound.turn writes).1]
        exact mem_append_left _ listed
      · rename_i writes
        show saver ∈ if world.writing.isSome then _ else world.saving ++ tokens
        rw [if_neg writes]
        exact mem_append_left _ listed
    rcases sound.written before (sound.noMidCancel is free) now writing with ⟨current', held', same'⟩
    cases held.symm.trans held'
    exact ⟨record, rfl, same'.trans same.symm⟩
  · intro all _
    rcases kept with ⟨rfl, -⟩ | ⟨progress, -, current, held, same⟩
    · exact nomatch all .fiber (mem_append_right _ mem_cons_self)
    have landed := sound.landed (fun saver listed => all saver (mem_append_left _ listed)) (sound.noMidCancel is free)
    rw [held] at landed
    show _ = some record.state
    rw [same]
    exact landed
  · intro quiet
    exact nomatch (sound.notQuiet_of_fiber is).symm.trans quiet

theorem dropPart (sound : world.Sound digest popped)
    (unread : ∀ fiber record stage, world.fiber = some fiber → fiber.run = .going record stage →
      stage.hashed = false ∧ stage.offset = none) :
    Sound digest popped { world with part := none } := by
  refine { sound with hashed := ?_, offset := ?_ }
  · intro fiber record stage is run hashed
    rw [(unread fiber record stage is run).1] at hashed
    cases hashed
  · intro fiber record stage offset is run size
    rw [(unread fiber record stage is run).2] at size
    cases size

variable {stage : PullStage}

theorem goOn (sound : world.Sound digest popped) (is : world.fiber = some fiber)
    (free : fiber.interrupted = false) (owned : ∀ saver ∈ popped, saver = .fiber)
    (noToken : PullSaver.fiber ∉ world.saving) (goes : fiber.run.ending = false)
    (noWorks : world.works = []) {record : PullRecord δ τ}
    (stands : ∀ state, fiber.run.Stands state → stage.Stands state) (quiet : stage.saves = false)
    (hashed : stage.hashed = true → ∃ content, world.part = some content ∧ digest content = record.sha256)
    (offset : ∀ offset, stage.offset = some offset → world.partSize = offset) :
    (world.goOn fiber record stage).Sound digest [] := by
  rcases sound.standing is goes with ⟨current, held, stand⟩
  have goes := sound.goes is free owned noToken (.going record stage) current [] world.part []
    (stands _ stand) (.inr ⟨nofun, quiet, current, held, rfl⟩) ?_ ?_ nofun
  · rw [← held, ← noWorks, append_nil] at goes
    exact goes
  · intro seen at' same
    cases same
    exact hashed
  · intro seen at' size same
    cases same
    exact offset size

variable {change : PullRecord δ τ → PullRecord δ τ}

theorem update (sound : world.Sound digest popped) (is : world.fiber = some fiber)
    (free : fiber.interrupted = false) (owned : ∀ saver ∈ popped, saver = .fiber)
    (noToken : PullSaver.fiber ∉ world.saving) (goes : fiber.run.ending = false)
    (noWorks : world.works = []) {record : PullRecord δ τ}
    (stands : ∀ current, fiber.run.Stands current.state → stage.Stands (change current).state)
    (saves : stage.saves = true)
    (hashed : stage.hashed = true → ∃ content, world.part = some content ∧ digest content = record.sha256)
    (offset : ∀ offset, stage.offset = some offset → world.partSize = offset) :
    (world.update fiber record change stage).Sound digest [] := by
  rcases sound.standing is goes with ⟨current, held, stand⟩
  have goes := sound.goes is free owned noToken (.going record stage) (change current) [.fiber]
    world.part [] (stands current stand) (.inl ⟨rfl, saves⟩) ?_ ?_ nofun
  · unfold PullWorld.update
    rw [held]
    rw [← noWorks] at goes
    exact goes
  · intro seen at' same
    cases same
    exact hashed
  · intro seen at' size same
    cases same
    exact offset size

variable {seen : PullRecord δ τ} {was : PullStage}

/-- What a fiber that awaits no save and isn't installing has under way. -/
theorem nothing (sound : world.Sound digest []) (is : world.fiber = some fiber)
    (run : fiber.run = .going seen was) (quiet : was.saves = false) (another : was ≠ .installing) :
    PullSaver.fiber ∉ world.saving ∧ fiber.run.ending = false ∧ world.works = [] := by
  refine ⟨sound.notWaits is (by rw [run]; exact quiet), ?_, ?_⟩
  · rw [← Bool.not_eq_true]
    intro ending
    have saves := PullRun.saves_of_ending ending
    rw [run] at saves
    exact nomatch quiet.symm.trans saves
  · apply sound.noWorks_of_run is
    intro seen run'
    rw [run] at run'
    exact another (PullRun.going.inj run').2

theorem nextOn (sound : world.Sound digest []) (is : world.fiber = some fiber) (free : fiber.interrupted = false)
    (run : fiber.run = .going seen was) (quiet : was.saves = false) (another : was ≠ .installing) (stands : ∀ state, was.Stands state → stage.Stands state)
    (awaits : stage.saves = false)
    (hashed : stage.hashed = true → ∃ content, world.part = some content ∧ digest content = seen.sha256)
    (offset : ∀ offset, stage.offset = some offset → world.partSize = offset) :
    (world.goOn fiber seen stage).Sound digest [] := by
  rcases sound.nothing is run quiet another with ⟨noToken, goes, noWorks⟩
  refine sound.goOn is free nofun noToken goes noWorks ?_ awaits hashed offset
  rw [run]
  exact stands

theorem nextUpdate (sound : world.Sound digest []) (is : world.fiber = some fiber) (free : fiber.interrupted = false)
    (run : fiber.run = .going seen was) (quiet : was.saves = false) (another : was ≠ .installing)
    (stands : ∀ current, was.Stands current.state → stage.Stands (change current).state)
    (saves : stage.saves = true)
    (hashed : stage.hashed = true → ∃ content, world.part = some content ∧ digest content = seen.sha256)
    (offset : ∀ offset, stage.offset = some offset → world.partSize = offset) :
    (world.update fiber seen change stage).Sound digest [] := by
  rcases sound.nothing is run quiet another with ⟨noToken, goes, noWorks⟩
  refine sound.update is free nofun noToken goes noWorks ?_ saves hashed offset
  rw [run]
  exact stands

/-- The same, after the part was removed. -/
theorem nextDropped (sound : world.Sound digest []) (is : world.fiber = some fiber)
    (free : fiber.interrupted = false) (run : fiber.run = .going seen was)
    (quiet : was.saves = false) (another : was ≠ .installing)
    (unread : was.hashed = false ∧ was.offset = none)
    (stands : ∀ current, was.Stands current.state → stage.Stands (change current).state)
    (saves : stage.saves = true) (unread' : stage.hashed = false ∧ stage.offset = none) :
    ({ world with part := none }.update fiber seen change stage).Sound digest [] := by
  have dropped : Sound digest [] { world with part := none } := by
    apply sound.dropPart
    intro running record stage is' run'
    cases is.symm.trans is'
    cases run.symm.trans run'
    exact unread
  refine dropped.nextUpdate is free run quiet another stands saves ?_ ?_
  · intro hashed
    exact nomatch unread'.1.symm.trans hashed
  · intro offset size
    exact nomatch unread'.2.symm.trans size

/-- A verified part is handed to the lanes. -/
theorem nextInstall (sound : world.Sound digest []) (is : world.fiber = some fiber)
    (free : fiber.interrupted = false) (run : fiber.run = .going seen .resolving) :
    (PullWorld.goOn { world with works := world.works ++ [{ fiber := fiber.id, sha256 := seen.sha256 }] }
      fiber seen .installing).Sound digest [] := by
  rcases sound.nothing is run rfl nofun with ⟨noToken, goes, noWorks⟩
  rcases sound.standing is goes with ⟨current, held, stand⟩
  rw [run] at stand
  have goes := sound.goes is free nofun noToken (.going seen .installing) current [] world.part
    [{ fiber := fiber.id, sha256 := seen.sha256 }] stand (.inr ⟨nofun, rfl, current, held, rfl⟩) ?_ ?_ ?_
  · rw [← held, append_nil] at goes
    rw [noWorks]
    exact goes
  · intro record stage same _
    cases same
    exact sound.hashed fiber seen _ is run rfl
  · intro record stage size same at'
    cases same
    exact nomatch at'
  · intro work member
    obtain rfl := mem_singleton.mp member
    exact ⟨rfl, seen, rfl, rfl, nofun⟩

theorem nextChunk (sound : world.Sound digest []) (is : world.fiber = some fiber)
    (free : fiber.interrupted = false) {received : Nat}
    (run : fiber.run = .going seen (.appending received)) (bytes : List β) (noted : Bool) :
    Sound digest [] { world with
      part := some (world.part.getD [] ++ bytes)
      memory := world.memory.map ({ · with receivedBytes := received + bytes.length })
      saving := world.saving ++ if noted then [.progress] else []
      fiber := some { fiber with run := .going seen (.appending (received + bytes.length)) } } := by
  rcases sound.nothing is run rfl nofun with ⟨noToken, goes, noWorks⟩
  rcases sound.standing is goes with ⟨current, held, stand⟩
  rw [run] at stand
  have goes := sound.goes is free nofun noToken (.going seen (.appending (received + bytes.length)))
    { current with receivedBytes := received + bytes.length }
    (if noted then [.progress] else []) (some (world.part.getD [] ++ bytes)) [] stand (.inr ⟨?_, rfl, current, held, rfl⟩) ?_ ?_ nofun
  · rw [← noWorks] at goes
    rw [held]
    exact goes
  · intro saver listed
    split at listed
    · exact mem_singleton.mp listed
    · cases listed
  · intro record stage same hashed
    cases same
    cases hashed
  · intro record stage size same at'
    cases same
    cases at'
    show (world.part.getD [] ++ bytes).length = _
    rw [length_append]
    exact congrArg (· + bytes.length) (sound.offset fiber seen _ received is run rfl)

/-- A fiber that awaits no save goes on. -/
theorem fiberNext [DecidableEq δ] (sound : world.Sound digest []) (is : world.fiber = some fiber)
    (free : fiber.interrupted = false) {event : FiberEvent β} {after : PullWorld β δ τ}
    (step : world.fiberNext digest fiber fiber.run event = some after) : after.Sound digest [] := by
  have failed {seen : PullRecord δ τ} {was : PullStage} (run : fiber.run = .going seen was)
      (quiet : was.saves = false) (another : was ≠ .installing) :
      (world.update fiber seen (become .failed) .failing).Sound digest [] :=
    sound.nextUpdate is free run quiet another (fun _ _ => rfl) rfl nofun nofun
  unfold PullWorld.fiberNext at step
  split at step
  · -- begin
    rename_i run
    have noToken : PullSaver.fiber ∉ world.saving := sound.notWaits is (by rw [run]; rfl)
    have goes : fiber.run.ending = false := by rw [run]; rfl
    have noWorks : world.works = [] := sound.noWorks_of_run is fun _ => by rw [run]; nofun
    rcases sound.standing is goes with ⟨record, held, -⟩
    rw [held] at step
    cases step
    split
    all_goals
      refine sound.goOn is free nofun noToken goes noWorks ?_ rfl nofun nofun
      rw [run]
      exact fun _ stands => stands
  · -- size
    rename_i run
    cases step
    exact sound.nextUpdate is free run rfl nofun (fun _ stands => stands) rfl nofun fun _ same => Option.some.inj same
  · -- broke, without an address
    rename_i run
    cases step
    exact sound.nextUpdate is free run rfl nofun (fun _ stands => stands) rfl nofun nofun
  · -- removed, for it was too large
    rename_i run
    cases step
    exact sound.nextDropped is free run rfl nofun ⟨rfl, rfl⟩ (fun _ stands => stands) rfl ⟨rfl, rfl⟩
  · -- answer
    rename_i run
    cases step
    exact sound.nextUpdate is free run rfl nofun (fun _ stands => stands) rfl nofun
      fun _ same => sound.offset fiber _ _ _ is run same
  · -- broke, before an answer
    rename_i run
    cases step
    split
    · exact sound.nextOn is free run rfl nofun (fun _ stands => stands) rfl nofun nofun
    · exact sound.nextUpdate is free run rfl nofun (fun _ stands => stands) rfl nofun nofun
  · -- broke, in an answer
    rename_i run
    cases step
    split
    · exact sound.nextOn is free run rfl nofun (fun _ stands => stands) rfl nofun nofun
    · exact sound.nextUpdate is free run rfl nofun (fun _ stands => stands) rfl nofun nofun
  · -- chunk
    rename_i run
    cases step
    exact sound.nextChunk is free run _ _
  · -- ended
    rename_i run
    cases step
    exact sound.nextUpdate is free run rfl nofun (fun _ stands => stands) rfl nofun nofun
  · -- retry
    rename_i run
    cases step
    split
    · exact sound.nextOn is free run rfl nofun (fun _ stands => stands) rfl nofun nofun
    · exact failed run rfl nofun
  · -- hashed
    rename_i run
    split at step
    · rename_i content part
      split at step
      · cases step
        split
        · rename_i same
          exact sound.nextUpdate is free run rfl nofun (fun _ _ => rfl) rfl (fun _ => ⟨content, part, same⟩) nofun
        · exact sound.nextOn is free run rfl nofun (fun _ stands => stands) rfl nofun nofun
      · cases step
        exact failed run rfl nofun
    · cases step
      exact failed run rfl nofun
  · -- removed, for it wasn't what was granted
    rename_i run
    cases step
    exact sound.nextDropped is free run rfl nofun ⟨rfl, rfl⟩ (fun _ _ => rfl) rfl ⟨rfl, rfl⟩
  · -- resolved
    rename_i run
    cases step
    split
    · exact sound.nextInstall is free run
    · exact failed run rfl nofun
  · -- removed, once it is installed
    rename_i run
    cases step
    exact sound.nextDropped is free run rfl nofun ⟨rfl, rfl⟩ (fun _ _ => rfl) rfl ⟨rfl, rfl⟩
  · cases step

/-! ## After a save -/

theorem notSaving (sound : world.Sound digest [.fiber]) : PullSaver.fiber ∉ world.saving := by
  have token := sound.fiberToken
  rw [singleton_append, count_cons_self] at token
  have most := world.fiberSaves_le_one
  exact count_eq_zero.mp (by omega)

theorem saved (sound : world.Sound digest [.fiber]) (is : world.fiber = some fiber)
    (free : fiber.interrupted = false) (saves : fiber.run.saves = true)
    (goes : fiber.run.ending = false) : (world.saved fiber).Sound digest [] := by
  have noToken := sound.notSaving
  have owned : ∀ saver ∈ [PullSaver.fiber], saver = .fiber := fun _ => mem_singleton.mp
  have noWorks : world.works = [] := by
    apply sound.noWorks_of_run is
    intro seen run
    rw [run] at saves
    cases saves
  have on {seen : PullRecord δ τ} {was : PullStage} (run : fiber.run = .going seen was)
      {stage : PullStage} (stands : ∀ state, was.Stands state → stage.Stands state)
      (quiet : stage.saves = false)
      (hashed : stage.hashed = true → ∃ content, world.part = some content ∧ digest content = seen.sha256)
      (offset : ∀ offset, stage.offset = some offset → world.partSize = offset) :
      (world.goOn fiber seen stage).Sound digest [] := by
    refine sound.goOn is free owned noToken goes noWorks ?_ quiet hashed offset
    rw [run]
    exact stands
  have verifies {seen : PullRecord δ τ} : (world.update fiber seen (become .verifying) .verifying).Sound digest [] :=
    sound.update is free owned noToken goes noWorks (fun _ _ => .inr rfl) rfl nofun nofun
  unfold PullWorld.saved
  cases run : fiber.run with
  | begun =>
    rw [run] at saves
    cases saves
  | going seen stage =>
    rw [run] at saves goes
    cases stage with
    | noting offset =>
      have at' : world.partSize = offset := sound.offset fiber seen _ offset is run rfl
      dsimp only
      split
      · exact verifies
      · split
        · exact on run (fun _ stands => stands) rfl nofun nofun
        · exact on run (fun _ stands => stands) rfl nofun fun _ same => at'.trans (Option.some.inj same)
    | answering offset =>
      refine on run (fun _ stands => stands) rfl nofun fun _ same => ?_
      exact (sound.offset fiber seen _ offset is run rfl).trans (Option.some.inj same)
    | counting => exact verifies
    | retrying => exact on run (fun _ stands => stands) rfl nofun nofun
    | verifying => exact on run (fun _ stands => stands) rfl nofun nofun
    | marking =>
      exact on run (fun _ stands => stands) rfl (fun _ => sound.hashed fiber seen _ is run rfl) nofun
    | completing | failing => cases goes
    | sizing | oversized | requesting _ | appending _ | waiting | hashing | discarding | resolving
      | installing | clearing => cases saves

/-! ## The end of a fiber -/

theorem withoutFiber (sound : world.Sound digest popped) (is : world.fiber = some fiber)
    {queue : List PullSaver} {works : List (PullInstall β δ)} (none' : works = [])
    (others : ∀ saver, saver ≠ .fiber → queue.count saver = (popped ++ world.saving).count saver)
    (gone : PullSaver.fiber ∉ queue) (turn : world.writing.isSome = true → queue ≠ [])
    (kept : world.NoMidCancel → queue = world.saving)
    (starting : ∀ id input, world.calls.get id = some (.start input .saving) →
      ∃ record, world.memory = some record ∧ record.state = .pulling)
    (idle : ∀ record, world.memory = some record → record.state.active = true →
      (∃ id input, world.calls.get id = some (.start input .saving)) ∨
        ∃ id call, world.calls.get id = some call ∧ call.midCancel = true) :
    Sound digest [] { world with fiber := none, saving := queue, works } := by
  have noCancelled : ∀ id, world.calls.get id ≠ some (.cancel .saving) := by
    intro id there
    exact nomatch ((sound.cancelling id _ there).2 fiber is).1
  refine { sound with
    fiberToken := ?_, callTokens := ?_, loading := ?_, loaded := ?_, turn := ?_,
    stands := (fun _ is' => nomatch is'), starting := ?_, idle := ?_,
    interrupted := (fun _ is' => nomatch is'), cancelling := ?_, cancelledWrite := ?_, works := ?_,
    hashed := (fun _ _ _ is' => nomatch is'), offset := (fun _ _ _ _ is' => nomatch is'), written := ?_, landed := ?_, quiet := ?_ }
  · show queue.count PullSaver.fiber = 0
    exact count_eq_zero.mpr gone
  · intro id
    exact (others (.call id) nofun).trans (sound.callTokens id)
  · intro loading
    exact nomatch (sound.isLoaded_of_fiber is).symm.trans loading
  · intro loaded listed
    have counted : 0 < queue.count .load := count_pos_iff.mpr listed
    rw [others .load nofun] at counted
    exact sound.loaded loaded (count_pos_iff.mp counted)
  · exact fun writes => ⟨turn writes, (sound.turn writes).2⟩
  · exact fun _ => starting
  · exact fun _ => idle
  · exact fun id stage there => ⟨(sound.cancelling id stage there).1, fun _ is' => nomatch is'⟩
  · exact fun id there => absurd there (noCancelled id)
  · intro work member
    have member' : work ∈ works := member
    rw [none'] at member'
    exact nomatch member'
  · intro all noMid
    have same := kept noMid
    subst same
    exact sound.written all noMid
  · intro all noMid
    have same := kept noMid
    subst same
    exact sound.landed all noMid
  · intro quiet
    exact nomatch (sound.notQuiet_of_fiber is).symm.trans quiet

theorem noStart_of_interrupted (sound : world.Sound digest popped) (is : world.fiber = some fiber)
    (hit : fiber.interrupted = true) : (∃ id call, world.calls.get id = some call ∧
      call.midCancel = true) ∧ ∀ id input stage, world.calls.get id ≠ some (.start input stage) := by
  rcases sound.interrupted fiber is hit with ⟨id, there⟩
  exact ⟨⟨id, _, there, rfl⟩, fun id' input stage there' => sound.apart id' input stage id _ there' there⟩

theorem noWorks_of_interrupted (sound : world.Sound digest popped) (is : world.fiber = some fiber)
    (hit : fiber.interrupted = true) : world.works = [] := by
  rw [eq_nil_iff_forall_not_mem]
  intro work member
  rcases sound.works work member with ⟨running, record, is', -, -, free, -⟩
  cases is.symm.trans is'
  exact nomatch hit.symm.trans free

/-- A fiber whose last save is done ends, as one does that was interrupted. -/
theorem ended (sound : world.Sound digest [.fiber]) (is : world.fiber = some fiber)
    (finished : fiber.interrupted = true ∨ fiber.run.ending = true) :
    Sound digest [] { world with fiber := none } := by
  have same : ∀ saver, saver ≠ PullSaver.fiber →
      world.saving.count saver = ([PullSaver.fiber] ++ world.saving).count saver := by
    intro saver other
    rw [singleton_append, count_cons_of_ne fun same => other same.symm]
  cases hit : fiber.interrupted with
  | true =>
    rcases sound.noStart_of_interrupted is hit with ⟨mid, noStart⟩
    exact sound.withoutFiber is (sound.noWorks_of_interrupted is hit) same sound.notSaving
      (fun writes => (sound.turn writes).1) (fun _ => rfl)
      (fun id input there => absurd there (noStart id input _)) fun _ _ _ => .inr mid
  | false =>
    have ending : fiber.run.ending = true := finished.resolve_left (by rw [hit]; exact Bool.false_ne_true)
    rcases sound.stands fiber is with ⟨record, held, fits⟩
    rw [singleton_append, overtaken_fiber] at fits
    unfold PullRun.Fits at fits
    rw [ending, Bool.true_and] at fits
    have noWorks : world.works = [] := by
      apply sound.noWorks_of_run is
      intro seen run
      rw [run] at ending
      cases ending
    refine sound.withoutFiber is noWorks same sound.notSaving (fun writes => (sound.turn writes).1) (fun _ => rfl) ?_ ?_
    · intro id input there
      have listed := sound.callWaits.mpr ⟨_, there, rfl⟩
      have called : world.saving.any PullSaver.isCall = true :=
        any_eq_true.mpr ⟨_, (mem_cons.mp listed).resolve_left nofun, rfl⟩
      rw [if_pos called] at fits
      exact ⟨record, held, fits⟩
    intro now held' active
    cases held.symm.trans held'
    left
    split at fits
    · rename_i called
      rcases any_eq_true.mp called with ⟨saver, listed, isCall⟩
      cases saver with
      | fiber | progress | load => cases isCall
      | call id =>
        rcases sound.callWaits.mp (mem_cons_of_mem _ listed) with ⟨call, there, saves⟩
        cases call with
        | cancel stage => exact absurd there (sound.noCancel is hit id stage)
        | start input stage =>
          cases stage with
          | saving => exact ⟨id, input, there⟩
          | resolving | sizing | making _ => cases saves
    · -- What a fiber wrote down last isn't under way any more.
      rw [PullRun.not_active_of_ending ending fits] at active
      cases active

/-- An interrupted fiber ends where it awaits no save that has begun. -/
theorem unwound (sound : world.Sound digest []) (is : world.fiber = some fiber) (hit : fiber.interrupted = true)
    (free : ¬ (world.writing.isSome ∧ world.saving.head? = some .fiber)) :
    Sound digest [] { world with
      fiber := none
      saving := world.saving.erase .fiber
      works := world.works.filter fun work => work.reading.isSome || work.fiber ≠ fiber.id } := by
  rcases sound.noStart_of_interrupted is hit with ⟨mid, noStart⟩
  refine sound.withoutFiber is ?_ ?_ ?_ ?_ ?_ ?_ ?_
  · rw [sound.noWorks_of_interrupted is hit]
    rfl
  · intro saver other
    exact count_erase_of_ne other
  · intro listed
    have token := sound.fiberToken
    have most := world.fiberSaves_le_one
    have counted : 0 < (world.saving.erase .fiber).count .fiber := count_pos_iff.mpr listed
    rw [count_erase_self] at counted
    rw [nil_append] at token
    omega
  · intro writes
    cases queue : world.saving with
    | nil => exact absurd queue (sound.turn writes).1
    | cons saver rest =>
      have other : saver ≠ .fiber := by
        rintro rfl
        exact free ⟨writes, by rw [queue]; rfl⟩
      rw [erase_cons_tail (by simpa using other)]
      exact cons_ne_nil _ _
  · intro none'
    rcases mid with ⟨id, call, there, isMid⟩
    rw [none' id call there] at isMid
    cases isMid
  · exact fun id input there => absurd there (noStart id input _)
  · exact fun _ _ _ => .inr mid

/-! ## Installs -/

/-- A granted install reads the part that was verified. -/
theorem granted (sound : world.Sound digest []) (id : Nat) : Sound digest [] { world with
      works := world.works.map fun work =>
        if work.fiber = id ∧ work.reading.isNone then { work with reading := some world.part }
        else work } := by
  refine { sound with works := ?_ }
  intro work member
  rcases mem_map.mp member with ⟨before, listed, rfl⟩
  rcases sound.works before listed with ⟨running, record, is, same, run, free, asked, read⟩
  split
  · refine ⟨running, record, is, same, run, free, asked, ?_⟩
    intro content reads
    rcases sound.hashed running record _ is run rfl with ⟨content', part, verified⟩
    rw [part] at reads
    cases reads
    exact verified.trans asked.symm
  · exact ⟨running, record, is, same, run, free, asked, read⟩

theorem worked (sound : world.Sound digest []) (is : world.fiber = some fiber)
    (free : fiber.interrupted = false) (run : fiber.run = .going seen .installing)
    (none' : world.works = []) (ok : Bool) :
    (world.worked fiber.id ok).Sound digest [] := by
  have noToken : PullSaver.fiber ∉ world.saving := sound.notWaits is (by rw [run]; rfl)
  have goes : fiber.run.ending = false := by
    rw [run]
    rfl
  cases fiber with
  | mk id at' hit =>
    subst free run
    unfold PullWorld.worked
    rw [is]
    dsimp only
    rw [if_pos rfl]
    split
    · exact sound.goOn is rfl nofun noToken goes none' (fun _ stands => stands) rfl nofun nofun
    · exact sound.update is rfl nofun noToken goes none' (fun _ _ => rfl) rfl nofun nofun

theorem done (sound : world.Sound digest []) {id : Nat} {ok : Bool} {after : PullWorld β δ τ}
    [DecidableEq δ] [DecidableEq τ] (step : world.next digest (.installed id ok) = some after) :
    after.Sound digest [] := by
  unfold PullWorld.next at step
  dsimp only at step
  split at step
  · rename_i work found
    have member := mem_of_find?_eq_some found
    have which := find?_some found
    rw [Bool.and_eq_true, decide_eq_true_eq] at which
    rcases sound.works work member with ⟨running, record, is, same, run, free, asked, read⟩
    have none' : (world.works.filter (·.fiber ≠ id)) = [] := by
      rw [filter_eq_nil_iff]
      intro other listed
      rcases sound.works other listed with ⟨running', _, is', same', -⟩
      cases is.symm.trans is'
      simp [← same', same, which.1]
    have left : Sound digest [] { world with works := world.works.filter (·.fiber ≠ id) } := by
      rw [none']
      exact { sound with works := fun _ member => nomatch member }
    have id' : running.id = id := same.trans which.1
    have fails : (PullWorld.worked { world with works := world.works.filter (·.fiber ≠ id) } id
        false).Sound digest [] := by
      rw [← id'] at left none' ⊢
      exact left.worked is free run none' false
    split at step
    · rename_i content reads
      cases step
      have verified : digest content = work.sha256 :=
        read content (by rw [← Option.join_eq_some_iff]; exact reads)
      have installs : Sound digest [] { world with
          works := world.works.filter (·.fiber ≠ id)
          installed := world.installed ++ [⟨content, work.sha256, world.quiet⟩] } := by
        refine { left with installed := ?_ }
        intro install listed
        rcases mem_append.mp listed with before | new
        · exact sound.installed install before
        · rw [mem_singleton.mp new]
          exact ⟨verified, sound.notQuiet_of_fiber is⟩
      rw [← id'] at installs none' ⊢
      exact installs.worked is free run none' true
    · cases step
    · cases step
      exact fails
  · cases step

end Sound

end PullWorld

end Kiln.Relay
