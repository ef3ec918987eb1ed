import Kiln.Relay.TransferPullsCalls
import Kiln.Relay.TransferPullsFiber

/-!
# Pulls whose calls keep apart

Every run of `TransferPulls` (`apps/relay/src/transfers/peer/pulls.ts`) whose starts and cancels keep apart
installs only what was verified, stops once a cancel has answered, leaves no pull under way without a
fiber and appends bytes where the part ends.

A start checks the record and awaits before it stores another, and a cancel does too. One that began
before the other is done with it stores its record over the other's.
-/

namespace Kiln.Relay
open Kiln.Lib List

variable {β δ τ : Type}

namespace PullWorld

variable {digest : List β → δ} {world : PullWorld β δ τ}

namespace Sound

/-! ## Saves -/

theorem writes (sound : world.Sound digest []) {record : PullRecord δ τ}
    (held : world.memory = some record) (queued : world.saving ≠ []) :
    Sound digest [] { world with writing := some record } := by
  refine { sound with turn := ?_, cancelledWrite := ?_, written := ?_, quiet := ?_ }
  · exact fun _ => ⟨queued, by rw [held]; rfl⟩
  · intro id there
    refine ⟨fun _ now writing => ?_, fun listed => nomatch listed⟩
    cases writing
    rcases sound.cancelled id there with ⟨record', held', cancelled⟩
    cases held.symm.trans held'
    exact cancelled
  · intro _ _ now writing
    cases writing
    exact ⟨record, held, rfl⟩
  · intro quiet
    refine ⟨(sound.quiet quiet).1, (sound.quiet quiet).2.1, ?_⟩
    rintro now (memory | disk | writing)
    · exact (sound.quiet quiet).2.2 now (.inl memory)
    · exact (sound.quiet quiet).2.2 now (.inr (.inl disk))
    · cases writing
      exact (sound.quiet quiet).2.2 record (.inl held)

theorem wrote (sound : world.Sound digest []) {record : PullRecord δ τ} {saver : PullSaver}
    {rest : List PullSaver} (writing : world.writing = some record)
    (queue : world.saving = saver :: rest) :
    Sound digest [saver] { world with disk := some record, writing := none, saving := rest } := by
  have same : [saver] ++ rest = [] ++ world.saving := queue.symm
  refine { sound with
    fiberToken := ?_, callTokens := ?_, loading := ?_, loaded := ?_, turn := nofun, stands := ?_,
    cancelledWrite := ?_, written := ?_, landed := ?_, quiet := ?_ }
  · exact (congrArg (count PullSaver.fiber) same).trans sound.fiberToken
  · intro id
    exact (congrArg (count (PullSaver.call id)) same).trans (sound.callTokens id)
  · intro loading
    exact ⟨same.trans (sound.loading loading).1, (sound.loading loading).2⟩
  · intro loaded listed
    exact sound.loaded loaded (same ▸ listed)
  · intro fiber is
    show ∃ current, world.memory = some current ∧ fiber.run.Fits (overtaken ([saver] ++ rest)) current.state
    rw [same]
    exact sound.stands fiber is
  · intro id there
    refine ⟨fun _ _ writing' => (nomatch writing'), fun listed now disk => ?_⟩
    cases disk
    refine (sound.cancelledWrite id there).1 ?_ record writing
    rw [queue, mem_singleton.mp listed]
    rfl
  · exact fun _ _ _ writing' => nomatch writing'
  · intro all none'
    have waits : world.waiting = rest := by
      unfold waiting
      rw [writing, queue]
      rfl
    rcases sound.written (by rw [waits]; exact all) none' record writing with ⟨current, held, state⟩
    show some record.state = world.memory.map PullRecord.state
    rw [held, state]
    rfl
  · intro quiet
    refine ⟨(sound.quiet quiet).1, (sound.quiet quiet).2.1, ?_⟩
    rintro now (memory | disk | writing')
    · exact (sound.quiet quiet).2.2 now (.inl memory)
    · cases disk
      exact (sound.quiet quiet).2.2 record (.inr (.inr writing))
    · exact nomatch writing'

/-- Nobody waits for a save of progress. -/
theorem progressed (sound : world.Sound digest [.progress]) : world.Sound digest [] := by
  refine { sound with
    fiberToken := ?_, callTokens := ?_, loading := ?_, loaded := ?_, stands := ?_, cancelledWrite := ?_ }
  · have token := sound.fiberToken
    rw [singleton_append, count_cons_of_ne PullSaver.noConfusion] at token
    exact token
  · intro id
    have token := sound.callTokens id
    rw [singleton_append, count_cons_of_ne PullSaver.noConfusion] at token
    exact token
  · intro loading
    exact nomatch (cons.inj (sound.loading loading).1).1
  · exact fun loaded listed => sound.loaded loaded (mem_cons_of_mem _ listed)
  · intro fiber is
    rcases sound.stands fiber is with ⟨record, held, fits⟩
    rw [singleton_append, overtaken_cons PullSaver.noConfusion] at fits
    exact ⟨record, held, fits⟩
  · exact fun id there => ⟨(sound.cancelledWrite id there).1, fun listed => nomatch listed⟩

/-- The Relay has loaded the record it failed. -/
theorem hasLoaded (sound : world.Sound digest [.load]) : Sound digest [] { world with loading := false } := by
  have loading : world.loading = true := by
    by_contra loaded
    exact sound.loaded (Bool.not_eq_true _ ▸ loaded) mem_cons_self
  rcases sound.loading loading with ⟨queue, noFiber, -, record, held, failed⟩
  have queue : world.saving = [] := (cons.inj queue).2
  refine { sound with
    fiberToken := ?_, callTokens := ?_, loading := nofun, loaded := ?_, stands := ?_,
    cancelledWrite := ?_ }
  · have token := sound.fiberToken
    rw [singleton_append, count_cons_of_ne PullSaver.noConfusion] at token
    exact token
  · intro id
    have token := sound.callTokens id
    rw [singleton_append, count_cons_of_ne PullSaver.noConfusion] at token
    exact token
  · intro _
    show PullSaver.load ∉ world.saving
    rw [queue]
    exact not_mem_nil
  · intro fiber is
    exact nomatch noFiber.symm.trans is
  · exact fun id there => ⟨(sound.cancelledWrite id there).1, fun listed => nomatch listed⟩

/-- What waited for a save goes on from it. -/
theorem goesOn {saver : PullSaver} (sound : world.Sound digest [saver]) (written : world.writing = none) :
    (world.goesOn saver).Sound digest [] := by
  cases saver with
  | progress => exact sound.progressed
  | load => exact sound.hasLoaded
  | fiber =>
    have token := sound.fiberToken
    rw [singleton_append, count_cons_self] at token
    unfold fiberSaves at token
    unfold PullWorld.goesOn
    split at token
    · rename_i fiber is
      split at token
      · rename_i saves
        rw [is]
        dsimp only
        split
        · rename_i hit
          exact sound.ended is (.inl hit)
        rename_i free
        rw [Bool.not_eq_true] at free
        cases ending : fiber.run.ending with
        | false => exact sound.saved is free saves ending
        | true =>
          have finished : world.saved fiber = { world with fiber := none } := by
            unfold PullWorld.saved
            cases run : fiber.run with
            | begun =>
              rw [run] at ending
              cases ending
            | going record stage =>
              rw [run] at ending
              cases stage <;> first | rfl | cases ending
          rw [finished]
          exact sound.ended is (.inr ending)
      · cases token
    · cases token
  | call id =>
    rcases sound.callWaits.mp mem_cons_self with ⟨call, there, saves⟩
    unfold PullWorld.goesOn
    dsimp only
    rw [there]
    cases call with
    | start input stage =>
      cases stage with
      | resolving | sizing | making _ => cases saves
      | saving =>
        have ran := sound.ran there
        have calls : world.run.calls = world.calls := by
          unfold PullWorld.run
          split <;> rfl
        have fiber : world.run.fiber.isSome = true := by
          unfold PullWorld.run
          split
          · rename_i is
            rw [is]
            rfl
          · rfl
        have writing : world.run.writing = none := by
          unfold PullWorld.run
          split <;> exact written
        have answered := ran.answer (by rw [calls]; exact there) rfl (fun _ => fiber) writing world.run.quiet .inl
        have order : PullWorld.run { world with calls := world.calls.delete id } =
            { world.run with calls := world.run.calls.delete id, quiet := world.run.quiet } := by
          unfold PullWorld.run
          dsimp only
          split <;> rfl
        dsimp only
        rw [order]
        exact answered
    | cancel stage =>
      cases stage with
      | interrupting _ | removing => cases saves
      | saving => exact sound.answer there rfl (by rintro ⟨⟩) written true fun _ => .inr rfl

/-! ## A restart -/

/-- A Relay that has started. -/
theorem fresh {memory disk : Option (PullRecord δ τ)} {part : Option (List β)}
    {fiber : Option (PullFiber δ τ)} {nextFiber : Nat} {saving : List PullSaver} {loading quiet : Bool}
    {installed : List (PullInstalled β δ)}
    (verified : ∀ install ∈ installed, digest install.content = install.sha256 ∧ install.quiet = false)
    (queue : saving = if loading then [.load] else [])
    (failing : loading = true → fiber = none ∧ ∃ record, memory = some record ∧ record.state = .failed)
    (landed : loading = false → disk.map PullRecord.state = memory.map PullRecord.state)
    (begun : ∀ running, fiber = some running → running.run = .begun ∧ running.interrupted = false ∧
      ∃ record, memory = some record ∧ (record.state = .pulling ∨ record.state = .verifying))
    (idle : fiber = none → ∀ record, memory = some record → record.state.active = false)
    (quieted : quiet = true → fiber = none ∧
      ∀ record, memory = some record ∨ disk = some record → record.state = .cancelled) :
    Sound digest [] { memory, disk, part, fiber, nextFiber, saving, loading, quiet, installed } := by
  have notSaving : ∀ saver, saver ≠ .load → saver ∉ saving := by
    rintro saver other listed
    rw [queue] at listed
    split at listed
    · exact other (mem_singleton.mp listed)
    · cases listed
  refine {
    apart := fun _ _ _ _ _ there => (nomatch there)
    fiberToken := ?_
    callTokens := fun id => count_eq_zero.mpr (notSaving _ PullSaver.noConfusion)
    loading := ?_
    loaded := ?_
    turn := nofun
    stands := ?_
    starting := fun _ _ _ there => (nomatch there)
    idle := ?_
    interrupted := ?_
    cancelling := fun _ _ there => (nomatch there)
    cancelled := fun _ there => (nomatch there)
    cancelledWrite := fun _ there => (nomatch there)
    works := fun _ member => (nomatch member)
    hashed := ?_
    offset := ?_
    written := fun _ _ _ writing => (nomatch writing)
    landed := ?_
    quiet := ?_
    installed := verified }
  · show saving.count PullSaver.fiber = _
    rw [count_eq_zero.mpr (notSaving _ PullSaver.noConfusion)]
    unfold fiberSaves
    cases fiber with
    | none => rfl
    | some running =>
      dsimp only
      rw [(begun running rfl).1]
      rfl
  · intro is
    have is : loading = true := is
    refine ⟨?_, (failing is).1, rfl, (failing is).2⟩
    show saving = [.load]
    rw [queue, is]
    rfl
  · intro is listed
    have is : loading = false := is
    have listed : PullSaver.load ∈ saving := listed
    rw [queue, is] at listed
    cases listed
  · intro running is
    rcases begun running is with ⟨run, -, record, held, state⟩
    refine ⟨record, held, ?_⟩
    rw [run]
    exact (PullRun.fits_of_not_ending rfl).mpr state
  · intro none' record held active
    rw [idle none' record held] at active
    cases active
  · intro running is hit
    rw [(begun running is).2.1] at hit
    cases hit
  · intro running record stage is run
    rw [(begun running is).1] at run
    cases run
  · intro running record stage offset is run
    rw [(begun running is).1] at run
    cases run
  · intro all _
    apply landed
    rw [← Bool.not_eq_true]
    intro is
    rw [queue, is] at all
    exact nomatch all .load mem_cons_self
  · intro is
    refine ⟨(quieted is).1, fun _ _ there => (nomatch there), ?_⟩
    rintro record (held | held | writing)
    · exact (quieted is).2 record (.inl held)
    · exact (quieted is).2 record (.inr held)
    · cases writing

theorem loads {disk : Option (PullRecord δ τ)} {part : Option (List β)} {nextFiber : Nat} {quiet : Bool}
    {installed : List (PullInstalled β δ)}
    (verified : ∀ install ∈ installed, digest install.content = install.sha256 ∧ install.quiet = false)
    (quieted : quiet = true → ∀ record, disk = some record → record.state = .cancelled) (expired : Bool) :
    (PullWorld.load { disk, part, nextFiber, quiet, installed } expired).Sound digest [] := by
  unfold PullWorld.load
  dsimp only
  cases disk with
  | none =>
    exact fresh verified rfl nofun (fun _ => rfl) nofun (fun _ _ held => nomatch held) fun _ =>
      ⟨rfl, fun _ held => nomatch held.elim id id⟩
  | some record =>
    dsimp only
    split
    · exact fresh verified rfl nofun (fun _ => rfl) nofun (fun _ _ held => nomatch held) fun _ =>
        ⟨rfl, fun _ held => nomatch held.elim id id⟩
    have cancelled (is : quiet = true) : record.state = .cancelled := quieted is record rfl
    have begins (state : record.state = .pulling ∨ record.state = .verifying) : Sound digest [] {
          memory := some record, disk := some record, part
          fiber := some { id := nextFiber, run := .begun }
          nextFiber := nextFiber + 1, quiet, installed } := by
      refine fresh verified rfl nofun (fun _ => rfl) ?_ nofun ?_
      · rintro - ⟨⟩
        exact ⟨rfl, rfl, record, rfl, state⟩
      · intro is
        rw [cancelled is] at state
        exact nomatch state
    have rests (state : record.state.active = false) :
        Sound digest [] { memory := some record, disk := some record, part, nextFiber, quiet, installed } := by
      refine fresh verified rfl nofun (fun _ => rfl) nofun ?_ ?_
      · intro _ now held
        rw [← Option.some.inj held]
        exact state
      · intro is
        refine ⟨rfl, fun now held => ?_⟩
        rw [← Option.some.inj (held.elim id id)]
        exact cancelled is
    split
    · rename_i installing
      refine fresh verified rfl (fun _ => ⟨rfl, _, rfl, rfl⟩) nofun nofun ?_ ?_
      · rintro - - ⟨⟩
        rfl
      · intro is
        rw [installing] at cancelled
        exact nomatch cancelled is
    · rename_i pulling
      exact begins (.inl pulling)
    · rename_i verifying
      exact begins (.inr verifying)
    · rename_i notInstalling notPulling notVerifying
      apply rests
      cases state : record.state with
      | pulling => exact absurd state notPulling
      | verifying => exact absurd state notVerifying
      | installing => exact absurd state notInstalling
      | completed | failed | cancelled => rfl

/-- A step of calls that keep apart. -/
theorem next [DecidableEq δ] [DecidableEq τ] (sound : world.Sound digest [])
    {event : PullEvent β δ τ} (apart : world.Apart event) {after : PullWorld β δ τ}
    (step : world.next digest event = some after) : after.Sound digest [] := by
  unfold PullWorld.next at step
  cases event with
  | start id input => exact sound.start apart step
  | resolved id found =>
    dsimp only at step
    split at step
    · rename_i input there
      cases step
      refine sound.goOnStart there nofun (if found then some (.start input .sizing) else none) ?_ ?_
      · intro id'
        cases found
        · exact OrderedMap.get_delete _ _ _
        · exact OrderedMap.get_set _ _ _ _
      · intro call is
        cases found
        · cases is
        · cases is
          exact ⟨rfl, rfl⟩
    · cases step
  | sized id =>
    dsimp only at step
    split at step
    · rename_i input there
      cases step
      refine sound.goOnStart there nofun (some (.start input (.making world.partSize)))
        (fun _ => OrderedMap.get_set _ _ _ _) ?_
      intro call is
      cases is
      exact ⟨rfl, rfl⟩
    · cases step
  | made id =>
    dsimp only at step
    split at step
    · rename_i input receivedBytes there
      cases step
      refine sound.made there fun record held => ?_
      have other : world.memory.all (fun record => record.state ≠ .installing) = true := apart
      rw [held, Option.all_some, decide_eq_true_eq] at other
      exact other
    · cases step
  | cancel id => exact sound.cancel apart step
  | interrupted id =>
    dsimp only at step
    split at step
    · rename_i fiber there
      split at step
      · cases step
      rename_i finished
      cases step
      have cancelling := sound.cancelling id _ there
      refine sound.setRemoving (sound.isLoaded there) ?_ cancelling.1 ?_ ?_
      · cases is : world.fiber with
        | none => rfl
        | some running =>
          have same := CancelStage.interrupting.inj (cancelling.2 running is).1
          rw [is, same] at finished
          exact absurd rfl finished
      · exact fun id' input stage there' => sound.apart id' input stage id _ there' there
      · intro call there'
        cases there.symm.trans there'
        rfl
    · cases step
  | removed id =>
    dsimp only at step
    split at step
    · rename_i there
      split at step
      · rename_i none'
        have held := (sound.cancelling id _ there).1
        rw [none'] at held
        cases held
      · rename_i record held
        cases step
        exact sound.cancels there record
    · cases step
  | write =>
    dsimp only at step
    split at step
    · rename_i queue held
      cases step
      exact sound.writes held (by rw [queue]; exact cons_ne_nil _ _)
    · cases step
  | wrote =>
    dsimp only at step
    split at step
    · rename_i writing queue
      cases step
      exact (sound.wrote writing queue).goesOn rfl
    · cases step
  | unwind =>
    dsimp only at step
    split at step
    · rename_i fiber is
      split at step
      · rename_i finished
        cases step
        exact sound.unwound is finished.1 finished.2
      · cases step
    · cases step
  | fiber event =>
    dsimp only at step
    split at step
    · rename_i fiber is
      split at step
      · cases step
      · rename_i free
        exact sound.fiberNext is (Bool.not_eq_true _ ▸ free) step
    · cases step
  | grant id =>
    dsimp only at step
    split at step
    · cases step
      exact sound.granted id
    · cases step
  | installed id ok => exact sound.done step
  | restart landed expired =>
    cases step
    refine loads sound.installed ?_ expired
    intro quiet record disk
    split at disk
    · rcases Option.or_eq_some_iff.mp disk with writing | ⟨-, disk⟩
      · exact (sound.quiet quiet).2.2 record (.inr (.inr writing))
      · exact (sound.quiet quiet).2.2 record (.inr (.inl disk))
    · exact (sound.quiet quiet).2.2 record (.inr (.inl disk))

/-- A Relay that knows nothing of the transfer. -/
theorem empty : Sound digest [] ({} : PullWorld β δ τ) :=
  fresh (fun _ member => nomatch member) rfl nofun (fun _ => rfl) nofun (fun _ _ held => nomatch held)
    nofun

/-! ## What the claims on a pull say -/

theorem settles_of_saves {call : PullCall δ τ} (saves : call.saves = true) : call.settles = true := by
  cases call with
  | cancel _ => rfl
  | start input stage => cases stage <;> first | rfl | exact nomatch saves

theorem settles_of_midCancel {call : PullCall δ τ} (mid : call.midCancel = true) : call.settles = true := by
  cases call with
  | cancel _ => rfl
  | start input stage => cases mid

theorem upholds (sound : world.Sound digest []) : world.Upholds digest where
  verified install member := (sound.installed install member).1
  quiet install member := (sound.installed install member).2
  running := by
    intro loaded record held active
    by_contra none'
    rw [not_or, Bool.not_eq_true, Option.isSome_eq_false_iff, Option.isNone_iff_eq_none] at none'
    rcases none' with ⟨noFiber, none'⟩
    have noMid : world.NoMidCancel := by
      intro id call there
      by_contra mid
      exact none' ⟨id, call, there, settles_of_midCancel (Bool.not_eq_false _ ▸ mid)⟩
    have idle : ∀ current, world.memory = some current → current.state.active = false := by
      intro current held'
      by_contra active'
      rw [Bool.not_eq_false] at active'
      rcases sound.idle noFiber current held' active' with ⟨id, input, there⟩ | ⟨id, call, there, mid⟩
      · exact none' ⟨id, _, there, rfl⟩
      · exact none' ⟨id, call, there, settles_of_midCancel mid⟩
    have all : ∀ saver ∈ world.saving, saver = .progress := by
      intro saver listed
      cases saver with
      | progress => rfl
      | load => exact absurd listed (sound.loaded loaded)
      | fiber =>
        have token := sound.fiberToken
        unfold fiberSaves at token
        rw [noFiber] at token
        exact absurd listed (count_eq_zero.mp token)
      | call id =>
        rcases sound.callWaits.mp listed with ⟨call, there, saves⟩
        exact absurd ⟨id, call, there, settles_of_saves saves⟩ none'
    rcases held with memory | disk
    · rw [idle record memory] at active
      cases active
    · have landed := sound.landed all noMid
      rw [disk] at landed
      rcases Option.map_eq_some_iff.mp landed.symm with ⟨current, memory, state⟩
      rw [← state, idle current memory] at active
      cases active
  appended fiber record received is run := sound.offset fiber record _ received is run rfl

end Sound

theorem sound_of_reachable [DecidableEq δ] [DecidableEq τ]
    (reachable : ((pullSystem digest).restrict Apart).Reachable world) : world.Sound digest [] := by
  apply reachable.invariant
  · rintro world rfl
    exact .empty
  · exact fun world event after sound step => sound.next step.1 step.2

end PullWorld

end Kiln.Relay
