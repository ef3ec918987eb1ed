import Kiln.Relay.TransferPullsSound

/-!
# The steps of starts and cancels

Each step of a call keeps the invariant `Kiln.Relay.PullWorld.Sound`, where calls keep apart
(`start`, `cancel`, `apps/relay/src/transfers/peer/pulls.ts:112-189`).
-/

namespace Kiln.Relay
open Kiln.Lib OrderedMap List Option

namespace PullWorld

variable {β δ τ : Type} {digest : List β → δ} {popped : List PullSaver} {world : PullWorld β δ τ}

namespace Sound

/-! ## Starts -/

variable {calls : OrderedMap Nat (PullCall δ τ)}

/-- Calls that await no save come and go. -/
theorem setCalls (sound : world.Sound digest popped) (loaded : world.loading = false) {quiet : Bool}
    (saving : ∀ id call, call.saves = true → (calls.get id = some call ↔ world.calls.get id = some call))
    (cancels : ∀ id stage, calls.get id = some (.cancel stage) ↔ world.calls.get id = some (.cancel stage))
    (apart : ∀ id input stage id' stage', calls.get id = some (.start input stage) →
      world.calls.get id' ≠ some (.cancel stage'))
    (quiets : quiet = true → world.quiet = true ∧ ∀ id call, calls.get id = some call → call.isStart = false) :
    Sound digest popped { world with calls, quiet } := by
  have mid : (∃ id call, calls.get id = some call ∧ call.midCancel = true) ↔
      ∃ id call, world.calls.get id = some call ∧ call.midCancel = true := by
    constructor
    · rintro ⟨id, call, there, isMid⟩
      cases call with
      | start input stage => cases isMid
      | cancel stage => exact ⟨id, _, (cancels id stage).mp there, isMid⟩
    · rintro ⟨id, call, there, isMid⟩
      cases call with
      | start input stage => cases isMid
      | cancel stage => exact ⟨id, _, (cancels id stage).mpr there, isMid⟩
  have noMid : NoMidCancel { world with calls, quiet } → world.NoMidCancel := by
    intro none' id call there
    by_contra isMid
    rw [Bool.not_eq_false] at isMid
    rcases mid.mpr ⟨id, call, there, isMid⟩ with ⟨id', call', there', isMid'⟩
    rw [none' id' call' there'] at isMid'
    exact Bool.noConfusion isMid'
  refine { sound with
    apart := ?_, callTokens := ?_, loading := ?_, starting := ?_, idle := ?_, interrupted := ?_,
    cancelling := ?_, cancelled := ?_, cancelledWrite := ?_, written := ?_, landed := ?_, quiet := ?_ }
  · intro id input stage id' stage' there there'
    exact apart id input stage id' stage' there ((cancels id' stage').mp there')
  · intro id
    rw [sound.callTokens id]
    congr 1
    have both : ∀ call, call.saves = true → (calls.get id = some call ↔ world.calls.get id = some call) :=
      saving id
    cases now : calls.get id with
    | none =>
      cases was : world.calls.get id with
      | none => rfl
      | some call =>
        cases awaits : call.saves with
        | false => simp [awaits]
        | true =>
          rw [(both call awaits).mpr was] at now
          cases now
    | some call =>
      cases awaits : call.saves with
      | true => simp [(both call awaits).mp now]
      | false =>
        cases was : world.calls.get id with
        | none => simp [awaits]
        | some other =>
          cases awaits' : other.saves with
          | false => simp [awaits, awaits']
          | true =>
            have there := (both other awaits').mpr was
            rw [now, Option.some.injEq] at there
            rw [there, awaits'] at awaits
            cases awaits
  · intro is
    rw [loaded] at is
    cases is
  · exact fun is id input there => sound.starting is id input ((saving id _ rfl).mp there)
  · intro is record held active
    rcases sound.idle is record held active with ⟨id, input, there⟩ | isMid
    · exact .inl ⟨id, input, (saving id _ rfl).mpr there⟩
    · exact .inr (mid.mpr isMid)
  · intro fiber is hit
    rcases sound.interrupted fiber is hit with ⟨id, there⟩
    exact ⟨id, (cancels id _).mpr there⟩
  · intro id stage there
    exact sound.cancelling id stage ((cancels id stage).mp there)
  · intro id there
    exact sound.cancelled id ((cancels id _).mp there)
  · intro id there
    exact sound.cancelledWrite id ((cancels id _).mp there)
  · intro all none'
    exact sound.written all (noMid none')
  · intro all none'
    exact sound.landed all (noMid none')
  · intro is
    have was := quiets is
    exact ⟨(sound.quiet was.1).1, was.2, (sound.quiet was.1).2.2⟩

/-- A start that awaits no save goes on to another of that kind, or is over. -/
theorem setStart (sound : world.Sound digest popped) (loaded : world.loading = false) (id : Nat)
    (now : Option (PullCall δ τ))
    (was : ∀ call, world.calls.get id = some call → call.isStart = true ∧ call.saves = false)
    (alone : ∀ id' call, id' ≠ id → world.calls.get id' = some call → call.isStart = true)
    (set : ∀ id', calls.get id' = if id = id' then now else world.calls.get id')
    (is : ∀ call, now = some call → call.isStart = true ∧ call.saves = false) :
    Sound digest popped { world with calls, quiet := false } := by
  have notHere : ∀ call : PullCall δ τ, call.isStart = false ∨ call.saves = true →
      (calls.get id = some call ↔ world.calls.get id = some call) := by
    intro call other
    rw [set, if_pos rfl]
    constructor
    · intro here
      have kind := is call here
      simp_all
    · intro here
      have kind := was call here
      simp_all
  have same : ∀ id' call, call.isStart = false ∨ call.saves = true →
      (calls.get id' = some call ↔ world.calls.get id' = some call) := by
    intro id' call other
    by_cases here : id = id'
    · rw [← here]
      exact notHere call other
    · rw [set, if_neg here]
  apply sound.setCalls loaded
  · exact fun id' call awaits => same id' call (.inr awaits)
  · exact fun id' stage => same id' (.cancel stage) (.inl rfl)
  · intro _ _ _ id' stage' _ there
    by_cases here : id' = id
    · rw [here] at there
      exact Bool.noConfusion (was _ there).1
    · exact Bool.noConfusion (alone id' _ here there)
  · exact nofun

variable {id : Nat} {input : PullStart δ τ}

/-- A start goes on, or is over. -/
theorem goOnStart (sound : world.Sound digest popped) {stage : StartStage}
    (there : world.calls.get id = some (.start input stage)) (notSaving : stage ≠ .saving)
    (now : Option (PullCall δ τ))
    (set : ∀ id', calls.get id' = if id = id' then now else world.calls.get id')
    (is : ∀ call, now = some call → call.isStart = true ∧ call.saves = false) :
    Sound digest popped { world with calls } := by
  have gone := sound.setStart (sound.isLoaded there) id now ?_ ?_ set is
  · rw [← sound.notQuiet there] at gone
    exact gone
  · intro call there'
    cases there.symm.trans there'
    refine ⟨rfl, ?_⟩
    cases stage with
    | saving => exact absurd rfl notSaving
    | resolving | sizing | making _ => rfl
  · exact fun id' call _ there' => sound.starts there id' call there'

theorem callTokens_of_new (sound : world.Sound digest popped) {call now : PullCall δ τ}
    (there : world.calls.get id = some call) (was : call.saves = false) (is : now.saves = true) :
    ∀ id', (popped ++ (world.saving ++ [PullSaver.call id])).count (.call id') =
      if (((world.calls.set id now).get id').map PullCall.saves).getD false then 1 else 0 := by
  intro id'
  rw [← append_assoc, count_append, sound.callTokens, get_set]
  by_cases here : id = id'
  · subst here
    simp [there, was, is]
  · simp [here]

theorem made (sound : world.Sound digest []) {receivedBytes : Nat}
    (there : world.calls.get id = some (.start input (.making receivedBytes)))
    (apart : ∀ record, world.memory = some record → record.state ≠ .installing) :
    Sound digest [] { world with
      memory := some ⟨input.target, input.sha256, input.size, receivedBytes, .pulling⟩
      calls := world.calls.set id (.start input .saving)
      saving := world.saving ++ [.call id] } := by
  have loaded := sound.isLoaded there
  have noCancel : ∀ id' stage, (world.calls.set id (.start input .saving)).get id' ≠
      some (.cancel stage) := by
    intro id' stage there'
    rw [get_set] at there'
    split at there'
    · exact nomatch there'
    · exact sound.apart id input _ id' stage there there'
  have last := mem_waiting_of_last (.call id) fun writes => (sound.turn writes).1
  refine { sound with
    apart := ?_, fiberToken := ?_, callTokens := callTokens_of_new sound there rfl rfl, loading := ?_,
    loaded := ?_, turn := ?_, stands := ?_, starting := ?_, idle := ?_, interrupted := ?_,
    cancelling := ?_, cancelled := ?_, cancelledWrite := ?_, written := ?_, landed := ?_, quiet := ?_ }
  · exact fun _ _ _ id' stage' _ => noCancel id' stage'
  · show ([] ++ (world.saving ++ [PullSaver.call id])).count PullSaver.fiber = world.fiberSaves
    rw [← sound.fiberToken, nil_append, count_append]
    simp
  · intro is
    rw [loaded] at is
    cases is
  · intro is listed
    have listed' : PullSaver.load ∈ world.saving ++ [PullSaver.call id] := listed
    rcases mem_append.mp listed' with before | now
    · exact sound.loaded is before
    · exact nomatch mem_singleton.mp now
  · exact fun _ => ⟨by simp, rfl⟩
  · intro fiber is
    rcases sound.stands fiber is with ⟨record, held, fits⟩
    refine ⟨_, rfl, ?_⟩
    cases ending : fiber.run.ending with
    | false =>
      rw [PullRun.fits_of_not_ending ending] at fits ⊢
      exact PullRun.stands_pulling ending fits (apart record held)
    | true =>
      -- The fiber's last save is under way, and its turn comes before this one.
      have waits : PullSaver.fiber ∈ world.saving := sound.waits is (PullRun.saves_of_ending ending)
      unfold PullRun.Fits
      rw [ending, nil_append, overtaken_append waits]
      simp [PullSaver.isCall]
  · intro _ _ _ _
    exact ⟨_, rfl, rfl⟩
  · intro _ record held _
    exact .inl ⟨id, input, by rw [get_set, if_pos rfl]⟩
  · intro fiber is hit
    rcases sound.interrupted fiber is hit with ⟨id', there'⟩
    exact absurd there' (sound.apart id input _ id' _ there)
  · exact fun id' stage there' => absurd there' (noCancel id' stage)
  · exact fun id' there' => absurd there' (noCancel id' _)
  · exact fun id' there' => absurd there' (noCancel id' _)
  · intro all
    exact nomatch all _ last
  · intro all
    exact nomatch all (.call id) (mem_append_right _ mem_cons_self)
  · intro is
    rw [sound.notQuiet there] at is
    cases is


theorem start [DecidableEq δ] [DecidableEq τ] (sound : world.Sound digest []) {id : Nat}
    {input : PullStart δ τ} (apart : world.Apart (.start id input : PullEvent β δ τ))
    {after : PullWorld β δ τ} (step : world.start id input = some after) : after.Sound digest [] := by
  unfold PullWorld.start at step
  split at step
  · cases step
  rename_i free
  rw [Bool.or_eq_true, not_or, Bool.not_eq_true, has, Bool.not_eq_true, isSome_eq_false_iff, isNone_iff_eq_none] at free
  have called : Sound digest [] { world with quiet := false } := { sound with quiet := by rintro ⟨⟩ }
  have begins (none' : world.calls.entries.all (fun entry => entry.2.isStart) = true) : Sound digest []
        { world with calls := world.calls.set id (.start input .resolving), quiet := false } := by
    refine sound.setStart free.1 id (some (.start input .resolving)) ?_ ?_ ?_ ?_
    · intro call there
      rw [free.2] at there
      cases there
    · exact fun id' call _ there => all_calls none' there
    · exact fun id' => get_set _ _ _ _
    · intro call is
      rw [← Option.some.inj is]
      exact ⟨rfl, rfl⟩
  have is := Option.some.inj step
  split at is
  · rename_i held
    subst is
    refine begins (apart.resolve_right fun some' => ?_)
    rw [held] at some'
    exact Bool.noConfusion some'
  rename_i existing held
  split at is
  · subst is
    exact called
  split at is
  · rename_i startable
    subst is
    refine begins (apart.resolve_right fun some' => ?_)
    rw [held, any_some, startable] at some'
    exact Bool.noConfusion some'
  · subst is
    exact called

/-! ## Cancels -/

/-- A cancel goes on to remove the part, once no fiber is left. -/
theorem setRemoving (sound : world.Sound digest popped) (loaded : world.loading = false)
    (ended : world.fiber = none) (held : world.memory.isSome = true)
    (noStart : ∀ id input stage, world.calls.get id ≠ some (.start input stage))
    (was : ∀ call, world.calls.get id = some call → call.saves = false) :
    Sound digest popped { world with calls := world.calls.set id (.cancel .removing) } := by
  have mid : ∃ id' call, (world.calls.set id (.cancel .removing)).get id' = some call ∧ call.midCancel = true :=
    ⟨id, _, by rw [get_set, if_pos rfl], rfl⟩
  have noStart' : ∀ id' input stage, (world.calls.set id (.cancel .removing)).get id' ≠ some (.start input stage) := by
    intro id' input stage there
    rw [get_set] at there
    split at there
    · cases there
    · exact noStart id' input stage there
  have cancels : ∀ id', (world.calls.set id (.cancel .removing)).get id' = some (.cancel .saving) →
      world.calls.get id' = some (.cancel .saving) := by
    intro id' there
    rw [get_set] at there
    split at there
    · cases there
    · exact there
  have notNone : ¬ NoMidCancel { world with calls := world.calls.set id (.cancel .removing) } := by
    intro none'
    rcases mid with ⟨id', call, there, isMid⟩
    exact nomatch (none' id' call there).symm.trans isMid
  refine { sound with
    apart := ?_, callTokens := ?_, loading := ?_, starting := ?_, idle := ?_, interrupted := ?_,
    cancelling := ?_, cancelled := ?_, cancelledWrite := ?_, written := ?_, landed := ?_, quiet := ?_ }
  · exact fun id' input stage _ _ there => absurd there (noStart' id' input stage)
  · intro id'
    rw [sound.callTokens id', get_set]
    by_cases here : id = id'
    · subst here
      cases there : world.calls.get id with
      | none => simp [PullCall.saves]
      | some call =>
        rw [if_pos rfl, map_some, getD_some, was call there]
        rfl
    · rw [if_neg here]
  · intro loading
    exact nomatch loaded.symm.trans loading
  · exact fun _ id' input there => absurd there (noStart' id' input _)
  · exact fun _ _ _ _ => .inr mid
  · intro fiber is
    exact nomatch ended.symm.trans is
  · intro id' stage there
    refine ⟨held, fun fiber is => ?_⟩
    exact nomatch ended.symm.trans is
  · exact fun id' there => sound.cancelled id' (cancels id' there)
  · exact fun id' there => sound.cancelledWrite id' (cancels id' there)
  · exact fun _ none' => absurd none' notNone
  · exact fun _ none' => absurd none' notNone
  · intro quiet
    refine ⟨ended, ?_, (sound.quiet quiet).2.2⟩
    intro id' call there
    cases call with
    | cancel _ => rfl
    | start input stage => exact absurd there (noStart' id' input stage)

/-- A cancel interrupts the fiber. -/
theorem setInterrupting (sound : world.Sound digest popped) {fiber : PullFiber δ τ}
    (is : world.fiber = some fiber) {record : PullRecord δ τ} (held : world.memory = some record)
    (cancellable : record.state.cancellable = true)
    (noStart : ∀ id input stage, world.calls.get id ≠ some (.start input stage))
    (new : world.calls.get id = none) :
    Sound digest popped { world with
      fiber := some { fiber with interrupted := true }
      calls := world.calls.set id (.cancel (.interrupting fiber.id)) } := by
  have there' : (world.calls.set id (.cancel (.interrupting fiber.id))).get id =
      some (.cancel (.interrupting fiber.id)) := by
    rw [get_set, if_pos rfl]
  have noStart' : ∀ id' input stage, (world.calls.set id (.cancel (.interrupting fiber.id))).get id' ≠
      some (.start input stage) := by
    intro id' input stage there
    rw [get_set] at there
    split at there
    · cases there
    · exact noStart id' input stage there
  have cancels : ∀ id' stage, (world.calls.set id (.cancel (.interrupting fiber.id))).get id' =
      some (.cancel stage) → stage = .interrupting fiber.id := by
    intro id' stage there
    rw [get_set] at there
    split at there
    · exact (PullCall.cancel.inj (Option.some.inj there)).symm
    · exact ((sound.cancelling id' stage there).2 fiber is).1
  have notNone : ¬ NoMidCancel { world with
      fiber := some { fiber with interrupted := true }
      calls := world.calls.set id (.cancel (.interrupting fiber.id)) } := by
    intro none'
    exact nomatch none' id _ there'
  refine { sound with
    apart := ?_, fiberToken := ?_, callTokens := ?_, loading := ?_, stands := ?_, starting := ?_,
    idle := ?_, interrupted := ?_, cancelling := ?_, cancelled := ?_, cancelledWrite := ?_, works := ?_,
    hashed := ?_, offset := ?_, written := ?_, landed := ?_, quiet := ?_ }
  · exact fun id' input stage _ _ there => absurd there (noStart' id' input stage)
  · rw [sound.fiberToken]
    unfold fiberSaves
    rw [is]
  · intro id'
    rw [sound.callTokens id', get_set]
    by_cases here : id = id'
    · subst here
      simp [new, PullCall.saves]
    · rw [if_neg here]
  · intro loading
    exact nomatch (sound.isLoaded_of_fiber is).symm.trans loading
  · rintro - ⟨⟩
    exact sound.stands fiber is
  · exact fun none' => nomatch none'
  · exact fun none' => nomatch none'
  · rintro - ⟨⟩ -
    exact ⟨id, there'⟩
  · intro id' stage there
    refine ⟨by rw [held]; rfl, ?_⟩
    rintro - ⟨⟩
    exact ⟨cancels id' stage there, rfl⟩
  · exact fun id' there => nomatch cancels id' _ there
  · exact fun id' there => nomatch cancels id' _ there
  · intro work member
    rcases sound.works work member with ⟨running, seen, is', -, run, -⟩
    cases is.symm.trans is'
    rcases sound.stands fiber is with ⟨current, held', fits⟩
    cases held.symm.trans held'
    rw [run] at fits
    have installing : record.state = .installing := (PullRun.fits_of_not_ending rfl).mp fits
    rw [installing] at cancellable
    cases cancellable
  · rintro - seen stage ⟨⟩
    exact sound.hashed fiber seen stage is
  · rintro - seen stage offset ⟨⟩
    exact sound.offset fiber seen stage offset is
  · exact fun _ none' => absurd none' notNone
  · exact fun _ none' => absurd none' notNone
  · intro quiet
    exact nomatch (sound.notQuiet_of_fiber is).symm.trans quiet

theorem cancel (sound : world.Sound digest []) (apart : world.Apart (.cancel id : PullEvent β δ τ))
    {after : PullWorld β δ τ} (step : world.cancel id = some after) : after.Sound digest [] := by
  unfold PullWorld.cancel at step
  split at step
  · cases step
  rename_i free
  rw [Bool.or_eq_true, not_or, Bool.not_eq_true, has, Bool.not_eq_true, isSome_eq_false_iff, isNone_iff_eq_none] at free
  split at step
  · cases step
    exact sound
  rename_i pull held
  split at step
  · rename_i cancellable
    have noStart : ∀ id' input stage, world.calls.get id' ≠ some (.start input stage) := by
      rcases apart with ⟨all, -⟩ | done
      · intro id' input stage there
        cases all_calls (p := fun call => !call.isStart) all there
      · rw [held] at done
        cases state : pull.state <;> simp_all [PullState.cancellable]
    split at step
    · rename_i fiber is
      cases step
      exact sound.setInterrupting is held cancellable noStart free.2
    · rename_i none'
      cases step
      refine sound.setRemoving free.1 none' (by rw [held]; rfl) noStart ?_
      intro call there
      cases free.2.symm.trans there
  · cases step
    by_cases cancelled : pull.state = .cancelled
    · rcases apart with ⟨all, landed⟩ | done
      · have noFiber : world.fiber = none := by
          cases is : world.fiber with
          | none => rfl
          | some fiber =>
            rcases sound.stands fiber is with ⟨record, held', fits⟩
            cases held.symm.trans held'
            exact absurd cancelled (PullRun.ne_cancelled_of_fits fits)
        rw [held, any_some, decide_eq_true_eq] at landed
        refine { sound with quiet := fun _ => ⟨noFiber, ?_, ?_⟩ }
        · intro id' call there
          have kind := all_calls (p := fun call => !call.isStart) all there
          rw [← Bool.not_eq_true']
          exact kind
        rintro record (held' | disk | writing)
        · cases held.symm.trans held'
          exact cancelled
        · have all := (landed cancelled).1
          rw [show world.disk = some record from disk, all_some, decide_eq_true_eq] at all
          exact all
        · have all := (landed cancelled).2
          rw [show world.writing = some record from writing, all_some, decide_eq_true_eq] at all
          exact all
      · rw [held, all_some, cancelled] at done
        cases done
    · rw [decide_eq_false cancelled, Bool.or_false]
      exact sound

/-- A cancel writes down that it is one. -/
theorem cancels (sound : world.Sound digest [])
    (there : world.calls.get id = some (.cancel .removing)) (record : PullRecord δ τ) :
    Sound digest [] { world with
      part := none
      memory := some (become .cancelled record)
      calls := world.calls.set id (.cancel .saving)
      saving := world.saving ++ [.call id] } := by
  have noFiber : world.fiber = none := by
    cases is : world.fiber with
    | none => rfl
    | some fiber => exact nomatch ((sound.cancelling id _ there).2 fiber is).1
  have noStart : ∀ id' input stage, (world.calls.set id (.cancel .saving)).get id' ≠
      some (.start input stage) := by
    intro id' input stage there'
    rw [get_set] at there'
    split at there'
    · exact nomatch there'
    · exact sound.apart id' input stage id _ there' there
  have last := mem_waiting_of_last (.call id) fun writes => (sound.turn writes).1
  refine { sound with
    apart := ?_, fiberToken := ?_, callTokens := callTokens_of_new sound there rfl rfl, loading := ?_,
    loaded := ?_, turn := ?_, stands := ?_, starting := ?_, idle := ?_, interrupted := ?_,
    cancelling := ?_, cancelled := ?_, cancelledWrite := ?_, hashed := ?_, offset := ?_, written := ?_,
    landed := ?_, quiet := ?_ }
  · exact fun id' input stage _ _ there' => absurd there' (noStart id' input stage)
  · show ([] ++ (world.saving ++ [PullSaver.call id])).count PullSaver.fiber = world.fiberSaves
    rw [← sound.fiberToken, nil_append, count_append]
    simp
  · intro loading
    exact nomatch (sound.isLoaded there).symm.trans loading
  · intro loaded listed
    have listed' : PullSaver.load ∈ world.saving ++ [PullSaver.call id] := listed
    rcases mem_append.mp listed' with before | now
    · exact sound.loaded loaded before
    · exact nomatch mem_singleton.mp now
  · exact fun _ => ⟨by simp, rfl⟩
  · intro fiber is
    exact nomatch noFiber.symm.trans is
  · exact fun _ id' input there' => absurd there' (noStart id' input _)
  · rintro - - ⟨⟩ active
    cases active
  · intro fiber is
    exact nomatch noFiber.symm.trans is
  · intro id' stage there'
    refine ⟨rfl, fun fiber is => ?_⟩
    exact nomatch noFiber.symm.trans is
  · exact fun _ _ => ⟨_, rfl, rfl⟩
  · intro id' there'
    refine ⟨fun head now writing => ?_, fun listed => nomatch listed⟩
    have head' : (world.saving ++ [PullSaver.call id]).head? = some (.call id') := head
    have nonempty := (sound.turn (by rw [show world.writing = some now from writing]; rfl)).1
    rw [List.head?_append_of_ne_nil _ nonempty] at head'
    have listed : PullSaver.call id' ∈ world.saving := mem_of_head? head'
    have there'' : world.calls.get id' = some (.cancel .saving) := by
      have there₂ : (world.calls.set id (.cancel .saving)).get id' = some (.cancel .saving) := there'
      rw [get_set] at there₂
      split at there₂
      · -- A save of this call can't have begun.
        rename_i same
        rcases sound.callWaits.mp listed with ⟨call, is, saves⟩
        rw [← same, there] at is
        cases is
        cases saves
      · exact there₂
    exact (sound.cancelledWrite id' there'').1 head' now writing
  · intro fiber seen stage is
    exact nomatch noFiber.symm.trans is
  · intro fiber seen stage offset is
    exact nomatch noFiber.symm.trans is
  · intro all
    exact nomatch all _ last
  · intro all
    exact nomatch all (.call id) (mem_append_right _ mem_cons_self)
  · intro quiet
    refine ⟨noFiber, ?_, ?_⟩
    · intro id' call there'
      cases call with
      | cancel _ => rfl
      | start input stage => exact absurd there' (noStart id' input stage)
    · rintro now (⟨⟨⟩⟩ | rest)
      · rfl
      · exact (sound.quiet quiet).2.2 now (.inr rest)

/-! ## Answers -/

/-- A call answers once it is saved, and a start once there is a fiber. -/
theorem answer (sound : world.Sound digest [.call id]) {call : PullCall δ τ}
    (there : world.calls.get id = some call) (saves : call.saves = true)
    (ran : call.isStart = true → world.fiber.isSome = true) (written : world.writing = none)
    (quiet : Bool) (quiets : quiet = true → world.quiet = true ∨ call = .cancel .saving) :
    Sound digest [] { world with calls := world.calls.delete id, quiet } := by
  have still : ∀ id' call', (world.calls.delete id).get id' = some call' → world.calls.get id' = some call' := by
    intro id' call' there'
    rw [get_delete] at there'
    split at there'
    · exact nomatch there'
    · exact there'
  have noMid : NoMidCancel { world with calls := world.calls.delete id, quiet } → world.NoMidCancel := by
    intro none' id' call' there'
    by_cases here : id = id'
    · subst here
      cases there.symm.trans there'
      cases call with
      | start _ _ => rfl
      | cancel stage => cases stage <;> first | rfl | exact nomatch saves
    · exact none' id' call' (by rw [get_delete, if_neg here]; exact there')
  have apart : call = .cancel .saving → world.fiber = none ∧
      ∀ id' call', world.calls.get id' = some call' → call'.isStart = false := by
    rintro rfl
    constructor
    · cases is : world.fiber with
      | none => rfl
      | some fiber => exact nomatch ((sound.cancelling id _ there).2 fiber is).1
    · intro id' call' there'
      cases call' with
      | cancel _ => rfl
      | start input stage => exact absurd there (sound.apart id' input stage id _ there')
  refine { sound with
    apart := ?_, fiberToken := ?_, callTokens := ?_, loading := ?_, loaded := ?_, stands := ?_,
    starting := ?_, idle := ?_, interrupted := ?_, cancelling := ?_, cancelled := ?_,
    cancelledWrite := ?_, written := ?_, landed := ?_, quiet := ?_ }
  · intro id' input stage id'' stage' there' there''
    exact sound.apart id' input stage id'' stage' (still _ _ there') (still _ _ there'')
  · have token := sound.fiberToken
    rw [singleton_append, count_cons_of_ne PullSaver.noConfusion] at token
    exact token
  · intro id'
    have token := sound.callTokens id'
    rw [singleton_append] at token
    show world.saving.count (.call id') = _
    rw [get_delete]
    by_cases here : id = id'
    · subst here
      rw [there, map_some, getD_some, saves, count_cons_self] at token
      rw [if_pos rfl]
      exact Nat.succ.inj token
    · rw [count_cons_of_ne fun same => here (PullSaver.call.inj same)] at token
      rw [if_neg here]
      exact token
  · intro loading
    exact nomatch (sound.isLoaded there).symm.trans loading
  · exact fun loaded listed => sound.loaded loaded (mem_cons_of_mem _ listed)
  · intro fiber is
    rcases sound.stands fiber is with ⟨record, held, fits⟩
    rw [singleton_append, overtaken_cons PullSaver.noConfusion] at fits
    exact ⟨record, held, fits⟩
  · exact fun none' id' input there' => sound.starting none' id' input (still _ _ there')
  · intro none' record held active
    cases call with
    | start _ _ =>
      rw [show world.fiber = none from none'] at ran
      exact nomatch ran rfl
    | cancel stage =>
      cases stage with
      | interrupting _ | removing => cases saves
      | saving =>
        rcases sound.cancelled id there with ⟨record', held', cancelled⟩
        cases held'.symm.trans held
        rw [cancelled] at active
        cases active
  · intro fiber is hit
    rcases sound.interrupted fiber is hit with ⟨id', there'⟩
    refine ⟨id', ?_⟩
    show (world.calls.delete id).get id' = _
    rw [get_delete, if_neg]
    · exact there'
    · rintro rfl
      cases there.symm.trans there'
      cases saves
  · exact fun id' stage there' => sound.cancelling id' stage (still _ _ there')
  · exact fun id' there' => sound.cancelled id' (still _ _ there')
  · intro id' there'
    exact ⟨(sound.cancelledWrite id' (still _ _ there')).1, fun listed => nomatch listed⟩
  · exact fun all none' => sound.written all (noMid none')
  · exact fun all none' => sound.landed all (noMid none')
  · intro is
    rcases quiets is with was | rfl
    · refine ⟨(sound.quiet was).1, ?_, (sound.quiet was).2.2⟩
      exact fun id' call' there' => (sound.quiet was).2.1 id' call' (still _ _ there')
    refine ⟨(apart rfl).1, fun id' call' there' => (apart rfl).2 id' call' (still _ _ there'), ?_⟩
    rintro record (held | disk | writing)
    · rcases sound.cancelled id there with ⟨record', held', cancelled⟩
      cases held'.symm.trans held
      exact cancelled
    · exact (sound.cancelledWrite id there).2 mem_cons_self record disk
    · exact nomatch written.symm.trans writing

/-- A start that is saved runs its pull where nothing does. -/
theorem ran (sound : world.Sound digest [.call id]) (there : world.calls.get id = some (.start input .saving)) :
    world.run.Sound digest [.call id] := by
  unfold PullWorld.run
  split
  · exact sound
  rename_i none'
  rcases sound.starting none' id input there with ⟨record, held, pulling⟩
  refine { sound with
    fiberToken := ?_, loading := ?_, stands := ?_, starting := ?_, idle := ?_, interrupted := ?_,
    cancelling := ?_, works := ?_, hashed := ?_, offset := ?_, quiet := ?_ }
  · rw [sound.fiberToken]
    unfold fiberSaves
    rw [none']
    rfl
  · intro loading
    exact nomatch (sound.isLoaded there).symm.trans loading
  · rintro - ⟨⟩
    refine ⟨record, held, (PullRun.fits_of_not_ending rfl).mpr ?_⟩
    exact .inl pulling
  · exact fun none' => nomatch none'
  · exact fun none' => nomatch none'
  · rintro - ⟨⟩ hit
    cases hit
  · exact fun id' stage there' => absurd there' (sound.apart id input _ id' stage there)
  · intro work member
    rcases sound.works work member with ⟨fiber, seen, is, -⟩
    exact nomatch none'.symm.trans is
  · rintro - seen stage ⟨⟩ at'
    exact nomatch at'
  · rintro - seen stage offset ⟨⟩ at'
    exact nomatch at'
  · intro quiet
    exact nomatch (sound.notQuiet there).symm.trans quiet


end Sound

end PullWorld

end Kiln.Relay
