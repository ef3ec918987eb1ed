import Kiln.Relay.SnapshotHub

/-!
# The snapshot hub stays steady

While the hub isn't closed its sampling is the one load that runs, or whose sample is being passed on; so whoever
waits for a sampling waits for that one, and a load that begins after a refresh woke has a number no smaller than the
loads there were when the refresh was called.
-/

namespace Kiln.Relay
open Kiln.Lib HubState List Function Option Nat

variable {α : Type}

/-- The load a call waits for. -/
def HubStage.on (stage : HubStage α) : Option Nat :=
  match stage with
  | .waiting load | .joined load => some load
  | _ => none

namespace HubState

variable {s : HubState α}

/-- A call waits for the sampling there is, and a refresh for none that had begun by then. -/
structure Awaits (s : HubState α) (call : HubCall α) : Prop where
  asked : call.asked ≤ s.loads
  waits : ∀ load, call.stage.on = some load → s.sampling = some load
  ready : call.stage = .ready → ∀ load, s.sampling = some load → call.asked ≤ load
  joined : call.refreshes = true → ∀ load, call.stage = .joined load → call.asked ≤ load
  fresh : call.refreshes = true → ∀ sample, call.stage = .settled (some sample) → call.asked ≤ sample.load

structure Sound (s : HubState α) : Prop where
  shut : s.closed = true → s.sampling = none ∧ s.running.length ≤ 1 ∧ s.scheduled = false ∧ s.listeners = []
  still : s.closed = false → s.sampling = none → s.running = []
  sampled : ∀ load, s.sampling = some load → load < s.loads ∧
    (s.running = [load] ∨ ∃ sample visited, s.phase = .delivering sample visited ∧ sample.load = load)
  delivers : ∀ sample visited, s.phase = .delivering sample visited → s.closed = false →
    s.sampling = some sample.load ∧ s.running = []
  begun : ∀ load ∈ s.running, load < s.loads
  last : ∀ sample, s.last = some sample → sample.sequence ≤ s.sequence
  numbers : ∀ listener, ∀ number ∈ s.seen listener, number ≤ s.sequence
  rising : ∀ listener, (s.seen listener).Pairwise (· < ·)
  passed : ∀ sample visited, s.phase = .delivering sample visited → sample.sequence ≤ s.sequence ∧
    ∀ listener ∉ visited, ∀ number ∈ s.seen listener, number < sample.sequence
  unseen : ∀ listener, s.subscriptions ≤ listener → s.seen listener = []
  known : (∀ listener ∈ s.listeners, listener < s.subscriptions) ∧ ∀ listener ∈ s.returned, listener < s.subscriptions
  replays : ∀ listener, s.phase = .replaying listener → listener < s.subscriptions
  calls : ∀ call ∈ s.calls, s.Awaits call

/-- Someone listens, and the hub goes on. -/
def Active (s : HubState α) : Prop :=
  s.closed = false → (∃ listener ∈ s.listeners, listener ∈ s.returned) → s.sampling.isSome = true ∨ s.scheduled = true

/-! ## Parts of steps -/

theorem isIdle_iff : s.isIdle = true ↔ s.phase = .idle := by
  unfold isIdle
  split
  · exact iff_of_true rfl ‹_›
  · rename_i busy
    exact iff_of_false Bool.false_ne_true fun idle => busy idle

theorem Sound.withScheduled (sound : s.Sound) (scheduled : Bool) (shut : s.closed = true → scheduled = false) :
    Sound { s with scheduled } :=
  { sound with
    shut := fun closed =>
      ⟨(sound.shut closed).1, (sound.shut closed).2.1, shut closed, (sound.shut closed).2.2.2⟩
    calls := fun call member => { sound.calls call member with } }

theorem Sound.schedule (sound : s.Sound) : s.schedule.Sound := by
  unfold HubState.schedule
  split
  · exact sound
  · rename_i open_
    refine sound.withScheduled true fun closed => ?_
    rw [closed] at open_
    exact absurd rfl open_

theorem schedule_eq (s : HubState α) : s.schedule = { s with scheduled := s.schedule.scheduled } := by
  unfold schedule
  split <;> rfl

theorem schedule_scheduled (opened : s.closed = false) (listens : s.listeners ≠ []) : s.schedule.scheduled = true := by
  unfold schedule
  split
  · rename_i or_
    simpa [opened, listens] using or_
  · rfl

variable {s' : HubState α} {call : HubCall α}

theorem Awaits.of_same (awaits : s.Awaits call) (sampling : s'.sampling = s.sampling)
    (loads : s'.loads = s.loads) : s'.Awaits call where
  asked := loads ▸ awaits.asked
  waits := sampling ▸ awaits.waits
  ready := sampling ▸ awaits.ready
  joined := awaits.joined
  fresh := awaits.fresh

theorem Sound.beginLoad (sound : s.Sound) (opened : s.closed = false) (none_ : s.sampling = none) : s.beginLoad.Sound := by
  have running := sound.still opened none_
  refine { sound with
    shut := fun closed => ?_
    still := fun _ => nofun
    sampled := fun load is => ?_
    delivers := fun sample visited phase _ => ?_
    begun := fun load member => ?_
    calls := fun call member => ?_ }
  · exact absurd (opened.symm.trans closed) nofun
  · cases is
    refine ⟨lt_succ_self _, .inl ?_⟩
    change s.running ++ [s.loads] = _
    rw [running, nil_append]
  · have sampling := (sound.delivers sample visited phase opened).1
    rw [none_] at sampling
    cases sampling
  · rcases mem_append.mp member with before | now
    · exact lt_succ_of_lt (sound.begun load before)
    · rw [mem_singleton.mp now]
      exact lt_succ_self _
  · have awaits := sound.calls call member
    refine ⟨le_succ_of_le awaits.asked, fun load on_ => ?_, fun ready load is => ?_, awaits.joined, awaits.fresh⟩
    · exact absurd (none_.symm.trans (awaits.waits load on_)) nofun
    · exact Option.some.inj is ▸ awaits.asked

/-- What `#sampleEffect` leaves, and what its caller waits for. -/
structure Sampled (s s' : HubState α) (stage : HubStage α) : Prop where
  sound : s'.Sound
  calls : s'.calls = s.calls
  loads : s.loads ≤ s'.loads
  same : s'.closed = s.closed ∧ s'.listeners = s.listeners ∧ s'.returned = s.returned
  stage : s.closed = true ∧ stage = .settled none ∨
    ∃ load, s'.sampling = some load ∧ stage = .joined load ∧ (s.sampling = some load ∨ s.sampling = none ∧ load = s.loads)

theorem Sound.sampleEffect (sound : s.Sound) : Sampled s s.sampleEffect.1 s.sampleEffect.2 := by
  unfold HubState.sampleEffect
  split
  · rename_i closed
    exact ⟨sound, rfl, le_refl _, ⟨rfl, rfl, rfl⟩, .inl ⟨closed, rfl⟩⟩
  rename_i opened
  split
  · rename_i load is
    exact ⟨sound, rfl, le_refl _, ⟨rfl, rfl, rfl⟩, .inr ⟨load, is, rfl, .inl is⟩⟩
  · rename_i none_
    exact ⟨sound.beginLoad (Bool.eq_false_iff.mpr opened) none_, rfl, le_succ _, ⟨rfl, rfl, rfl⟩,
      .inr ⟨s.loads, rfl, rfl, .inr ⟨none_, rfl⟩⟩⟩

variable {stage : HubStage α}

theorem Sampled.active (sampled : Sampled s s' stage) : s'.Active := by
  intro opened _
  rcases sampled.stage with ⟨closed, -⟩ | ⟨load, is, -⟩
  · exact absurd (sampled.same.1.symm.trans opened |>.symm.trans closed) nofun
  · exact .inl (is ▸ rfl)

theorem Sound.refreshNow (sound : s.Sound) : Sampled { s.cancelSchedule with last := none } s.refreshNow.1 s.refreshNow.2 := by
  have cancelled : Sound { s.cancelSchedule with last := none } :=
    { sound with
      shut := fun closed =>
        ⟨(sound.shut closed).1, (sound.shut closed).2.1, rfl, (sound.shut closed).2.2.2⟩
      last := nofun
      calls := fun call member => { sound.calls call member with } }
  exact cancelled.sampleEffect

theorem Sound.ask (sound : s.Sound) {refreshes : Bool} {stage : HubStage α} {asked : Nat}
    (awaits : s.Awaits { refreshes, asked, stage }) : (s.ask refreshes stage asked).Sound :=
  { sound with
    calls := fun call member => by
      rcases mem_append.mp member with before | now
      · exact { sound.calls call before with }
      · rw [mem_singleton.mp now]
        exact { awaits with } }

theorem Sound.setStage (sound : s.Sound) {index : Nat} (is : s.calls[index]? = some call)
    (awaits : s.Awaits { call with stage }) : (s.setStage index stage).Sound :=
  { sound with
    calls := fun other member => by
      obtain ⟨i, found⟩ := mem_iff_getElem?.mp member
      change (s.calls.modify index _)[i]? = some other at found
      rw [getElem?_modify] at found
      obtain ⟨before, was, rfl⟩ := map_eq_some_iff.mp found
      by_cases same : index = i
      · subst same
        cases was.symm.trans is
        rw [if_pos rfl]
        exact { awaits with }
      · rw [if_neg same]
        exact { sound.calls before (mem_of_getElem? was) with } }

variable {result : Option (HubSample α)} {load : Nat}

/-- A call that waited for a sampling that ends goes on or is settled by it. -/
theorem Awaits.ended (awaits : s.Awaits call) (is : s.sampling = some load ∨ s.sampling = none)
    (own : ∀ sample, result = some sample → sample.load = load) (loads : s'.loads = s.loads)
    (none_ : s'.sampling = none) : s'.Awaits (call.ended load result) := by
  have only : ∀ other, call.stage.on = some other → other = load := by
    intro other on_
    have sampling := awaits.waits other on_
    rcases is with same | no
    · exact Option.some.inj (sampling.symm.trans same)
    · exact absurd (no.symm.trans sampling) nofun
  obtain ⟨refreshes, asked, stage⟩ := call
  cases stage with
  | waiting other =>
    obtain rfl := only other rfl
    simp only [HubCall.ended, if_true]
    refine ⟨loads ▸ awaits.asked, nofun, fun _ load sampling => ?_, nofun, nofun⟩
    exact absurd (none_.symm.trans sampling) nofun
  | ready =>
    refine ⟨loads ▸ awaits.asked, nofun, fun _ load sampling => ?_, nofun, nofun⟩
    exact absurd (none_.symm.trans sampling) nofun
  | joined other =>
    obtain rfl := only other rfl
    simp only [HubCall.ended, if_true]
    refine ⟨loads ▸ awaits.asked, nofun, nofun, nofun, fun refreshes sample settled => ?_⟩
    rw [own sample (HubStage.settled.inj settled)]
    exact awaits.joined refreshes other rfl
  | settled sample => exact ⟨loads ▸ awaits.asked, nofun, nofun, nofun, awaits.fresh⟩

theorem endSampling_eq (is : s.sampling = some load ∨ s.sampling = none) (result : Option (HubSample α)) :
    s.endSampling load result = { s with
      sampling := none
      scheduled := if s.listeners.isEmpty then s.scheduled else s.schedule.scheduled
      calls := s.calls.map (HubCall.ended load result) } := by
  have sampling : (if s.sampling = some load then none else s.sampling) = none := by
    rcases is with same | no
    · rw [if_pos same]
    · rw [no, if_neg nofun]
  unfold endSampling schedule
  simp only [sampling]
  split
  · rfl
  · split <;> rfl

theorem Sound.ended (sound : s.Sound) (is : s.sampling = some load ∨ s.sampling = none)
    (own : ∀ sample, result = some sample → sample.load = load) (sampling : s'.sampling = none)
    (calls : s'.calls = s.calls.map (HubCall.ended load result))
    (shut : s'.closed = true → s'.running.length ≤ 1 ∧ s'.scheduled = false ∧ s'.listeners = [])
    (still : s'.closed = false → s'.running = [])
    (phase : s'.phase = .idle ∨ s'.closed = true ∧ s'.phase = s.phase)
    (running : ∀ other ∈ s'.running, other ∈ s.running)
    (listeners : ∀ listener ∈ s'.listeners, listener ∈ s.listeners) (loads : s'.loads = s.loads)
    (last : s'.last = s.last) (sequence : s'.sequence = s.sequence) (seen : s'.seen = s.seen)
    (subscriptions : s'.subscriptions = s.subscriptions) (returned : s'.returned = s.returned) :
    s'.Sound where
  shut closed := ⟨sampling, shut closed⟩
  still opened _ := still opened
  sampled load is := absurd (sampling.symm.trans is) nofun
  delivers sample visited delivering opened := by
    rcases phase with idle | ⟨closed, -⟩
    · exact absurd (idle.symm.trans delivering) nofun
    · exact absurd (closed.symm.trans opened) nofun
  begun other member := loads ▸ sound.begun other (running other member)
  last := by rw [last, sequence]; exact sound.last
  numbers := by rw [seen, sequence]; exact sound.numbers
  rising := by rw [seen]; exact sound.rising
  passed sample visited delivering := by
    rw [seen, sequence]
    rcases phase with idle | ⟨-, same⟩
    · exact absurd (idle.symm.trans delivering) nofun
    · exact sound.passed sample visited (same ▸ delivering)
  unseen := by rw [seen, subscriptions]; exact sound.unseen
  known := by
    rw [subscriptions, returned]
    exact ⟨fun listener member => sound.known.1 listener (listeners listener member), sound.known.2⟩
  replays listener replaying := by
    rw [subscriptions]
    rcases phase with idle | ⟨-, same⟩
    · exact absurd (idle.symm.trans replaying) nofun
    · exact sound.replays listener (same ▸ replaying)
  calls call member := by
    rw [calls] at member
    obtain ⟨before, was, rfl⟩ := mem_map.mp member
    exact (sound.calls before was).ended is own loads sampling

/-- Once nobody is passed a sample, whoever listens has a sampling to wait for. -/
theorem active_ended (is : s.sampling = some load ∨ s.sampling = none) (result : Option (HubSample α)) :
    (s.endSampling load result).Active := by
  rw [endSampling_eq is]
  rintro opened ⟨listener, member, -⟩
  have listens : s.listeners ≠ [] := ne_nil_of_mem member
  refine .inr ?_
  change (if s.listeners.isEmpty then s.scheduled else s.schedule.scheduled) = true
  rw [if_neg fun empty => listens (isEmpty_iff.mp empty)]
  exact schedule_scheduled opened listens

/-! ## Events -/

theorem Sound.subscribed (sound : s.Sound) (quiet : ∀ sample visited, s.phase ≠ .delivering sample visited)
    {listener : Nat} (below : listener < s.subscriptions) :
    (s.subscribed listener).Sound ∧ (s.subscribed listener).Active := by
  generalize returning : ({ s with returned := s.returned ++ [listener], phase := .idle } : HubState α) = s'
  have sound' : s'.Sound := by
    rw [← returning]
    refine { sound with
      sampled := fun load is => ⟨(sound.sampled load is).1, .inl ?_⟩
      delivers := nofun
      passed := nofun
      replays := nofun
      known := ⟨sound.known.1, fun other member => ?_⟩
      calls := fun call member => { sound.calls call member with } }
    · exact (sound.sampled load is).2.resolve_right fun ⟨sample, visited, phase, _⟩ => quiet sample visited phase
    · rcases mem_append.mp member with before | now
      · exact sound.known.2 other before
      · exact mem_singleton.mp now ▸ below
  unfold HubState.subscribed
  simp only [returning]
  split
  · split
    · refine ⟨sound'.schedule, fun opened ⟨other, member, _⟩ => .inr ?_⟩
      rw [schedule_eq] at opened member
      exact schedule_scheduled opened (ne_nil_of_mem member)
    · exact ⟨sound'.sampleEffect.sound, sound'.sampleEffect.active⟩
  · rename_i going
    refine ⟨sound', fun _ _ => ?_⟩
    rw [Bool.and_eq_true, not_and_or, Bool.not_eq_true', Bool.not_eq_false, isNone_iff_eq_none] at going
    rw [← returning]
    rcases going with scheduled | sampling
    · exact .inr scheduled
    · exact .inl (isSome_iff_ne_none.mpr sampling)

theorem Sound.subscribe (sound : s.Sound) (active : s.Active) (replay : Bool)
    (next : s.next (.subscribe replay) = some s') : s'.Sound ∧ s'.Active := by
  obtain ⟨idle, next⟩ := ite_none_right_eq_some.mp next
  rw [isIdle_iff] at idle
  split at next
  · cases next
    exact ⟨sound, active⟩
  rename_i opened
  have added : Sound { s with
      listeners := s.listeners ++ [s.subscriptions]
      subscriptions := s.subscriptions + 1 } := by
    refine { sound with
      shut := fun closed => absurd closed opened
      unseen := fun listener above => sound.unseen listener (le_of_succ_le above)
      known := ⟨fun listener member => ?_, fun listener member => lt_succ_of_lt (sound.known.2 listener member)⟩
      replays := fun listener replaying => absurd (idle.symm.trans replaying) nofun
      calls := fun call member => { sound.calls call member with } }
    rcases mem_append.mp member with before | now
    · exact lt_succ_of_lt (sound.known.1 listener before)
    · exact mem_singleton.mp now ▸ lt_succ_self _
  dsimp only at next
  split at next
  · rename_i sample is _
    cases next
    have first := sound.unseen _ (le_refl s.subscriptions)
    refine ⟨{ added with
      sampled := fun load is => ⟨(sound.sampled load is).1, .inl ?_⟩
      delivers := nofun
      passed := nofun
      numbers := fun listener number member => ?_
      rising := fun listener => ?_
      unseen := fun listener above => ?_
      replays := fun listener replaying => ?_
      calls := fun call member => { sound.calls call member with } }, fun opened' ⟨listener, member, among⟩ => ?_⟩
    · refine (sound.sampled load is).2.resolve_right fun ⟨_, _, phase, _⟩ => ?_
      exact absurd (idle.symm.trans phase) nofun
    · change number ∈ update s.seen s.subscriptions _ listener at member
      by_cases own : listener = s.subscriptions
      · rw [own, update_self, first, nil_append] at member
        exact mem_singleton.mp member ▸ sound.last sample is
      · rw [update_of_ne own] at member
        exact sound.numbers listener number member
    · change (update s.seen s.subscriptions _ listener).Pairwise _
      by_cases own : listener = s.subscriptions
      · rw [own, update_self, first, nil_append]
        exact pairwise_singleton _ _
      · rw [update_of_ne own]
        exact sound.rising listener
    · change update s.seen s.subscriptions _ listener = []
      rw [update_of_ne (ne_of_gt above)]
      exact sound.unseen listener (le_of_succ_le above)
    · exact HubPhase.replaying.inj replaying ▸ lt_succ_self _
    · rcases mem_append.mp member with before | now
      · exact active opened' ⟨listener, before, among⟩
      · rw [mem_singleton.mp now] at among
        exact absurd (sound.known.2 _ among) (lt_irrefl _)
  · cases next
    exact added.subscribed (fun _ _ phase => absurd (idle.symm.trans phase) nofun) (lt_succ_self _)

theorem Sound.replayed (sound : s.Sound) (active : s.Active) (throws : Bool)
    (next : s.next (.replayed throws) = some s') : s'.Sound ∧ s'.Active := by
  simp only [HubState.next] at next
  split at next
  · rename_i listener replaying
    cases next
    have quiet : ∀ sample visited, s.phase ≠ .delivering sample visited := fun _ _ phase =>
      absurd (replaying.symm.trans phase) nofun
    split
    · refine ⟨{ sound with
        sampled := fun load is => ⟨(sound.sampled load is).1, .inl ?_⟩
        delivers := nofun
        passed := nofun
        replays := nofun
        calls := fun call member => { sound.calls call member with } }, active⟩
      exact (sound.sampled load is).2.resolve_right fun ⟨sample, visited, phase, _⟩ => quiet sample visited phase
    · exact sound.subscribed quiet (sound.replays listener replaying)
  · cases next

theorem Sound.unsubscribe (sound : s.Sound) (active : s.Active) (listener : Nat)
    (next : s.next (.unsubscribe listener) = some s') : s'.Sound ∧ s'.Active := by
  obtain ⟨-, now⟩ := ite_none_right_eq_some.mp next
  cases now
  have left : Sound { s with listeners := s.listeners.erase listener } := by
    refine { sound with
      shut := fun closed => ?_
      known := ⟨fun other member => sound.known.1 other (mem_of_mem_erase member), sound.known.2⟩
      calls := fun call member => { sound.calls call member with } }
    obtain ⟨sampling, running, scheduled, none_⟩ := sound.shut closed
    exact ⟨sampling, running, scheduled, by rw [none_]; rfl⟩
  dsimp only
  split
  · rename_i empty
    refine ⟨left.withScheduled false fun _ => rfl, fun _ ⟨other, member, _⟩ => ?_⟩
    rw [show (cancelSchedule { s with listeners := s.listeners.erase listener }).listeners = [] from
      isEmpty_iff.mp empty] at member
    exact absurd member not_mem_nil
  · refine ⟨left, fun opened ⟨other, member, among⟩ => ?_⟩
    exact active opened ⟨other, mem_of_mem_erase member, among⟩

theorem Active.of_same (active : s.Active) (closed : s'.closed = s.closed)
    (listeners : s'.listeners = s.listeners) (returned : s'.returned = s.returned)
    (sampling : s'.sampling = s.sampling) (scheduled : s'.scheduled = s.scheduled) : s'.Active := by
  unfold Active
  rw [closed, listeners, returned, sampling, scheduled]
  exact active

theorem Sampled.awaits (sampled : Sampled s s' stage) (call : HubCall α) (asked : call.asked ≤ s.loads)
    (before : call.refreshes = true → ∀ load, s.sampling = some load → call.asked ≤ load) :
    s'.Awaits { call with stage } := by
  refine ⟨le_trans asked sampled.loads, fun load on_ => ?_, fun ready => ?_, fun refreshes load joined => ?_,
    fun _ sample settled => ?_⟩
  all_goals rcases sampled.stage with ⟨-, rfl⟩ | ⟨other, is, rfl, from_⟩
  · cases on_
  · exact Option.some.inj on_ ▸ is
  · cases ready
  · cases ready
  · cases joined
  · obtain rfl := HubStage.joined.inj joined
    rcases from_ with same | ⟨-, rfl⟩
    · exact before refreshes other same
    · exact asked
  · cases settled
  · cases settled

theorem Sound.read (sound : s.Sound) (active : s.Active) (now : Int) {s' : HubState α}
    (next : s.next (.read now) = some s') : s'.Sound ∧ s'.Active := by
  simp only [HubState.next] at next
  split at next
  · rename_i sample _
    cases next
    exact ⟨sound.ask ⟨le_refl _, nofun, nofun, nofun, nofun⟩, active⟩
  · cases next
    have sampled := sound.sampleEffect
    have awaits := sampled.awaits ⟨false, s.loads, s.sampleEffect.2⟩ (le_refl _) nofun
    exact ⟨sampled.sound.ask awaits, sampled.active.of_same rfl rfl rfl rfl rfl⟩

theorem Sound.refresh (sound : s.Sound) (active : s.Active) (next : s.next .refresh = some s') :
    s'.Sound ∧ s'.Active := by
  simp only [HubState.next] at next
  split at next
  · rename_i load is
    cases next
    refine ⟨sound.ask ⟨le_refl _, fun other on_ => ?_, nofun, nofun, nofun⟩, active⟩
    exact Option.some.inj on_ ▸ is
  · rename_i none_
    cases next
    have sampled := sound.refreshNow
    have awaits := sampled.awaits ⟨true, s.loads, s.refreshNow.2⟩ (le_refl _)
      fun _ load is => absurd (none_.symm.trans is) nofun
    exact ⟨sampled.sound.ask awaits, sampled.active.of_same rfl rfl rfl rfl rfl⟩

theorem Sound.resume (sound : s.Sound) (index : Nat) (next : s.next (.resume index) = some s') :
    s'.Sound ∧ s'.Active := by
  simp only [HubState.next] at next
  split at next
  · rename_i refreshes asked _ is
    cases next
    have before := sound.calls _ (mem_of_getElem? is)
    have sampled := sound.refreshNow
    have awaits := sampled.awaits ⟨refreshes, asked, .ready⟩ before.asked fun _ => before.ready rfl
    have same : s.refreshNow.1.calls[index]? = some ⟨refreshes, asked, .ready⟩ := by
      rw [sampled.calls]
      exact is
    exact ⟨sampled.sound.setStage same awaits, sampled.active.of_same rfl rfl rfl rfl rfl⟩
  · cases next

theorem Sound.loaded (sound : s.Sound) (active : s.Active) (load : Nat) (outcome : Option α)
    (now : Int) (next : s.next (.loaded load outcome now) = some s') : s'.Sound ∧ s'.Active := by
  obtain ⟨may, next⟩ := ite_none_right_eq_some.mp next
  rw [Bool.and_eq_true, isIdle_iff, contains_iff_mem] at may
  obtain ⟨idle, member⟩ := may
  have only : ∀ other, s.sampling = some other → s.running = [other] := by
    intro other is
    refine (sound.sampled other is).2.resolve_right fun ⟨_, _, phase, _⟩ => ?_
    exact absurd (idle.symm.trans phase) nofun
  dsimp only at next
  split at next
  · rename_i is
    have opened : s.closed = false := by
      refine Bool.eq_false_iff.mpr fun closed => ?_
      exact absurd ((sound.shut closed).1.symm.trans is) nofun
    have running : s.running.erase load = [] := by
      rw [only load is]
      exact erase_cons_head ..
    split at next
    · rename_i snapshot
      cases next
      refine ⟨{ sound with
        shut := fun closed => absurd (opened.symm.trans closed) nofun
        still := fun _ none_ => absurd (none_.symm.trans is) nofun
        sampled := fun other same => ⟨(sound.sampled other same).1, .inr ⟨_, _, rfl, ?_⟩⟩
        delivers := fun sample visited phase _ => ?_
        begun := fun other still => sound.begun other (mem_of_mem_erase still)
        last := fun sample is => ?_
        numbers := fun listener number seen => le_succ_of_le (sound.numbers listener number seen)
        passed := fun sample visited phase => ?_
        replays := nofun
        calls := fun call member => { sound.calls call member with } }, fun _ _ => .inl (is ▸ rfl)⟩
      · exact Option.some.inj (is.symm.trans same)
      · cases phase
        exact ⟨is, running⟩
      · exact Option.some.inj is ▸ le_refl _
      · cases phase
        exact ⟨le_refl _, fun listener _ number seen => lt_succ_of_le (sound.numbers listener number seen)⟩
    · cases next
      have is' : ({ s with running := s.running.erase load } : HubState α).sampling = some load ∨
        ({ s with running := s.running.erase load } : HubState α).sampling = none := .inl is
      refine ⟨?_, active_ended is' none⟩
      rw [endSampling_eq is']
      refine sound.ended (.inl is) (by simp) rfl rfl (fun closed => ?_) (fun _ => running) (.inl idle)
        (fun other still => mem_of_mem_erase still) (fun _ member => member) rfl rfl rfl rfl rfl rfl
      exact absurd (opened.symm.trans closed) nofun
  · rename_i other
    cases next
    have none_ : s.sampling = none := by
      cases is : s.sampling with
      | none => rfl
      | some mine =>
        rw [only mine is] at member
        exact absurd (mem_singleton.mp member ▸ is) other
    refine ⟨{ sound with
      shut := fun closed => ?_
      still := fun opened is => ?_
      sampled := fun load is => absurd (none_.symm.trans is) nofun
      delivers := fun sample visited phase _ => absurd (idle.symm.trans phase) nofun
      begun := fun other still => sound.begun other (mem_of_mem_erase still)
      calls := fun call member => { sound.calls call member with } }, active⟩
    · obtain ⟨sampling, few, scheduled, listeners⟩ := sound.shut closed
      exact ⟨sampling, le_trans length_erase_le few, scheduled, listeners⟩
    · change s.running.erase load = []
      rw [sound.still opened is]
      rfl

theorem Sound.deliver (sound : s.Sound) (active : s.Active) (next : s.next .deliver = some s') :
    s'.Sound ∧ s'.Active := by
  simp only [HubState.next] at next
  split at next
  · rename_i sample visited phase
    obtain ⟨top, below⟩ := sound.passed sample visited phase
    split at next
    · rename_i listener found
      cases next
      have member := mem_of_find?_eq_some found
      have fresh : listener ∉ visited := by simpa using find?_some found
      refine ⟨{ sound with
        sampled := fun load is => ⟨(sound.sampled load is).1, ?_⟩
        delivers := fun other visited' phase' opened => ?_
        numbers := fun other number seen => ?_
        rising := fun other => ?_
        passed := fun other visited' phase' => ?_
        unseen := fun other above => ?_
        replays := nofun
        calls := fun call member => { sound.calls call member with } }, active⟩
      · rcases (sound.sampled load is).2 with running | ⟨mine, before, phase', its⟩
        · exact .inl running
        · cases phase.symm.trans phase'
          exact .inr ⟨_, _, rfl, its⟩
      · cases phase'
        exact sound.delivers _ _ phase opened
      · change number ∈ update s.seen listener _ other at seen
        by_cases own : other = listener
        · rw [own, update_self] at seen
          rcases mem_append.mp seen with before | now
          · exact sound.numbers listener number before
          · exact mem_singleton.mp now ▸ top
        · rw [update_of_ne own] at seen
          exact sound.numbers other number seen
      · change (update s.seen listener _ other).Pairwise _
        by_cases own : other = listener
        · rw [own, update_self]
          refine pairwise_append.mpr ⟨sound.rising listener, pairwise_singleton _ _, ?_⟩
          intro number seen last now
          exact mem_singleton.mp now ▸ below listener fresh number seen
        · rw [update_of_ne own]
          exact sound.rising other
      · cases phase'
        refine ⟨top, fun another notYet number seen => ?_⟩
        rw [mem_append, not_or, mem_singleton] at notYet
        change number ∈ update s.seen listener _ another at seen
        rw [update_of_ne notYet.2] at seen
        exact below another notYet.1 number seen
      · change update s.seen listener _ other = []
        rw [update_of_ne]
        · exact sound.unseen other above
        · rintro rfl
          exact absurd (sound.known.1 other member) (not_lt.mpr above)
    · cases next
      have is : s.sampling = some sample.load ∨ s.sampling = none := by
        cases closed : s.closed with
        | false => exact .inl (sound.delivers sample visited phase closed).1
        | true => exact .inr (sound.shut closed).1
      have is' : ({ s with phase := .idle } : HubState α).sampling = some sample.load ∨
        ({ s with phase := .idle } : HubState α).sampling = none := is
      refine ⟨?_, active_ended is' _⟩
      rw [endSampling_eq is']
      refine sound.ended is (fun other same => ?_) rfl rfl (fun closed => ?_) (fun opened => ?_) (.inl rfl)
        (fun _ member => member) (fun _ member => member) rfl rfl rfl rfl rfl rfl
      · rw [Option.some.inj same]
      · obtain ⟨-, few, scheduled, listeners⟩ := sound.shut closed
        refine ⟨few, ?_, listeners⟩
        change (if s.listeners.isEmpty then s.scheduled else _) = false
        rw [listeners]
        exact scheduled
      · exact (sound.delivers sample visited phase opened).2
  · cases next

theorem Sound.expire (sound : s.Sound) (next : s.next .expire = some s') : s'.Sound ∧ s'.Active := by
  obtain ⟨-, now⟩ := ite_none_right_eq_some.mp next
  cases now
  have sampled := (sound.withScheduled false fun _ => rfl).sampleEffect
  exact ⟨sampled.sound, sampled.active⟩

theorem Sound.close (sound : s.Sound) (next : s.next .close = some s') : s'.Sound ∧ s'.Active := by
  cases next
  have few : s.running.length ≤ 1 := by
    cases closed : s.closed with
    | true => exact (sound.shut closed).2.1
    | false =>
      cases is : s.sampling with
      | none =>
        rw [sound.still closed is]
        exact zero_le _
      | some load =>
        rcases (sound.sampled load is).2 with running | ⟨sample, visited, phase, -⟩
        · exact running ▸ le_refl _
        · rw [(sound.delivers sample visited phase closed).2]
          exact zero_le _
  refine ⟨?_, nofun⟩
  generalize closing : ({ s.cancelSchedule with closed := true } : HubState α) = c
  have sampling : c.sampling = s.sampling := by rw [← closing]; rfl
  cases is : s.sampling with
  | some load =>
    have ends : c.sampling = some load ∨ c.sampling = none := .inl (sampling.trans is)
    simp only [ends.resolve_right fun no => absurd (no.symm.trans (sampling.trans is)) nofun, endSampling_eq ends]
    subst closing
    refine sound.ended (.inl is) (by simp) rfl rfl (fun _ => ⟨few, ?_, rfl⟩) nofun (.inr ⟨rfl, rfl⟩)
      (fun _ member => member) nofun rfl rfl rfl rfl rfl rfl
    change (if s.listeners.isEmpty then false else _) = false
    split
    · rfl
    · rfl
  | none =>
    simp only [sampling.trans is]
    subst closing
    exact { sound with
      shut := fun _ => ⟨rfl, few, rfl, rfl⟩
      still := nofun
      sampled := nofun
      delivers := fun _ _ _ => nofun
      known := ⟨nofun, sound.known.2⟩
      calls := fun call member => (sound.calls call member).of_same is.symm rfl }

theorem Sound.next (sound : s.Sound) (active : s.Active) {event : HubEvent α}
    (next : s.next event = some s') : s'.Sound ∧ s'.Active := by
  cases event with
  | subscribe replay => exact sound.subscribe active replay next
  | replayed throws => exact sound.replayed active throws next
  | unsubscribe listener => exact sound.unsubscribe active listener next
  | read now => exact sound.read active now next
  | refresh => exact sound.refresh active next
  | resume index => exact sound.resume index next
  | loaded load outcome now => exact sound.loaded active load outcome now next
  | deliver => exact sound.deliver active next
  | expire => exact sound.expire next
  | close => exact sound.close next

theorem sound_of_reachable (reached : (hubSystem α).Reachable s) : s.Sound ∧ s.Active := by
  refine reached.invariant (I := fun s => s.Sound ∧ s.Active) (fun s is => ?_) fun s event s' held step =>
    held.1.next held.2 step
  rw [show s = {} from is]
  exact ⟨⟨nofun, fun _ _ => rfl, nofun, nofun, nofun, nofun, fun _ => nofun, fun _ => .nil, nofun, fun _ _ => rfl,
    ⟨nofun, nofun⟩, nofun, nofun⟩, fun _ ⟨_, member, _⟩ => absurd member not_mem_nil⟩

theorem Sound.steady (sound : s.Sound) (active : s.Active) : s.Steady where
  one := by
    cases closed : s.closed with
    | true => exact (sound.shut closed).2.1
    | false =>
      cases is : s.sampling with
      | none =>
        rw [sound.still closed is]
        exact zero_le _
      | some load =>
        rcases (sound.sampled load is).2 with running | ⟨sample, visited, phase, -⟩
        · exact running ▸ le_refl _
        · rw [(sound.delivers sample visited phase closed).2]
          exact zero_le _
  rising := sound.rising
  fresh := fun call member => (sound.calls call member).fresh
  active := fun opened listens => by
    refine (active opened listens).imp_left fun is => ?_
    obtain ⟨load, is⟩ := isSome_iff_exists.mp is
    exact ⟨load, is, (sound.sampled load is).2.imp_left fun running => by
      rw [running]
      exact mem_singleton_self _⟩

/-! ## How calls go on -/

/-- A call that goes on, or stays as it is. -/
inductive Moves : HubStage α → HubStage α → Prop
  | same (stage : HubStage α) : Moves stage stage
  | woken (load : Nat) : Moves (.waiting load) .ready
  | joins (load : Nat) : Moves .ready (.joined load)
  | refused : Moves .ready (.settled none)
  | answered (load : Nat) (result : Option (HubSample α)) : Moves (.joined load) (.settled result)

/-- What a step leaves of the loads and the calls there were. -/
structure Goes (s s' : HubState α) : Prop where
  loads : s.loads ≤ s'.loads
  running : ∀ load ∈ s'.running, load ∈ s.running ∨ s.loads ≤ load
  calls : ∀ (index : Nat) (call : HubCall α), s.calls[index]? = some call →
    ∃ call', s'.calls[index]? = some call' ∧ call'.refreshes = call.refreshes ∧ Moves call.stage call'.stage

theorem Goes.of_calls (loads : s.loads ≤ s'.loads)
    (running : ∀ load ∈ s'.running, load ∈ s.running ∨ s.loads ≤ load) (calls : s'.calls = s.calls) :
    Goes s s' :=
  ⟨loads, running, fun _ call is => ⟨call, calls ▸ is, rfl, .same _⟩⟩

theorem Goes.ask {s' : HubState α} (goes : Goes s s') (refreshes : Bool) (stage : HubStage α) (asked : Nat) :
    Goes s (s'.ask refreshes stage asked) :=
  { goes with
    calls := fun index call is => by
      obtain ⟨call', is', moves⟩ := goes.calls index call is
      refine ⟨call', ?_, moves⟩
      change (s'.calls ++ [_])[index]? = some call'
      rw [List.getElem?_append_left (List.getElem?_eq_some_iff.mp is').1]
      exact is' }

theorem moves_ended (call : HubCall α) (load : Nat) (result : Option (HubSample α)) :
    (call.ended load result).refreshes = call.refreshes ∧ Moves call.stage (call.ended load result).stage := by
  obtain ⟨refreshes, asked, stage⟩ := call
  cases stage with
  | waiting other =>
    simp only [HubCall.ended]
    split
    · exact ⟨rfl, .woken other⟩
    · exact ⟨rfl, .same _⟩
  | joined other =>
    simp only [HubCall.ended]
    split
    · exact ⟨rfl, .answered other result⟩
    · exact ⟨rfl, .same _⟩
  | ready => exact ⟨rfl, .same _⟩
  | settled sample => exact ⟨rfl, .same _⟩

theorem Goes.ended (loads : s'.loads = s.loads) (running : ∀ other ∈ s'.running, other ∈ s.running)
    (calls : s'.calls = s.calls.map (HubCall.ended load result)) : Goes s s' where
  loads := le_of_eq loads.symm
  running := fun other member => .inl (running other member)
  calls := fun index call is => by
    refine ⟨call.ended load result, ?_, moves_ended call load result⟩
    rw [calls, getElem?_map, is]
    rfl

theorem endSampling_calls (s : HubState α) (load : Nat) (result : Option (HubSample α)) :
    (s.endSampling load result).loads = s.loads ∧ (s.endSampling load result).running = s.running ∧
      (s.endSampling load result).calls = s.calls.map (HubCall.ended load result) := by
  unfold endSampling schedule
  dsimp only
  split
  · exact ⟨rfl, rfl, rfl⟩
  · split <;> exact ⟨rfl, rfl, rfl⟩

theorem sampleEffect_goes (s : HubState α) : Goes s s.sampleEffect.1 := by
  unfold sampleEffect
  split
  · exact .of_calls (le_refl _) (fun _ => .inl) rfl
  split
  · exact .of_calls (le_refl _) (fun _ => .inl) rfl
  · refine .of_calls (le_succ _) (fun load member => ?_) rfl
    rcases mem_append.mp member with before | now
    · exact .inl before
    · exact .inr (le_of_eq (mem_singleton.mp now).symm)

theorem refreshNow_goes (s : HubState α) : Goes s s.refreshNow.1 :=
  { sampleEffect_goes { s.cancelSchedule with last := none } with }

theorem sampleEffect_moves (s : HubState α) : Moves .ready s.sampleEffect.2 := by
  unfold sampleEffect
  split
  · exact .refused
  · split <;> exact .joins _

theorem Goes.setStage (goes : Goes s s') {index : Nat} (same : s'.calls = s.calls)
    (is : s.calls[index]? = some call) (moves : Moves call.stage stage) :
    Goes s (s'.setStage index stage) :=
  { goes with
    calls := fun other value found => by
      change ∃ call', (s'.calls.modify index _)[other]? = some call' ∧ _
      rw [same, getElem?_modify, found]
      refine ⟨_, rfl, ?_⟩
      dsimp only
      by_cases equal : index = other
      · subst equal
        cases found.symm.trans is
        rw [if_pos rfl]
        exact ⟨rfl, moves⟩
      · rw [if_neg equal]
        exact ⟨rfl, .same _⟩ }

theorem refreshNow_calls (s : HubState α) : s.refreshNow.1.calls = s.calls := by
  unfold refreshNow sampleEffect
  split
  · rfl
  · split <;> rfl

theorem subscribed_goes (s : HubState α) (listener : Nat) : Goes s (s.subscribed listener) := by
  unfold subscribed
  dsimp only
  split
  · split
    · rw [schedule_eq]
      exact .of_calls (le_refl _) (fun _ => .inl) rfl
    · exact { sampleEffect_goes { s with returned := s.returned ++ [listener], phase := .idle } with }
  · exact .of_calls (le_refl _) (fun _ => .inl) rfl

theorem goes_next (s : HubState α) {event : HubEvent α} (next : s.next event = some s') :
    Goes s s' := by
  have keeps : ∀ {s' : HubState α}, s'.loads = s.loads → (∀ load ∈ s'.running, load ∈ s.running) →
      s'.calls = s.calls → Goes s s' := fun loads running calls =>
    .of_calls (le_of_eq loads.symm) (fun load member => .inl (running load member)) calls
  cases event with
  | subscribe replay =>
    obtain ⟨-, next⟩ := ite_none_right_eq_some.mp next
    split at next
    · cases next
      exact keeps rfl (fun _ member => member) rfl
    dsimp only at next
    split at next
    · cases next
      exact keeps rfl (fun _ member => member) rfl
    · cases next
      exact { subscribed_goes { s with
        listeners := s.listeners ++ [s.subscriptions]
        subscriptions := s.subscriptions + 1 } s.subscriptions with }
  | replayed throws =>
    simp only [HubState.next] at next
    split at next
    · cases next
      split
      · exact keeps rfl (fun _ member => member) rfl
      · exact subscribed_goes s _
    · cases next
  | unsubscribe listener =>
    obtain ⟨-, now⟩ := ite_none_right_eq_some.mp next
    cases now
    dsimp only
    split <;> exact keeps rfl (fun _ member => member) rfl
  | read now =>
    simp only [HubState.next] at next
    split at next
    · cases next
      exact (keeps rfl (fun _ member => member) rfl).ask ..
    · cases next
      exact (sampleEffect_goes s).ask ..
  | refresh =>
    simp only [HubState.next] at next
    split at next
    · cases next
      exact (keeps rfl (fun _ member => member) rfl).ask ..
    · cases next
      exact (refreshNow_goes s).ask ..
  | resume index =>
    simp only [HubState.next] at next
    split at next
    · rename_i refreshes asked _ is
      cases next
      exact (refreshNow_goes s).setStage (refreshNow_calls s) is (sampleEffect_moves _)
    · cases next
  | loaded load outcome now =>
    obtain ⟨-, next⟩ := ite_none_right_eq_some.mp next
    dsimp only at next
    split at next
    · split at next
      · cases next
        exact keeps rfl (fun _ member => mem_of_mem_erase member) rfl
      · cases next
        obtain ⟨loads, running, calls⟩ := endSampling_calls { s with running := s.running.erase load } load none
        exact .ended loads (fun other member => mem_of_mem_erase (running ▸ member)) calls
    · cases next
      exact keeps rfl (fun _ member => mem_of_mem_erase member) rfl
  | deliver =>
    simp only [HubState.next] at next
    split at next
    · rename_i sample visited _
      split at next
      · cases next
        exact keeps rfl (fun _ member => member) rfl
      · cases next
        obtain ⟨loads, running, calls⟩ := endSampling_calls { s with phase := .idle } sample.load (some sample)
        exact .ended loads (fun other member => running ▸ member) calls
    · cases next
  | expire =>
    obtain ⟨-, now⟩ := ite_none_right_eq_some.mp next
    cases now
    exact { sampleEffect_goes { s with scheduled := false } with }
  | close =>
    cases next
    dsimp only
    split
    · rename_i load _
      obtain ⟨loads, running, calls⟩ := endSampling_calls { s.cancelSchedule with closed := true } load none
      exact .ended loads (fun other member => running ▸ member) calls
    · exact keeps rfl (fun _ member => member) rfl

/-! ## Refreshes are settled -/

section Behaviors

variable {run : Nat → HubState α} (behaves : (hubSystem α).Behavior run)

include behaves

theorem ended_stays {load : Nat} {n m : Nat} (later : n ≤ m) (begun : load < (run n).loads)
    (ended : load ∉ (run n).running) : load ∉ (run m).running := by
  refine (behaves.stays (P := fun s => load < s.loads ∧ load ∉ s.running) ?_ later ⟨begun, ended⟩).2
  rintro s event s' - ⟨begun, ended⟩ step
  have goes := goes_next s step
  refine ⟨lt_of_lt_of_le begun goes.loads, fun member => ?_⟩
  rcases goes.running load member with before | after
  · exact ended before
  · exact absurd begun (not_lt.mpr after)

theorem sampling_ends (fair : Fair run) (load : Nat) :
    LeadsTo run (·.sampling = some load) (·.sampling ≠ some load) := by
  intro n is
  obtain ⟨m, later, ended⟩ : ∃ m, n ≤ m ∧ load ∉ (run m).running := by
    by_cases runs : load ∈ (run n).running
    · exact fair.loads load n runs
    · exact ⟨n, le_refl n, runs⟩
  by_cases still : (run m).sampling = some load
  · obtain ⟨sound, -⟩ := sound_of_reachable (behaves.reachable m)
    obtain ⟨k, later', idle⟩ := fair.phases m trivial
    refine ⟨k, le_trans later later', fun again => ?_⟩
    obtain ⟨sound', -⟩ := sound_of_reachable (behaves.reachable k)
    have gone := ended_stays behaves later' (sound.sampled load still).1 ended
    rcases (sound'.sampled load again).2 with running | ⟨sample, visited, phase, -⟩
    · rw [running] at gone
      exact gone (mem_singleton_self _)
    · exact absurd ((isIdle_iff.mp idle).symm.trans phase) nofun
  · exact ⟨m, later, still⟩

/-- Whoever waits for a load gets further. -/
theorem waiting_ends (fair : Fair run) {index : Nat} {load : Nat} {stage : HubStage α} (on_ : stage.on = some load) :
    LeadsTo run (·.callIs index (·.stage = stage)) (¬ ·.callIs index (·.stage = stage)) := by
  intro n ⟨call, is, waits⟩
  obtain ⟨sound, -⟩ := sound_of_reachable (behaves.reachable n)
  have sampling := (sound.calls call (mem_of_getElem? is)).waits load (waits ▸ on_)
  obtain ⟨m, later, past⟩ := sampling_ends behaves fair load n sampling
  refine ⟨m, later, fun ⟨call', is', waits'⟩ => past ?_⟩
  obtain ⟨sound', -⟩ := sound_of_reachable (behaves.reachable m)
  exact (sound'.calls call' (mem_of_getElem? is')).waits load (waits' ▸ on_)

/-- What a call in some stage comes to, where it doesn't stay in it. -/
theorem leadsTo_moves {index : Nat} {stage : HubStage α} {Q : HubState α → Prop}
    (ends : LeadsTo run (·.callIs index (·.stage = stage)) (¬ ·.callIs index (·.stage = stage)))
    (moves : ∀ (s : HubState α) (call : HubCall α), s.calls[index]? = some call → Moves stage call.stage →
      call.stage = stage ∨ Q s) : LeadsTo run (·.callIs index (·.stage = stage)) Q := by
  refine behaves.leadsTo (fun s event s' _ ⟨call, is, its⟩ step => ?_) ends
  obtain ⟨call', is', -, moved⟩ := (goes_next s step).calls index call is
  rcases moves s' call' is' (its ▸ moved) with same | other
  · exact .inl ⟨call', is', same⟩
  · exact .inr other

theorem joined_leadsTo (fair : Fair run) (index load : Nat) :
    LeadsTo run (·.callIs index (·.stage = .joined load)) (·.callIs index HubCall.isSettled) := by
  refine leadsTo_moves behaves (waiting_ends behaves fair rfl) fun s call is moves => ?_
  generalize its : call.stage = stage at moves
  cases moves with
  | same => exact .inl rfl
  | answered _ result => exact .inr ⟨call, is, result, its⟩

theorem ready_leadsTo (fair : Fair run) (index : Nat) :
    LeadsTo run (·.callIs index (·.stage = .ready)) (·.callIs index HubCall.isSettled) := by
  have goes : LeadsTo run (·.callIs index (·.stage = .ready))
      (fun s => (∃ load, s.callIs index (·.stage = .joined load)) ∨ s.callIs index HubCall.isSettled) := by
    refine leadsTo_moves behaves (fair.resumes index) fun s call is moves => ?_
    generalize its : call.stage = stage at moves
    cases moves with
    | same => exact .inl rfl
    | joins load => exact .inr (.inl ⟨load, call, is, its⟩)
    | refused => exact .inr (.inr ⟨call, is, none, its⟩)
  exact goes.trans (.or (.exists_ (joined_leadsTo behaves fair index)) (.of_imp fun _ done => done))

theorem waiting_leadsTo (fair : Fair run) (index load : Nat) :
    LeadsTo run (·.callIs index (·.stage = .waiting load)) (·.callIs index HubCall.isSettled) := by
  have goes : LeadsTo run (·.callIs index (·.stage = .waiting load)) (·.callIs index (·.stage = .ready)) := by
    refine leadsTo_moves behaves (waiting_ends behaves fair rfl) fun s call is moves => ?_
    generalize its : call.stage = stage at moves
    cases moves with
    | same => exact .inl rfl
    | woken => exact .inr ⟨call, is, its⟩
  exact goes.trans (ready_leadsTo behaves fair index)

theorem settles (fair : Fair run) : Settles run := by
  rintro index n ⟨call, is, -⟩
  generalize its : call.stage = stage
  cases stage with
  | waiting load => exact waiting_leadsTo behaves fair index load n ⟨call, is, its⟩
  | ready => exact ready_leadsTo behaves fair index n ⟨call, is, its⟩
  | joined load => exact joined_leadsTo behaves fair index load n ⟨call, is, its⟩
  | settled result => exact ⟨n, le_refl n, call, is, result, its⟩

end Behaviors

end HubState

/-- The hub is steady in every state it comes to, and settles every refresh where loads settle and listeners
return. -/
theorem snapshotHub_steady (s : HubState α) (reached : (hubSystem α).Reachable s)
    (run : Nat → HubState α) (behaves : (hubSystem α).Behavior run) (fair : HubState.Fair run) :
    s.Steady ∧ HubState.Settles run := by
  obtain ⟨sound, active⟩ := HubState.sound_of_reachable reached
  exact ⟨sound.steady active, HubState.settles behaves fair⟩

/-- A refresh whose load settles, and a hub that's then closed for good. -/
def refreshedEvent : Nat → HubEvent Nat
  | 0 => .refresh
  | 1 => .loaded 0 (some 7) 0
  | 2 => .deliver
  | _ => .close

def refreshedRun : Nat → HubState Nat
  | 0 => {}
  | n + 1 => ((refreshedRun n).next (refreshedEvent n)).getD {}

theorem refreshedRun_closed (n : Nat) : refreshedRun (n + 4) = refreshedRun 4 := by
  induction n with
  | zero => rfl
  | succ n ih =>
    rw [show n + 1 + 4 = (n + 4) + 1 from rfl, refreshedRun, ih]
    rfl

theorem refreshedRun_behaves : (hubSystem Nat).Behavior refreshedRun := by
  refine ⟨rfl, fun n => ⟨refreshedEvent n, ?_⟩⟩
  match n with
  | 0 => rfl
  | 1 => rfl
  | 2 => rfl
  | 3 => rfl
  | n + 4 =>
    change (refreshedRun (n + 4)).next .close = some (((refreshedRun (n + 4)).next .close).getD {})
    rw [refreshedRun_closed]
    rfl

theorem refreshedRun_fair : HubState.Fair refreshedRun where
  loads := fun load n _ => ⟨n + 4, le_add_right n 4, by
    rw [refreshedRun_closed]
    exact not_mem_nil⟩
  phases := fun n _ => ⟨n + 4, le_add_right n 4, by
    rw [refreshedRun_closed]
    rfl⟩
  resumes := fun index n _ => ⟨n + 4, le_add_right n 4, by
    rw [refreshedRun_closed]
    rintro ⟨call, is, ready⟩
    match index with
    | 0 =>
      cases is
      cases ready
    | _ + 1 => exact absurd is nofun⟩

theorem snapshotHub_steady_refreshed : (refreshedRun 2).Steady ∧ HubState.Settles refreshedRun ∧
    (refreshedRun 2).running = [] ∧ (refreshedRun 1).running = [0] :=
  have steady := snapshotHub_steady (refreshedRun 2) (refreshedRun_behaves.reachable 2) refreshedRun
    refreshedRun_behaves refreshedRun_fair
  ⟨steady.1, steady.2, rfl, rfl⟩

end Kiln.Relay
