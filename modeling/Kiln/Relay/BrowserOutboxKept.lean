import Mathlib
import Kiln.Relay.BrowserOutbox

/-!
# What a browser's outbox keeps

In every run the counter is the bytes of what's queued, the limits hold, frames leave in order and only while the session
is authorised. Callers that wait for room are answered as it closes, unless a frame couldn't be sent while they waited.
-/

namespace Kiln.Relay
open Kiln.Lib List Option

namespace BrowserOutbox

variable {config : OutboxConfig}

/-! ## Outputs in a row -/

@[simp] theorem arrivals_append (kind : OutboxKind) (outputs more : List Output) :
    arrivals kind (outputs ++ more) = arrivals kind outputs ++ arrivals kind more := filterMap_append

@[simp] theorem departures_append (kind : OutboxKind) (outputs more : List Output) :
    departures kind (outputs ++ more) = departures kind outputs ++ departures kind more := filterMap_append

@[simp] theorem waiting_append (outputs more : List Output) : waiting (outputs ++ more) = waiting outputs ++ waiting more :=
  filterMap_append

@[simp] theorem resolutions_append (outputs more : List Output) :
    resolutions (outputs ++ more) = resolutions outputs ++ resolutions more := filterMap_append

/-- Outputs that aren't about frames or callers that wait. -/
def Quiet (outputs : List Output) : Prop :=
  (∀ kind, arrivals kind outputs = [] ∧ departures kind outputs = []) ∧ waiting outputs = [] ∧ resolutions outputs = []

theorem quiet_returned (accepted : Bool) : Quiet [.returned accepted] := ⟨fun _ => ⟨rfl, rfl⟩, rfl, rfl⟩

theorem quiet_room (open_ : Bool) : Quiet [.room open_] := ⟨fun _ => ⟨rfl, rfl⟩, rfl, rfl⟩

theorem quiet_closesSocket (ready : Bool) (code : Nat) (reason : String) :
    Quiet (if ready then [.closesSocket code reason] else []) := by
  cases ready <;> exact ⟨fun _ => ⟨rfl, rfl⟩, rfl, rfl⟩

/-- What's resolved is nothing to do with frames. -/
theorem resolved_spec (waiters : List RoomWaiter) (open_ : Bool) :
    (∀ kind, arrivals kind (waiters.map fun waiter => .resolved waiter.id open_) = [] ∧
      departures kind (waiters.map fun waiter => .resolved waiter.id open_) = []) ∧
    waiting (waiters.map fun waiter => .resolved waiter.id open_) = [] ∧
    resolutions (waiters.map fun waiter => .resolved waiter.id open_) = waiters.map (·.id) := by
  simp [arrivals, departures, waiting, resolutions, filterMap_map]

/-! ## What every operation keeps -/

/-- The counter, and where the frames that came are. -/
structure Tracks (outbox : Outbox) (outputs : List Output) : Prop where
  bytes : outbox.bytes = totalBytes outbox.priority + totalBytes outbox.normal + totalBytes outbox.resource.toList
  inOrder : ∀ kind, kind ≠ .resource → departures kind outputs ++ outbox.queue kind <+: arrivals kind outputs
  noneLost : ∀ kind, kind ≠ .resource → outbox.closed = false →
    departures kind outputs ++ outbox.queue kind = arrivals kind outputs
  resources : Sublist (departures .resource outputs ++ outbox.queue .resource) (arrivals .resource outputs)
  latest : outbox.closed = false →
    (departures .resource outputs ++ outbox.queue .resource).getLast? = (arrivals .resource outputs).getLast?
  waiters : waiting outputs = resolutions outputs ++ outbox.roomWaiters.map (·.id)

variable {outbox after : Outbox} {outputs more : List Output}

/-- Frames that move from a queue's front to what left are tracked as before. -/
theorem Tracks.move (tracks : Tracks outbox outputs)
    (bytes : after.bytes = totalBytes after.priority + totalBytes after.normal + totalBytes after.resource.toList)
    (moved : ∀ kind, departures kind more ++ after.queue kind = outbox.queue kind) (none_ : ∀ kind, arrivals kind more = [])
    (closed : after.closed = outbox.closed)
    (waiters : waiting more ++ outbox.roomWaiters.map (·.id) = resolutions more ++ after.roomWaiters.map (·.id))
    (quiet : waiting more = []) : Tracks after (outputs ++ more) := by
  have flow : ∀ kind, departures kind (outputs ++ more) ++ after.queue kind = departures kind outputs ++ outbox.queue kind := by
    intro kind
    rw [departures_append, append_assoc, moved]
  have came : ∀ kind, arrivals kind (outputs ++ more) = arrivals kind outputs := by
    intro kind
    rw [arrivals_append, none_, append_nil]
  constructor
  · exact bytes
  · intro kind other
    rw [flow, came]
    exact tracks.inOrder kind other
  · intro kind other opened
    rw [flow, came]
    exact tracks.noneLost kind other (closed ▸ opened)
  · rw [flow, came]
    exact tracks.resources
  · intro opened
    rw [flow, came]
    exact tracks.latest (closed ▸ opened)
  · rw [quiet, nil_append] at waiters
    rw [waiting_append, resolutions_append, quiet, append_nil, tracks.waiters, waiters, append_assoc]

theorem Tracks.quiet (tracks : Tracks outbox outputs) (quiet : Quiet more) : Tracks outbox (outputs ++ more) := by
  obtain ⟨frames, waits, resolved⟩ := quiet
  refine tracks.move tracks.bytes (fun kind => ?_) (fun kind => (frames kind).1) rfl ?_ waits
  · rw [(frames kind).2, nil_append]
  · rw [waits, resolved]

namespace Outbox

theorem next_spec {outbox outbox' : Outbox} {kind : OutboxKind} {item : OutboxItem}
    (taken : outbox.next = some (kind, item, outbox')) :
    (∀ kind', (if kind = kind' then [item] else []) ++ outbox'.queue kind' = outbox.queue kind') ∧
      outbox'.bytes = outbox.bytes - item.bytes ∧ outbox'.closed = outbox.closed ∧ outbox'.sending = outbox.sending ∧
      outbox'.roomWaiters = outbox.roomWaiters ∧
      (kind ≠ .priority → outbox'.priority = [] ∧ (kind ≠ .console → outbox'.normal = [])) := by
  unfold next at taken
  cases first : outbox.priority with
  | cons head rest =>
    simp only [first, Option.some.injEq, Prod.mk.injEq] at taken
    obtain ⟨rfl, rfl, rfl⟩ := taken
    refine ⟨fun kind' => ?_, rfl, rfl, rfl, rfl, fun other => absurd rfl other⟩
    cases kind' with
    | console => rfl
    | priority => exact first.symm
    | resource => rfl
  | nil =>
    cases second : outbox.normal with
    | cons head rest =>
      simp only [first, second, Option.some.injEq, Prod.mk.injEq] at taken
      obtain ⟨rfl, rfl, rfl⟩ := taken
      refine ⟨fun kind' => ?_, rfl, rfl, rfl, rfl, fun _ => ⟨rfl, fun other => absurd rfl other⟩⟩
      cases kind' with
      | console => exact second.symm
      | priority => exact first.symm
      | resource => rfl
    | nil =>
      cases third : outbox.resource with
      | none => simp only [first, second, third, map_none, reduceCtorEq] at taken
      | some resource =>
        simp only [first, second, third, map_some, Option.some.injEq, Prod.mk.injEq] at taken
        obtain ⟨rfl, rfl, rfl⟩ := taken
        refine ⟨fun kind' => ?_, rfl, rfl, rfl, rfl, fun _ => ⟨rfl, fun _ => rfl⟩⟩
        cases kind' with
        | console => exact second.symm
        | priority => exact first.symm
        | resource => exact (congrArg toList third).symm

end Outbox

theorem totalBytes_append (items more : List OutboxItem) : totalBytes (items ++ more) = totalBytes items + totalBytes more := by
  rw [totalBytes, totalBytes, totalBytes, map_append, sum_append]

theorem totalBytes_nil : totalBytes [] = 0 := rfl

theorem totalBytes_single (item : OutboxItem) : totalBytes [item] = item.bytes := by
  rw [totalBytes, map_singleton, sum_singleton]

/-- A frame that's taken leaves the others tracked. -/
theorem Tracks.next {outbox' : Outbox} {kind : OutboxKind} {item : OutboxItem} (tracks : Tracks outbox outputs)
    (taken : outbox.next = some (kind, item, outbox')) (sent : Bool) :
    Tracks outbox' (outputs ++ [.left kind item sent]) := by
  obtain ⟨queues, bytes, closed, -, waiters, -⟩ := Outbox.next_spec taken
  have departed : ∀ kind', departures kind' [.left kind item sent] = if kind = kind' then [item] else [] := by
    intro kind'
    by_cases same : kind = kind'
    · simp [departures, same]
    · simp [departures, same]
  refine tracks.move ?_ (fun kind' => ?_) (fun _ => rfl) closed ?_ rfl
  · have priority := queues .priority
    have normal := queues .console
    have resource := queues .resource
    simp only [Outbox.queue] at priority normal resource
    rw [bytes, tracks.bytes, ← priority, ← normal, ← resource, totalBytes_append, totalBytes_append, totalBytes_append]
    cases kind <;> simp only [reduceCtorEq, if_true, if_false, totalBytes_single, totalBytes_nil] <;> omega
  · rw [departed, queues]
  · rw [waiters]
    rfl

/-! ## Draining -/

/-- What an operation that only takes frames out comes to. -/
structure Continues (outbox after : Outbox) (out : List Output) : Prop where
  tracks : ∀ outputs, Tracks outbox outputs → Tracks after (outputs ++ out)
  closed : after.closed = outbox.closed
  priority : after.priority <:+ outbox.priority
  normal : after.normal <:+ outbox.normal
  waiters : after.roomWaiters <:+ outbox.roomWaiters
  bytes : after.bytes ≤ outbox.bytes
  messages : after.messageCount ≤ outbox.messageCount

theorem Continues.refl (outbox : Outbox) : Continues outbox outbox [] where
  tracks outputs tracks := by
    rw [append_nil]
    exact tracks
  closed := rfl
  priority := suffix_refl _
  normal := suffix_refl _
  waiters := suffix_refl _
  bytes := Int.le_refl _
  messages := Nat.le_refl _

theorem Continues.trans {between : Outbox} {out : List Output} (first : Continues outbox between out)
    (second : Continues between after more) : Continues outbox after (out ++ more) where
  tracks outputs tracks := by
    rw [← append_assoc]
    exact second.tracks _ (first.tracks outputs tracks)
  closed := second.closed.trans first.closed
  priority := second.priority.trans first.priority
  normal := second.normal.trans first.normal
  waiters := second.waiters.trans first.waiters
  bytes := Int.le_trans second.bytes first.bytes
  messages := Nat.le_trans second.messages first.messages

/-- Fields that nothing tracks may change. -/
theorem Continues.set (outbox : Outbox) (sending : Bool) (immediates : Nat) :
    Continues outbox { outbox with sending := sending, immediates := immediates } [] where
  tracks outputs tracks := by
    rw [append_nil]
    exact ⟨tracks.bytes, tracks.inOrder, tracks.noneLost, tracks.resources, tracks.latest, tracks.waiters⟩
  closed := rfl
  priority := suffix_refl _
  normal := suffix_refl _
  waiters := suffix_refl _
  bytes := Int.le_refl _
  messages := Nat.le_refl _

theorem next_continues {outbox' : Outbox} {kind : OutboxKind} {item : OutboxItem}
    (taken : outbox.next = some (kind, item, outbox')) (sent : Bool) :
    Continues outbox outbox' [.left kind item sent] := by
  obtain ⟨queues, bytes, closed, -, waiters, -⟩ := Outbox.next_spec taken
  have fewer := Outbox.messageCount_next taken
  refine ⟨fun outputs tracks => tracks.next taken sent, closed, ⟨_, queues .priority⟩, ⟨_, queues .console⟩,
    ⟨[], waiters⟩, ?_, ?_⟩
  · omega
  · omega

theorem wakeRoomWaiter_continues (outbox : Outbox) :
    Continues outbox (outbox.wakeRoomWaiter config).1 (outbox.wakeRoomWaiter config).2 := by
  unfold Outbox.wakeRoomWaiter
  split
  · exact .refl outbox
  rename_i waiter rest waiters
  split
  · exact .refl outbox
  · refine ⟨fun outputs tracks => ?_, rfl, suffix_refl _, suffix_refl _, ⟨[waiter], waiters.symm⟩,
      Int.le_refl _, Nat.le_refl _⟩
    refine tracks.move tracks.bytes (fun _ => rfl) (fun _ => rfl) rfl ?_ rfl
    rw [waiters]
    rfl

/-- Waking a caller sends nothing. -/
theorem wakeRoomWaiter_left (outbox : Outbox) (kind : OutboxKind) (item : OutboxItem) (sent : Bool) :
    .left kind item sent ∉ (outbox.wakeRoomWaiter config).2 := by
  unfold Outbox.wakeRoomWaiter
  split
  · exact not_mem_nil
  · split
    · exact not_mem_nil
    · simp

section Drain

variable {authorize : Nat → Option String → Bool} {call : Nat} {outbox outbox' : Outbox} {kind : OutboxKind} {item : OutboxItem}

theorem drain_stopped (stops : (outbox.sending || outbox.closed) = true) :
    outbox.drain config authorize call = (outbox, []) := by
  rw [Outbox.drain, if_pos stops]

theorem drain_empty (goes : ¬ (outbox.sending || outbox.closed) = true) (none_ : outbox.next = none) :
    outbox.drain config authorize call = outbox.wakeRoomWaiter config := by
  rw [Outbox.drain, if_neg goes]
  split
  · rfl
  · rename_i some_
    rw [none_] at some_
    cases some_

theorem drain_sends (goes : ¬ (outbox.sending || outbox.closed) = true) (taken : outbox.next = some (kind, item, outbox'))
    (authorised : authorize call item.action = true) :
    outbox.drain config authorize call = ({ outbox' with sending := true }, [.left kind item true]) := by
  rw [Outbox.drain, if_neg goes]
  split
  · rename_i none_
    rw [taken] at none_
    cases none_
  · rename_i some_
    rw [taken] at some_
    cases some_
    rw [if_pos authorised]

theorem drain_drops (goes : ¬ (outbox.sending || outbox.closed) = true) (taken : outbox.next = some (kind, item, outbox'))
    (refused : ¬ authorize call item.action = true) :
    outbox.drain config authorize call = ((outbox'.drain config authorize (call + 1)).1,
      .left kind item false :: (outbox'.drain config authorize (call + 1)).2) := by
  rw [Outbox.drain, if_neg goes]
  split
  · rename_i none_
    rw [taken] at none_
    cases none_
  · rename_i some_
    rw [taken] at some_
    cases some_
    rw [if_neg refused]

variable (config authorize)

theorem drain_continues (call : Nat) (outbox : Outbox) :
    Continues outbox (outbox.drain config authorize call).1 (outbox.drain config authorize call).2 := by
  induction call, outbox using Outbox.drain.induct authorize with
  | case1 call outbox stops =>
    rw [drain_stopped stops]
    exact .refl outbox
  | case2 call outbox goes none_ =>
    rw [drain_empty goes none_]
    exact wakeRoomWaiter_continues outbox
  | case3 call outbox goes kind item outbox' taken authorised =>
    rw [drain_sends goes taken authorised]
    have sending := Continues.set outbox' true outbox'.immediates
    exact (next_continues taken true).trans sending
  | case4 call outbox goes kind item outbox' taken refused ih =>
    rw [drain_drops goes taken refused]
    exact (next_continues taken false).trans ih

theorem drain_sent (call : Nat) (outbox : Outbox) {kind : OutboxKind} {item : OutboxItem}
    (sent : .left kind item true ∈ (outbox.drain config authorize call).2) :
    outbox.closed = false ∧ ∃ call, authorize call item.action = true := by
  induction call, outbox using Outbox.drain.induct authorize with
  | case1 call outbox stops =>
    rw [drain_stopped stops] at sent
    cases sent
  | case2 call outbox goes none_ =>
    rw [drain_empty goes none_] at sent
    exact absurd sent (wakeRoomWaiter_left outbox kind item true)
  | case3 call outbox goes kind' item' outbox' taken authorised =>
    rw [drain_sends goes taken authorised, mem_singleton] at sent
    cases sent
    rw [Bool.or_eq_true, not_or] at goes
    exact ⟨Bool.eq_false_iff.mpr goes.2, call, authorised⟩
  | case4 call outbox goes kind' item' outbox' taken refused ih =>
    rw [drain_drops goes taken refused, mem_cons] at sent
    rcases sent with other | later
    · cases (Output.left.inj other).2.2
    · rw [← (Outbox.next_spec taken).2.2.1]
      exact ih later

/-- Nothing is taken out before what comes first. -/
theorem drain_ordered (call : Nat) (outbox : Outbox) {kind : OutboxKind} {item : OutboxItem} {sent : Bool}
    (left : .left kind item sent ∈ (outbox.drain config authorize call).2) (other : kind ≠ .priority) :
    (outbox.drain config authorize call).1.priority = [] ∧
      (kind ≠ .console → (outbox.drain config authorize call).1.normal = []) := by
  induction call, outbox using Outbox.drain.induct authorize with
  | case1 call outbox stops =>
    rw [drain_stopped stops] at left
    cases left
  | case2 call outbox goes none_ =>
    rw [drain_empty goes none_] at left
    exact absurd left (wakeRoomWaiter_left outbox kind item sent)
  | case3 call outbox goes kind' item' outbox' taken authorised =>
    rw [drain_sends goes taken authorised] at left ⊢
    cases mem_singleton.mp left
    exact (Outbox.next_spec taken).2.2.2.2.2 other
  | case4 call outbox goes kind' item' outbox' taken refused ih =>
    rw [drain_drops goes taken refused] at left ⊢
    rcases mem_cons.mp left with same | later
    · cases same
      obtain ⟨priority, normal⟩ := (Outbox.next_spec taken).2.2.2.2.2 other
      have rest := drain_continues config authorize (call + 1) outbox'
      refine ⟨suffix_nil.mp (priority ▸ rest.priority), fun last => ?_⟩
      exact suffix_nil.mp (normal last ▸ rest.normal)
    · exact ih later

end Drain

/-! ## Closing and queueing -/

theorem Tracks.close (tracks : Tracks outbox outputs) : Tracks outbox.close.1 (outputs ++ outbox.close.2) := by
  obtain ⟨frames, waits, resolved⟩ := resolved_spec outbox.roomWaiters false
  have came : ∀ kind, arrivals kind (outputs ++ outbox.close.2) = arrivals kind outputs := by
    intro kind
    rw [arrivals_append, Outbox.close, (frames kind).1, append_nil]
  have went : ∀ kind, departures kind (outputs ++ outbox.close.2) ++ outbox.close.1.queue kind = departures kind outputs := by
    intro kind
    rw [departures_append, Outbox.close, (frames kind).2]
    cases kind <;> simp [Outbox.queue]
  constructor
  · rfl
  · intro kind other
    rw [came, went]
    exact (prefix_append _ _).trans (tracks.inOrder kind other)
  · exact nofun
  · rw [came, went]
    exact (sublist_append_left _ _).trans tracks.resources
  · exact nofun
  · rw [waiting_append, resolutions_append, Outbox.close, waits, resolved, tracks.waiters, append_nil]
    exact (append_nil _).symm

theorem Tracks.overflow (tracks : Tracks outbox outputs) (ready : Bool) :
    Tracks (outbox.overflow ready).1 (outputs ++ (outbox.overflow ready).2) := by
  rw [Outbox.overflow, ← append_assoc]
  exact tracks.close.quiet (quiet_closesSocket ready _ _)

/-- A frame that comes is the last of its kind. -/
theorem Tracks.push (tracks : Tracks outbox outputs) (opened : outbox.closed = false) (kind : OutboxKind)
    (item : OutboxItem) : Tracks (outbox.push kind item) (outputs ++ [.queued kind item]) := by
  have came : ∀ kind', arrivals kind' (outputs ++ [.queued kind item]) =
      arrivals kind' outputs ++ if kind = kind' then [item] else [] := by
    intro kind'
    rw [arrivals_append]
    by_cases same : kind = kind'
    · simp [arrivals, same]
    · simp [arrivals, same]
  have went : ∀ kind', departures kind' (outputs ++ [.queued kind item]) = departures kind' outputs := by
    intro kind'
    rw [departures_append]
    exact append_nil _
  have queue : ∀ kind', kind' ≠ .resource →
      (outbox.push kind item).queue kind' = outbox.queue kind' ++ if kind = kind' then [item] else [] := by
    intro kind' other
    cases kind <;> cases kind' <;> simp_all [Outbox.push, Outbox.queue]
  have resource : (outbox.push kind item).queue .resource = if kind = .resource then [item] else outbox.queue .resource := by
    cases kind <;> rfl
  have closed : (outbox.push kind item).closed = outbox.closed := by cases kind <;> rfl
  have waiters : (outbox.push kind item).roomWaiters = outbox.roomWaiters := by cases kind <;> rfl
  have all : ∀ kind', kind' ≠ .resource → departures kind' (outputs ++ [.queued kind item]) ++
      (outbox.push kind item).queue kind' = arrivals kind' (outputs ++ [.queued kind item]) := by
    intro kind' other
    rw [went, queue kind' other, came, ← append_assoc, tracks.noneLost kind' other opened]
  constructor
  · have bytes := tracks.bytes
    cases kind with
    | resource =>
      simp only [Outbox.push, toList_some, totalBytes_single]
      cases there : outbox.resource with
      | none =>
        simp only [there, toList_none, totalBytes_nil] at bytes
        simp only [map_none, getD_none]
        omega
      | some old =>
        simp only [there, toList_some, totalBytes_single] at bytes
        simp only [map_some, getD_some]
        omega
    | priority =>
      simp only [Outbox.push, totalBytes_append, totalBytes_single]
      omega
    | console =>
      simp only [Outbox.push, totalBytes_append, totalBytes_single]
      omega
  · intro kind' other
    rw [all kind' other]
  · intro kind' other _
    exact all kind' other
  · rw [went, resource, came]
    by_cases same : kind = .resource
    · rw [if_pos same, if_pos same]
      exact ((sublist_append_left _ _).trans tracks.resources).append (Sublist.refl _)
    · rw [if_neg same, if_neg same, append_nil]
      exact tracks.resources
  · intro _
    rw [went, resource, came]
    by_cases same : kind = .resource
    · rw [if_pos same, if_pos same, getLast?_concat, getLast?_concat]
    · rw [if_neg same, if_neg same, append_nil]
      exact tracks.latest opened
  · rw [waiting_append, resolutions_append, waiters, tracks.waiters]
    simp [waiting, resolutions]

/-! ## A step -/

/-- What holds between two steps. -/
structure Sound (config : OutboxConfig) (outbox : Outbox) (outputs : List Output) : Prop where
  tracks : Tracks outbox outputs
  withinBytes : outbox.bytes ≤ config.maxBytes
  withinMessages : outbox.messageCount ≤ config.maxMessages

theorem Sound.continues {out : List Output} (sound : Sound config outbox outputs)
    (continues : Continues outbox after out) : Sound config after (outputs ++ out) where
  tracks := continues.tracks outputs sound.tracks
  withinBytes := Int.le_trans continues.bytes sound.withinBytes
  withinMessages := Nat.le_trans continues.messages sound.withinMessages

theorem Sound.quiet (sound : Sound config outbox outputs) (quiet : Quiet more) :
    Sound config outbox (outputs ++ more) :=
  ⟨sound.tracks.quiet quiet, sound.withinBytes, sound.withinMessages⟩

theorem sound_overflow {outbox : Outbox} {outputs : List Output} (tracks : Tracks outbox outputs) (ready : Bool) :
    Sound config (outbox.overflow ready).1 (outputs ++ (outbox.overflow ready).2) :=
  ⟨tracks.overflow ready, Int.natCast_nonneg _, Nat.zero_le _⟩

theorem sound_send (sound : Sound config outbox outputs) (ready : Bool) (authorize : Nat → Option String → Bool)
    (encoded : Utf16) (kind : OutboxKind) (action : Option String) :
    Sound config (outbox.send config ready authorize encoded kind action).1
      (outputs ++ (outbox.send config ready authorize encoded kind action).2) := by
  unfold Outbox.send
  split
  · exact sound.quiet (quiet_returned false)
  rename_i goes
  rw [Bool.or_eq_true, Bool.or_eq_true, not_or, not_or] at goes
  have opened : outbox.closed = false := Bool.eq_false_iff.mpr goes.1.1
  dsimp only
  split
  · rw [← append_assoc]
    exact (sound_overflow sound.tracks ready).quiet (quiet_returned false)
  have pushed := sound.tracks.push opened kind ⟨action, Utf16.byteLength encoded, encoded⟩
  split
  · have over_ := (@sound_overflow config _ _ pushed ready).quiet (quiet_returned false)
    rw [append_assoc, append_assoc] at over_
    exact over_
  rename_i within
  rw [not_or, Int.not_lt, Nat.not_lt] at within
  have sound' : Sound config _ _ := ⟨pushed, within.1, within.2⟩
  have drained := (sound'.continues (drain_continues config authorize 1 _)).quiet (quiet_returned true)
  rw [append_assoc, append_assoc] at drained
  exact drained

theorem sent_continues (outbox : Outbox) (authorize : Nat → Option String → Bool) :
    Continues outbox (outbox.sent config authorize).1 (outbox.sent config authorize).2 := by
  have sending := Continues.set outbox false outbox.immediates
  have woken := sending.trans (@wakeRoomWaiter_continues config { outbox with sending := false })
  exact woken.trans (drain_continues config authorize 0 _)

/-- One that isn't given room waits behind the others. -/
theorem sound_whenRoomFor (sound : Sound config outbox outputs) (bytes : Nat) :
    Sound config (outbox.whenRoomFor config bytes).1 (outputs ++ (outbox.whenRoomFor config bytes).2) := by
  unfold Outbox.whenRoomFor
  split
  · exact sound.quiet (quiet_room false)
  split
  · exact sound.quiet (quiet_room true)
  obtain ⟨tracks, withinBytes, withinMessages⟩ := sound
  have came : ∀ kind, arrivals kind (outputs ++ [.waits outbox.waited]) = arrivals kind outputs := by
    intro kind
    rw [arrivals_append]
    exact append_nil _
  have went : ∀ kind, departures kind (outputs ++ [.waits outbox.waited]) = departures kind outputs := by
    intro kind
    rw [departures_append]
    exact append_nil _
  refine ⟨⟨tracks.bytes, fun kind other => ?_, fun kind other opened => ?_, ?_, fun opened => ?_, ?_⟩, withinBytes,
    withinMessages⟩
  · rw [came, went]
    exact tracks.inOrder kind other
  · rw [came, went]
    exact tracks.noneLost kind other opened
  · rw [came, went]
    exact tracks.resources
  · rw [came, went]
    exact tracks.latest opened
  · rw [waiting_append, resolutions_append, tracks.waiters, map_append, append_assoc]
    simp [waiting, resolutions]

theorem sound_failed (sound : Sound config outbox outputs) (ready : Bool) :
    Sound config (outbox.failed ready).1 (outputs ++ (outbox.failed ready).2) := by
  have tracks := sound.tracks.quiet (quiet_closesSocket ready 1013 "Browser delivery failed")
  exact ⟨⟨tracks.bytes, tracks.inOrder, fun _ _ => nofun, tracks.resources, nofun, tracks.waiters⟩, sound.withinBytes,
    sound.withinMessages⟩

theorem immediate_continues (outbox : Outbox) :
    Continues outbox ({ outbox with immediates := outbox.immediates - 1 }.wakeRoomWaiter config).1
      ({ outbox with immediates := outbox.immediates - 1 }.wakeRoomWaiter config).2 := by
  have fewer := Continues.set outbox outbox.sending (outbox.immediates - 1)
  exact fewer.trans (wakeRoomWaiter_continues _)

variable {result : Outbox × List Output} {event : OutboxEvent}

theorem sound_step (sound : Sound config outbox outputs) (step : outbox.step config event = some result) :
    Sound config result.1 (outputs ++ result.2) := by
  cases event with
  | send ready authorize encoded kind action =>
    cases step
    exact sound_send sound ready authorize encoded kind action
  | whenRoomFor bytes =>
    cases step
    exact sound_whenRoomFor sound bytes
  | close =>
    cases step
    exact ⟨sound.tracks.close, Int.natCast_nonneg _, Nat.zero_le _⟩
  | sent authorize =>
    obtain ⟨-, same⟩ := ite_none_right_eq_some.mp step
    cases same
    exact sound.continues (sent_continues outbox authorize)
  | failed ready =>
    obtain ⟨-, same⟩ := ite_none_right_eq_some.mp step
    cases same
    exact sound_failed sound ready
  | immediate =>
    obtain ⟨-, same⟩ := ite_none_right_eq_some.mp step
    cases same
    exact sound.continues (immediate_continues outbox)

/-- What a step sends is authorised, and in order, and an outbox that's closed sends nothing. -/
theorem sentProperly_step (step : outbox.step config event = some result) :
    SentProperly outbox result.1 event result.2 := by
  -- Most steps take out nothing.
  have nothing : ∀ {after : Outbox} {event : OutboxEvent} {out : List Output},
      (∀ kind item sent, .left kind item sent ∉ out) → SentProperly outbox after event out := by
    intro after event out none_
    exact ⟨fun _ kind item => none_ kind item true, fun kind item sent => absurd sent (none_ kind item true),
      fun item sent left => absurd left (none_ _ item sent), fun item sent left => absurd left (none_ _ item sent)⟩
  have closing : ∀ outbox : Outbox, ∀ ready kind item sent, Output.left kind item sent ∉ (outbox.overflow ready).2 := by
    intro outbox ready kind item sent
    cases ready <;> simp [Outbox.overflow, Outbox.close]
  cases event with
  | send ready authorize encoded kind action =>
    cases step
    unfold Outbox.send
    split
    · exact nothing (by simp)
    rename_i goes
    rw [Bool.or_eq_true, Bool.or_eq_true, not_or, not_or] at goes
    have opened : outbox.closed = false := Bool.eq_false_iff.mpr goes.1.1
    dsimp only
    split
    · exact nothing (by simp [closing])
    split
    · exact nothing (by simp [closing])
    have among : ∀ {kind' kind'' item item' sent accepted} {drained : List Output},
        .left kind' item sent ∈ .queued kind'' item' :: drained ++ [.returned accepted] → .left kind' item sent ∈ drained := by
      intro kind' kind'' item item' sent accepted drained member
      simpa using member
    refine ⟨fun closed => ?_, fun kind' item sent => ?_, fun item sent left => ?_, fun item sent left => ?_⟩
    · rw [opened] at closed
      cases closed
    · obtain ⟨-, call, authorised⟩ := drain_sent config authorize 1 _ (among sent)
      exact ⟨authorize, call, authorised, .inr ⟨ready, encoded, kind, action, rfl⟩⟩
    · exact (drain_ordered config authorize 1 _ (among left) nofun).1
    · have order := drain_ordered config authorize 1 _ (among left) nofun
      exact ⟨order.1, order.2 nofun⟩
  | whenRoomFor bytes =>
    cases step
    unfold Outbox.whenRoomFor
    split
    · exact nothing (by simp)
    · split
      · exact nothing (by simp)
      · exact nothing (by simp)
  | close =>
    cases step
    exact nothing (by simp [Outbox.close])
  | sent authorize =>
    obtain ⟨-, same⟩ := ite_none_right_eq_some.mp step
    cases same
    have among : ∀ {kind item sent}, .left kind item sent ∈ (outbox.sent config authorize).2 → .left kind item sent ∈
        (({ outbox with sending := false }.wakeRoomWaiter config).1.drain config authorize 0).2 := by
      intro kind item sent member
      rcases mem_append.mp member with woken | drained
      · exact absurd woken (wakeRoomWaiter_left _ kind item sent)
      · exact drained
    have woken := @wakeRoomWaiter_continues config { outbox with sending := false }
    refine ⟨fun closed kind item sent => ?_, fun kind item sent => ?_, fun item sent left => ?_, fun item sent left => ?_⟩
    · obtain ⟨opened, -⟩ := drain_sent config authorize 0 _ (among sent)
      rw [woken.closed, closed] at opened
      cases opened
    · obtain ⟨-, call, authorised⟩ := drain_sent config authorize 0 _ (among sent)
      exact ⟨authorize, call, authorised, .inl rfl⟩
    · exact (drain_ordered config authorize 0 _ (among left) nofun).1
    · have order := drain_ordered config authorize 0 _ (among left) nofun
      exact ⟨order.1, order.2 nofun⟩
  | failed ready =>
    obtain ⟨-, same⟩ := ite_none_right_eq_some.mp step
    cases same
    exact nothing (by cases ready <;> simp [Outbox.failed])
  | immediate =>
    obtain ⟨-, same⟩ := ite_none_right_eq_some.mp step
    cases same
    exact nothing (wakeRoomWaiter_left _)

/-! ## Runs -/

/-- No caller waits for room as a frame can't be sent. -/
def NoneWaits (story : OutboxStory) (event : OutboxEvent) : Prop :=
  ∀ ready, event = .failed ready → story.outbox.roomWaiters = []

theorem noneWaits_step (step : outbox.step config event = some result)
    (answered : outbox.closed = true → outbox.roomWaiters = [])
    (none_ : ∀ ready, event = .failed ready → outbox.roomWaiters = []) (closed : result.1.closed = true) :
    result.1.roomWaiters = [] := by
  have continuing : ∀ {after : Outbox} {out : List Output}, Continues outbox after out → after.closed = true →
      after.roomWaiters = [] := by
    intro after out continues closed
    have before := answered (continues.closed ▸ closed)
    exact suffix_nil.mp (before ▸ continues.waiters)
  cases event with
  | send ready authorize encoded kind action =>
    cases step
    unfold Outbox.send at closed ⊢
    split at closed
    · rename_i stops
      rw [if_pos stops]
      exact answered closed
    rename_i goes
    rw [if_neg goes]
    rw [Bool.or_eq_true, Bool.or_eq_true, not_or, not_or] at goes
    dsimp only at closed ⊢
    split at closed
    · rename_i large
      rw [if_pos large]
      rfl
    rename_i small
    rw [if_neg small]
    split at closed
    · rename_i past
      rw [if_pos past]
      rfl
    -- An outbox that's open is still open when it's been drained.
    have drained := (drain_continues config authorize 1
      (outbox.push kind ⟨action, Utf16.byteLength encoded, encoded⟩)).closed
    have pushed : (outbox.push kind ⟨action, Utf16.byteLength encoded, encoded⟩).closed = outbox.closed := by
      cases kind <;> rfl
    exact absurd ((drained.trans pushed).symm.trans closed) goes.1.1
  | whenRoomFor bytes =>
    cases step
    unfold Outbox.whenRoomFor at closed ⊢
    by_cases before : outbox.closed = true
    · rw [if_pos before]
      exact answered before
    · rw [if_neg before] at closed
      split at closed
      · exact absurd closed before
      · exact absurd closed before
  | close =>
    cases step
    rfl
  | sent authorize =>
    obtain ⟨-, same⟩ := ite_none_right_eq_some.mp step
    cases same
    exact continuing (sent_continues outbox authorize) closed
  | failed ready =>
    obtain ⟨-, same⟩ := ite_none_right_eq_some.mp step
    cases same
    exact none_ ready rfl
  | immediate =>
    obtain ⟨-, same⟩ := ite_none_right_eq_some.mp step
    cases same
    exact continuing (immediate_continues outbox) closed

theorem sound_reachable {story : OutboxStory} (reachable : (outboxRuns config).Reachable story) :
    Sound config story.outbox story.outputs := by
  refine System.Reachable.invariant (I := fun story => Sound config story.outbox story.outputs) ?_
    (fun story event after sound step => ?_) reachable
  · rintro story rfl
    refine ⟨⟨rfl, fun kind _ => ?_, fun kind _ _ => ?_, Sublist.refl _, fun _ => rfl, rfl⟩, Int.natCast_nonneg _,
      Nat.zero_le _⟩
    · cases kind <;> exact prefix_refl _
    · cases kind <;> rfl
  · obtain ⟨result, stepped, rfl⟩ := map_eq_some_iff.mp step
    exact sound_step sound stepped

/-- The counter, the limits, the order and the authority hold in every run. Every caller that waited has been answered once
it's closed, in the runs where none waits as a frame can't be sent; where one does, it's left waiting. -/
theorem browserOutbox_kept (config : OutboxConfig) :
    (∀ story, (outboxRuns config).Reachable story → Accounted config story ∧ ∀ event result,
      story.outbox.step config event = some result → SentProperly story.outbox result.1 event result.2) ∧
    (∀ story, ((outboxRuns config).restrict NoneWaits).Reachable story → story.outbox.closed = true → AllResolved story) ∧
    ∀ story event after, (outboxRuns config).Reachable story → (outboxRuns config).step story event after →
      ¬ NoneWaits story event → after.outbox.closed = true ∧ ¬ AllResolved after := by
  refine ⟨fun story reachable => ?_, fun story reachable closed => ?_, fun story event after reachable step waits => ?_⟩
  · obtain ⟨tracks, withinBytes, withinMessages⟩ := sound_reachable reachable
    exact ⟨⟨tracks.bytes, withinBytes, withinMessages, tracks.inOrder, tracks.noneLost, tracks.resources, tracks.latest⟩,
      fun event result step => sentProperly_step step⟩
  · have answered : story.outbox.closed = true → story.outbox.roomWaiters = [] := by
      refine System.Reachable.invariant (I := fun story => story.outbox.closed = true → story.outbox.roomWaiters = []) ?_
        (fun story event after answered step => ?_) reachable
      · rintro story rfl closed
        cases closed
      · obtain ⟨none_, next⟩ := step
        obtain ⟨result, stepped, rfl⟩ := Option.map_eq_some_iff.mp next
        exact noneWaits_step stepped answered none_
    have waiters := (sound_reachable (System.restrict_reachable reachable)).tracks.waiters
    rw [answered closed, map_nil, append_nil] at waiters
    exact waiters.symm
  · have waiters := (sound_reachable (reachable.step step)).tracks.waiters
    obtain ⟨result, stepped, rfl⟩ := Option.map_eq_some_iff.mp step
    simp only [NoneWaits, not_forall] at waits
    obtain ⟨ready, rfl, some_⟩ := waits
    obtain ⟨-, same⟩ := Option.ite_none_right_eq_some.mp stepped
    cases same
    refine ⟨rfl, fun all => some_ ?_⟩
    rw [← all] at waiters
    exact map_eq_nil_iff.mp (self_eq_append_right.mp waiters)

/-! ## A caller that's left waiting -/

def smallOutbox : OutboxConfig := ⟨4, 4⟩

def always : Nat → Option String → Bool := fun _ _ => true

/-- A frame is being sent and another is queued as a caller waits for room. Then the first can't be sent. -/
def leftWaiting : List OutboxEvent :=
  [.send true always (.ofString "a") .console none, .send true always (.ofString "b") .console none, .whenRoomFor 3,
    .failed true]

def letterFrame (letter : String) : OutboxItem := ⟨none, Utf16.byteLength (.ofString letter), .ofString letter⟩

theorem leftWaiting_unresolved : ∃ story, (outboxRuns smallOutbox).Run {} leftWaiting story ∧
    story.outbox.closed = true ∧ waiting story.outputs = [0] ∧ ¬ AllResolved story := by
  have first : ({} : Outbox).send smallOutbox true always (.ofString "a") .console none = ({ sending := true },
      [.queued .console (letterFrame "a"), .left .console (letterFrame "a") true, .returned true]) := by
    have drained : (({} : Outbox).push .console (letterFrame "a")).drain smallOutbox always 1 =
        ({ sending := true }, [.left .console (letterFrame "a") true]) :=
      @drain_sends smallOutbox always 1 (({} : Outbox).push .console (letterFrame "a")) {} .console (letterFrame "a")
        (by decide) rfl rfl
    unfold Outbox.send
    rw [if_neg (by decide)]
    dsimp only
    rw [if_neg (by decide), if_neg (by decide), ← letterFrame, drained]
    rfl
  have second : ({ sending := true } : Outbox).send smallOutbox true always (.ofString "b") .console none =
      ({ sending := true, normal := [letterFrame "b"], bytes := 1 }, [.queued .console (letterFrame "b"), .returned true]) := by
    have drained : (({ sending := true } : Outbox).push .console (letterFrame "b")).drain smallOutbox always 1 =
        (({ sending := true } : Outbox).push .console (letterFrame "b"), []) := drain_stopped rfl
    unfold Outbox.send
    rw [if_neg (by decide)]
    dsimp only
    rw [if_neg (by decide), if_neg (by decide), ← letterFrame, drained]
    rfl
  have ran : runAll (OutboxStory.next smallOutbox) {} leftWaiting = some ⟨{
      normal := [letterFrame "b"], bytes := 1, closed := true, roomWaiters := [⟨0, 3⟩], waited := 1 },
      [.queued .console (letterFrame "a"), .left .console (letterFrame "a") true, .returned true,
        .queued .console (letterFrame "b"), .returned true, .waits 0, .closesSocket 1013 "Browser delivery failed"]⟩ := by
    simp only [leftWaiting, runAll, OutboxStory.next, Outbox.step, first, Option.map_some, Option.bind_some, second]
    rfl
  exact ⟨_, System.run_of_runAll ran, rfl, rfl, by unfold AllResolved; decide⟩

end BrowserOutbox

end Kiln.Relay
