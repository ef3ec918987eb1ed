import Kiln.Relay.DatabaseConnections

/-!
# Choices of connections stand

A pair someone connected or disconnected stays as they left it until its database or its member is
deleted: through other transactions, and through imports. A recovery overrules a disconnection, not
looking at the choices, and a disconnection that names another Relay than the saved connection is
noted without being made; otherwise choices stand.
-/

namespace Kiln.Relay
open Kiln.Lib OrderedMap ConnectionEvent ConnectionTables Option
open ConnectionTables (importOne)

variable {tables after : ConnectionTables} {pair : DatabasePair}
  {chosen : Option (Option String)} {event : ConnectionEvent}

/-! ## Imports -/

variable {connections : List StoredDatabaseConnection} {saved : OrderedMap DatabasePair String} {imported : Nat}

theorem importFold_leaves {choices : OrderedMap DatabasePair Unit}
    {saved' : OrderedMap DatabasePair String} {imported' : Nat}
    (run : connections.foldlM (importOne choices) (saved, imported) = some (saved', imported')) :
    (∀ pair, choices.has pair = true → saved'.get pair = saved.get pair) ∧
      (∀ pair relayId, saved.get pair = some relayId → saved'.get pair = some relayId) ∧
      ∀ connection ∈ connections, choices.has connection.pair = true ∨
        connection.pair.valid = true ∧ saved'.has connection.pair = true := by
  induction connections generalizing saved imported with
  | nil =>
    cases run
    exact ⟨fun _ _ => rfl, fun _ _ held => held, by simp⟩
  | cons connection rest ih =>
    rw [List.foldlM_cons, bind_eq_bind, bind_eq_some_iff] at run
    obtain ⟨⟨between, count⟩, one, run⟩ := run
    obtain ⟨keeps, stays, covers⟩ := ih run
    rw [importOne] at one
    split at one
    · rename_i skipped
      cases one
      exact ⟨keeps, stays, List.forall_mem_cons.mpr ⟨Or.inl skipped, covers⟩⟩
    rename_i unchosen
    split at one
    · cases one
    rename_i valid
    have valid : connection.pair.valid = true := by simpa using valid
    split at one
    · rename_i present
      cases one
      refine ⟨keeps, stays, List.forall_mem_cons.mpr ⟨Or.inr ⟨valid, ?_⟩, covers⟩⟩
      obtain ⟨relayId, held⟩ := isSome_iff_exists.mp present
      rw [has, stays _ _ held]
      rfl
    rename_i absent
    cases one
    refine ⟨fun pair noted => ?_, fun pair relayId held => ?_, List.forall_mem_cons.mpr ⟨Or.inr ⟨valid, ?_⟩, covers⟩⟩
    · have other : connection.pair ≠ pair := by
        rintro rfl
        exact unchosen noted
      rw [keeps pair noted, get_set, if_neg other]
    · have other : connection.pair ≠ pair := by
        rintro rfl
        exact absent (by rw [has, held]; rfl)
      exact stays pair relayId (by rw [get_set, if_neg other, held])
    · rw [has, stays connection.pair connection.relayId (by simp)]
      rfl

/-- An import of what was chosen or is saved changes nothing. -/
theorem importFold_repeats {choices : OrderedMap DatabasePair Unit}
    (covers : ∀ connection ∈ connections, choices.has connection.pair = true ∨
      connection.pair.valid = true ∧ saved.has connection.pair = true) :
    connections.foldlM (importOne choices) (saved, imported) = some (saved, imported) := by
  induction connections with
  | nil => rfl
  | cons connection rest ih =>
    rw [List.forall_mem_cons] at covers
    have one : importOne choices (saved, imported) connection = some (saved, imported) := by
      rw [importOne]
      split
      · rfl
      · rename_i unchosen
        obtain ⟨valid, present⟩ := covers.1.resolve_left unchosen
        simp [valid, present]
    rw [List.foldlM_cons, one]
    exact ih covers.2

theorem importConnections_leaves (run : tables.importConnections connections = some (after, imported)) :
    after.choices = tables.choices ∧ after.recovered = tables.recovered ∧ (∀ pair, tables.choices.has pair = true →
        after.connections.get pair = tables.connections.get pair) ∧
      after.importConnections connections = some (after, 0) := by
  obtain ⟨⟨saved, count⟩, fold, same⟩ := map_eq_some_iff.mp run
  cases same
  obtain ⟨keeps, -, covers⟩ := importFold_leaves fold
  refine ⟨rfl, rfl, keeps, ?_⟩
  rw [ConnectionTables.importConnections]
  dsimp only
  rw [importFold_repeats covers, map_some]

/-! ## Recoveries -/

theorem get_recovered (connections : List StoredDatabaseConnection)
    (saved : OrderedMap DatabasePair String) (pair : DatabasePair) :
    (connections.foldl (fun saved connection => saved.insertNew connection.pair connection.relayId) saved).get pair =
      (saved.get pair).or ((connections.find? (·.pair = pair)).map (·.relayId)) := by
  induction connections generalizing saved with
  | nil => simp
  | cons connection rest ih =>
    rw [List.foldl_cons, ih, get_insertNew, List.find?_cons]
    by_cases here : connection.pair = pair
    · subst here
      cases saved.get connection.pair <;> simp
    · simp [here]

theorem recovered_isSome {connection : StoredDatabaseConnection} (listed : connection ∈ connections) :
    (connections.foldl (fun saved connection => saved.insertNew connection.pair connection.relayId)
      saved).get connection.pair ≠ none := by
  rw [get_recovered]
  have found : (connections.find? (·.pair = connection.pair)).isSome = true := by
    rw [List.find?_isSome]
    exact ⟨connection, listed, by simp⟩
  obtain ⟨first, found⟩ := isSome_iff_exists.mp found
  rw [found]
  cases saved.get connection.pair <;> simp

/-! ## One transaction -/

theorem stands_congr (choices : after.choices.get pair = tables.choices.get pair)
    (connections : tables.choices.get pair = some () → after.connections.get pair = tables.connections.get pair)
    (stands : tables.Stands pair chosen) : after.Stands pair chosen := by
  cases chosen with
  | none => exact choices.trans stands
  | some chosen => exact ⟨choices.trans stands.1, (connections stands.1).trans stands.2⟩

/-- A transaction that minds choices leaves the last of them standing. -/
theorem stands_next (stands : tables.Stands pair chosen) (minds : tables.Minds event)
    (step : tables.next event = some after) : after.Stands pair (event.chooses pair chosen) := by
  cases event with
  | set connection connected =>
    by_cases about : connection.pair = pair
    · subst about
      cases connected with
      | true =>
        simp only [next, setConnection, if_true] at step
        rw [ite_none_right_eq_some] at step
        obtain ⟨-, step⟩ := step
        cases step
        simp [chooses, Stands]
      | false =>
        cases step
        simp only [chooses, if_true, Bool.false_eq_true, if_false, Stands, get_insertNew]
        refine ⟨trivial, get_filter_of_drops fun relayId held => ?_⟩
        simp [minds rfl relayId held]
    · have unchanged : after.choices.get pair = tables.choices.get pair ∧
          after.connections.get pair = tables.connections.get pair := by
        cases connected with
        | true =>
          simp only [next, setConnection, if_true] at step
          rw [ite_none_right_eq_some] at step
          obtain ⟨-, step⟩ := step
          cases step
          simp [about]
        | false =>
          cases step
          refine ⟨by simp [about], get_filter_of_keeps fun relayId _ => ?_⟩
          simp [Ne.symm about]
      rw [chooses, if_neg about]
      exact stands_congr unchanged.1 (fun _ => unchanged.2) stands
  | importConnections connections =>
    obtain ⟨⟨after', imported⟩, run, same⟩ := map_eq_some_iff.mp step
    obtain rfl : after' = after := same
    obtain ⟨choices, -, keeps, -⟩ := importConnections_leaves run
    refine stands_congr (by rw [choices]) (fun noted => keeps pair ?_) stands
    rw [has, noted]
    rfl
  | recover connections =>
    rw [next, ConnectionTables.recover] at step
    split at step
    · cases step
      exact stands
    rename_i first
    rw [ite_none_right_eq_some] at step
    obtain ⟨-, step⟩ := step
    cases step
    rw [chooses]
    refine stands_congr ?_ (fun noted => ?_) stands
    · rfl
    rw [get_recovered]
    cases held : tables.connections.get pair with
    | some relayId => rfl
    | none =>
      rw [none_or, map_eq_none_iff, List.find?_eq_none]
      intro connection listed
      rw [decide_eq_true_eq]
      rintro rfl
      exact minds (by simpa using first) connection listed noted held
  | deleteMember member =>
    cases step
    rw [chooses]
    split
    · rename_i gone
      exact get_filter_of_drops fun _ _ => by simp [gone]
    · rename_i kept
      exact stands_congr (get_filter_of_keeps fun _ _ => by simp [kept])
        (fun _ => get_filter_of_keeps fun _ _ => by simp [kept]) stands
  | deleteDatabase relayId databaseId =>
    cases step
    rw [chooses]
    split
    · rename_i gone
      exact get_filter_of_drops fun _ _ => by simp [gone]
    rename_i kept
    refine stands_congr (get_filter_of_keeps fun _ _ => by simp [kept])
      (fun _ => get_filter_of_keeps fun _ _ => ?_) stands
    simp only [DatabasePair.involves, Bool.or_eq_true, decide_eq_true_eq, not_or, Bool.not_eq_true] at kept
    simp [kept.1, kept.2]

theorem overrules_next {events : List ConnectionEvent} (stands : ∀ pair, tables.Stands pair (lastChoice pair events))
    (unmindful : ¬ tables.Minds event) (step : tables.next event = some after) :
    ∃ pair, ¬ after.Stands pair (event.chooses pair (lastChoice pair events)) := by
  cases event with
  | set connection connected =>
    simp only [Minds, not_forall] at unmindful
    obtain ⟨rfl, relayId, held, other⟩ := unmindful
    cases step
    refine ⟨connection.pair, fun overruled => ?_⟩
    rw [chooses, if_pos rfl] at overruled
    have kept : (tables.connections.filter fun key saved =>
        !(key = connection.pair && saved = connection.relayId)).get connection.pair = some relayId := by
      rw [get_filter_of_keeps, held]
      intro saved again
      cases held.symm.trans again
      simp [other]
    exact absurd (kept.symm.trans overruled.2) (by simp)
  | recover connections =>
    simp only [Minds, not_forall, not_not] at unmindful
    obtain ⟨first, connection, listed, noted, disconnected⟩ := unmindful
    refine ⟨connection.pair, fun overruled => ?_⟩
    rw [chooses] at overruled
    have before := stands connection.pair
    rw [next, ConnectionTables.recover, if_neg (by simp [first]), ite_none_right_eq_some] at step
    obtain ⟨-, step⟩ := step
    cases step
    cases chosen : lastChoice connection.pair events with
    | none =>
      rw [chosen] at before
      exact absurd (noted.symm.trans before) (by simp)
    | some chosen' =>
      rw [chosen] at before overruled
      have same := before.2.symm.trans disconnected
      exact recovered_isSome listed (overruled.2.trans same)
  | importConnections connections => exact absurd trivial unmindful
  | deleteMember member => exact absurd trivial unmindful
  | deleteDatabase relayId databaseId => exact absurd trivial unmindful

/-! ## Any number of transactions -/

/-- In every run whose transactions mind choices, the last choice for each pair stands, imports
    and recoveries leave the connection of a chosen pair as it is, and an import that is made again
    changes nothing. Another transaction leaves all choices standing just where it minds them. -/
theorem choices_stand {start : ConnectionTables} {events : List ConnectionEvent}
    (unchosen : start.choices = .empty)
    (run : (connectionSystem.restrict Minds).Run start events tables) :
    (∀ pair, tables.Stands pair (lastChoice pair events)) ∧
      (∀ connections after imported,
        tables.importConnections connections = some (after, imported) →
          (∀ pair, (lastChoice pair events).isSome = true →
            after.connections.get pair = tables.connections.get pair) ∧
          after.importConnections connections = some (after, 0)) ∧
      ∀ event after, tables.next event = some after →
        ((∀ pair, after.Stands pair (lastChoice pair (events ++ [event]))) ↔
          tables.Minds event) := by
  have stands : ∀ pair, tables.Stands pair (lastChoice pair events) := by
    intro pair
    induction run with
    | nil =>
      rw [lastChoice, List.foldl_nil, Stands, unchosen]
      rfl
    | snoc _ step ih =>
      rw [lastChoice_snoc]
      exact stands_next ih step.1 step.2
  refine ⟨stands, ?_, ?_⟩
  · intro connections after imported imports
    obtain ⟨-, -, keeps, again⟩ := importConnections_leaves imports
    refine ⟨fun pair chosen => keeps pair ?_, again⟩
    have standing := stands pair
    obtain ⟨choice, chosen⟩ := Option.isSome_iff_exists.mp chosen
    rw [chosen] at standing
    rw [has, standing.1]
    rfl
  · intro event after step
    simp only [lastChoice_snoc]
    constructor
    · intro standing
      by_contra unmindful
      obtain ⟨pair, overruled⟩ := overrules_next stands unmindful step
      exact overruled (standing pair)
    · exact fun minds pair => stands_next (stands pair) minds step

instance (tables : ConnectionTables) (event : ConnectionEvent) : Decidable (tables.Minds event) :=
  match event with
  | .set connection connected =>
      inferInstanceAs (Decidable (connected = false →
        ∀ relayId ∈ tables.connections.get connection.pair, relayId = connection.relayId))
  | .recover connections =>
      inferInstanceAs (Decidable (tables.recovered = false → ∀ connection ∈ connections,
        tables.choices.get connection.pair = some () → tables.connections.get connection.pair ≠ none))
  | .importConnections _ | .deleteMember _ | .deleteDatabase .. => isTrue trivial

/-- A game server and a database on the Relay. -/
def serverDatabase : DatabasePair := ⟨⟨.instance', "server"⟩, "database"⟩

/-- Someone connects them, and disconnects them again before an import lists them. -/
def disconnectedEvents : List ConnectionEvent :=
  [.recover [], .set ⟨serverDatabase, "relay"⟩ true, .set ⟨serverDatabase, "relay"⟩ false,
    .importConnections [⟨serverDatabase, "relay"⟩]]

def disconnectedTables : ConnectionTables :=
  { choices := empty.set serverDatabase (), recovered := true }

/-- An import leaves them disconnected. -/
theorem choices_stand_disconnected :
    disconnectedTables.Stands serverDatabase (some none) := by
  have run : (connectionSystem.restrict Minds).Run {} disconnectedEvents
      disconnectedTables := System.run_of_guardedRunAll (by decide)
  have chosen : lastChoice serverDatabase disconnectedEvents = some none := by decide
  have stands := (choices_stand rfl run).1 serverDatabase
  rwa [chosen] at stands

/-- Someone disconnects them before the Relay first recovers what its containers had. -/
def overruledEvents : List ConnectionEvent :=
  [.set ⟨serverDatabase, "relay"⟩ false, .recover [⟨serverDatabase, "relay"⟩]]

def overruledTables : ConnectionTables :=
  { connections := empty.set serverDatabase "relay"
    choices := empty.set serverDatabase ()
    recovered := true }

/-- The recovery connects them again. -/
theorem recovery_overrules :
    connectionSystem.Run {} overruledEvents overruledTables ∧
      lastChoice serverDatabase overruledEvents = some none ∧
      ¬ overruledTables.Stands serverDatabase (lastChoice serverDatabase overruledEvents) := by
  have chosen : lastChoice serverDatabase overruledEvents = some none := by decide
  refine ⟨System.run_of_runAll (by decide), chosen, ?_⟩
  rw [chosen]
  exact fun stands => absurd stands.2 (by decide)

end Kiln.Relay
