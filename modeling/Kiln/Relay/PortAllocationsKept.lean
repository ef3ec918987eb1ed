import Kiln.Relay.PortAllocations

/-!
# Ports are read back as they were written

What is read of a container's labels and bindings is the ports they were written for, the primary first. Without the
bindings the primary is missing, as its label has no public port. Labels are the same only for the same ports.
-/

namespace Kiln.Relay
open Kiln.Lib Kiln.Lib.JsonText Kiln.Contracts Utf16 OrderedMap List

/-- What the platform promises: numbers and routes are read as they are written, and texts have an order. -/
structure TextReading.Lawful (reading : TextReading) : Prop where
  number : ∀ n ≤ 65535, reading.number (.decimal n) = some n
  decodes : ∀ route : RelayInstanceCustomRouteLabel, route.internal ≤ 65535 → route.public_ ≤ 65535 →
    reading.decodeJsonOption (stringify (routeJson route)) = some (routeJson route)
  trans : ∀ a b c, reading.localeCompare a b ≤ 0 → reading.localeCompare b c ≤ 0 → reading.localeCompare a c ≤ 0
  total : ∀ a b, reading.localeCompare a b ≤ 0 ∨ reading.localeCompare b a ≤ 0

/-- One port is the primary, and the others' kinds follow from their ids. -/
structure Kinded (allocations : List RelayInstancePortAllocation) : Prop where
  primary : ∃ primary, (allocations.filter fun allocation => allocation.kind = .primary) = [primary] ∧
    primary.id = primaryId ∧ primary.name = .ofString "Default Server"
  others : ∀ allocation ∈ allocations, allocation.kind ≠ .primary → allocation.kind = routeKind allocation.id

/-- Labels of which a port's are just these. -/
def Beside (own : OrderedMap Utf16 Utf16) (labels : OrderedMap Utf16 (Option Utf16)) : Prop :=
  (labels.entries.filter fun entry => isManagedPortLabel entry.1).Perm (own.entries.map fun entry => (entry.1, some entry.2))

/-- Bindings with those that are made for the ports. -/
def Published (allocations : List RelayInstancePortAllocation) (bindings : Option PortBindings) : Prop :=
  ∀ key value, (dockerPortBindingsForAllocations allocations).get key = some value → bindingAt bindings key = some value

/-- Bindings without any that are made for the ports. -/
def Unpublished (allocations : List RelayInstancePortAllocation) (bindings : Option PortBindings) : Prop :=
  ∀ key value, (dockerPortBindingsForAllocations allocations).get key = some value → bindingAt bindings key = none

/-- The primary comes first, and the rest by id. -/
def InOrder (reading : TextReading) (allocations : List RelayInstancePortAllocation) : Prop :=
  allocations.Pairwise fun left right =>
    left.kind = .primary ∨ right.kind ≠ .primary ∧ reading.localeCompare left.id right.id ≤ 0

/-- Lists of the same ports but for the primary's public one. -/
def Agree (allocations others : List RelayInstancePortAllocation) : Prop :=
  ∃ primary externalPort rest, primary.kind = .primary ∧ allocations.Perm (primary :: rest) ∧
    others.Perm ({ primary with externalPort } :: rest)

/-! ## What is written -/

/-- A parsed list with its primary apart. -/
structure Parted (allocations : List RelayInstancePortAllocation) (primary : RelayInstancePortAllocation)
    (others : List RelayInstancePortAllocation) : Prop where
  perm : allocations.Perm (primary :: others)
  first : primary.kind = .primary ∧ primary.id = primaryId ∧ primary.name = .ofString "Default Server"
  kinds : ∀ other ∈ others, other.kind ≠ .primary ∧ other.kind = routeKind other.id ∧ other.id ≠ primaryId
  valid : ∀ port ∈ primary :: others, ValidPort port
  ids : (others.map (·.id)).Nodup
  found : allocations.find? (fun allocation => allocation.kind = .primary) = some primary
  rest : (allocations.filter fun allocation => allocation.kind ≠ .primary) = others
  bindings : ((allocations.map (·.toRelayInstancePortMetadata)).flatMap fun port =>
    (portProtocols port.protocol).map fun protocol => (protocol, port.internalPort)).Nodup

theorem parted_of_parse {input : JsonTree} {allocations : List RelayInstancePortAllocation}
    (parsed : relayInstancePortAllocationsSchema input = some allocations) (kinded : Kinded allocations) :
    ∃ primary others, Parted allocations primary others := by
  obtain ⟨valid, ids, bindings⟩ := valid_of_parse parsed
  obtain ⟨primary, only, id, name⟩ := kinded.primary
  have member : primary ∈ allocations ∧ primary.kind = .primary := by
    have listed : primary ∈ allocations.filter fun allocation => allocation.kind = .primary := by
      rw [only]
      exact mem_cons_self
    simpa using listed
  have perm : allocations.Perm (primary :: allocations.filter fun allocation => allocation.kind ≠ .primary) := by
    have parts := filter_append_perm (fun allocation => allocation.kind = .primary) allocations
    rw [only] at parts
    refine parts.symm.trans ?_
    simp
  have distinct := (perm.map (·.toRelayInstancePortMetadata)).map (·.id) |>.nodup_iff.mp ids
  simp only [map_cons, nodup_cons, map_map] at distinct
  refine ⟨primary, _, perm, ⟨member.2, id, name⟩, ?_, ?_, distinct.2, ?_, rfl, bindings⟩
  · intro other listed
    obtain ⟨listed', other_⟩ := mem_filter.mp listed
    have kind : other.kind ≠ .primary := by simpa using other_
    refine ⟨kind, kinded.others other listed' kind, fun same => distinct.1 ?_⟩
    exact mem_map.mpr ⟨other, listed, by rw [id]; exact same⟩
  · exact fun port listed => valid port (perm.symm.subset listed)
  · rw [← head?_filter, only]
    rfl

theorem start_of_route (id : Utf16) : instanceCustomRouteLabelStart.isPrefixOf (instanceCustomRouteLabelStart ++ id) = true :=
  List.isPrefixOf_iff_prefix.mpr (prefix_append _ _)

theorem primaryPortLabel_plain : instanceCustomRouteLabelStart.isPrefixOf primaryPortLabel = false := rfl

/-! ## Reading a port -/

theorem protocolPart_apart (protocol : RelayInstancePortProtocol) :
    protocolPart protocol ≠ [] ∧ ∀ unit ∈ (protocolPart protocol).head?, isDigit unit = false := by
  have starts : protocolPart protocol = 0x2F :: ofString protocol.name := rfl
  rw [starts]
  refine ⟨nofun, fun unit first => ?_⟩
  cases first
  rfl

theorem protocolPart_injective {a b : RelayInstancePortProtocol} (same : protocolPart a = protocolPart b) : a = b := by
  have told : ∀ a b : RelayInstancePortProtocol, a ≠ b → protocolPart a ≠ protocolPart b := by
    intro a b
    cases a <;> cases b <;> decide
  exact Decidable.byContradiction fun other => told a b other same

theorem bindingKey_inj {port port' : Nat} {protocol protocol' : RelayInstancePortProtocol}
    (same : bindingKey port protocol = bindingKey port' protocol') : protocol = protocol' ∧ port = port' := by
  obtain ⟨ports, parts⟩ := decimal_append_inj (protocolPart_apart protocol).2 (protocolPart_apart protocol').2 same
  exact ⟨protocolPart_injective parts, ports⟩

theorem length_port {port : Nat} (range : port ≤ 65535) : 1 ≤ (decimal port).length ∧ (decimal port).length ≤ 5 :=
  ⟨length_pos_iff.mpr (decimal_ne_nil port), length_decimal_le (by decide) (Nat.lt_of_le_of_lt range (by decide))⟩

variable {primary : RelayInstancePortAllocation}

theorem matchPrimaryPort_text (range : primary.internalPort ≤ 65535) :
    matchPrimaryPort (primaryPortText primary) = some (.decimal primary.internalPort,
      if primary.protocol = .both then none else some primary.protocol) := by
  have length := length_port range
  cases is : primary.protocol with
  | both =>
    obtain ⟨digits, rest⟩ := digits_of_decimal primary.internalPort [] (by simp)
    rw [append_nil] at digits rest
    rw [primaryPortText, if_pos is, matchPrimaryPort]
    simp only [digits, rest, length, and_self, if_true]
  | tcp =>
    obtain ⟨digits, rest⟩ := digits_of_decimal primary.internalPort (protocolPart .tcp) (protocolPart_apart .tcp).2
    have part := (protocolPart_apart .tcp).1
    rw [primaryPortText, if_neg (by rw [is]; decide), is, matchPrimaryPort]
    simp only [digits, rest, length, part, and_self, if_true, if_false]
    rfl
  | udp =>
    obtain ⟨digits, rest⟩ := digits_of_decimal primary.internalPort (protocolPart .udp) (protocolPart_apart .udp).2
    have part := (protocolPart_apart .udp).1
    have other : protocolPart .udp ≠ protocolPart .tcp := by decide
    rw [primaryPortText, if_neg (by rw [is]; decide), is, matchPrimaryPort]
    simp only [digits, rest, length, part, other, and_self, if_true, if_false]
    rfl

theorem customRouteLabel_of_json {port : RelayInstancePortAllocation} (valid : ValidPort port) :
    relayInstanceCustomRouteLabelSchema (routeJson (customRouteLabel port)) = some (customRouteLabel port) := by
  have internal : portNumber (.atom (.number port.internalPort)) = some port.internalPort := if_pos valid.internal
  have external : portNumber (.atom (.number port.externalPort)) = some port.externalPort := if_pos valid.external
  have name : relayInstancePortNameSchema (string port.name) = some port.name := by
    rw [string, relayInstancePortNameSchema, valid.trimmed, if_pos valid.name]
  have protocol : relayInstancePortProtocolSchema (word port.protocol.name) = some port.protocol := by
    cases port.protocol <;> rfl
  simp [relayInstanceCustomRouteLabelSchema, routeJson, customRouteLabel, strict, required, Json.field, internal, external,
    name, protocol]

section Reading

variable {reading : TextReading} (lawful : reading.Lawful)

include lawful

theorem parsePrimaryPortLabel_text {primary : RelayInstancePortAllocation} (valid : ValidPort primary)
    (is : primary.kind = .primary ∧ primary.id = primaryId ∧ primary.name = .ofString "Default Server") :
    parsePrimaryPortLabel reading (some (primaryPortText primary)) none =
      some { primary.toRelayInstancePortMetadata with } := by
  have range := valid.internal
  rw [parsePrimaryPortLabel, Option.bind_some, matchPrimaryPort_text range.2]
  simp only [Option.bind_eq_bind, Option.bind_some, lawful.number _ range.2]
  rw [if_neg (by omega)]
  obtain ⟨⟨id, internalPort, kind, name, protocol⟩, externalPort⟩ := primary
  obtain ⟨rfl, rfl, rfl⟩ := is
  cases protocol <;> rfl

theorem parseRoute_entry {port : RelayInstancePortAllocation} (valid : ValidPort port) (kind : port.kind = routeKind port.id)
    (other : port.id ≠ primaryId) : parseRoute reading ((routeEntry port).1, some (routeEntry port).2) =
      [{ port.toRelayInstancePortMetadata with labelledPublicPort := some port.externalPort }] := by
  have id : (routeEntry port).1.drop instanceCustomRouteLabelStart.length = port.id := drop_left
  have route : (reading.decodeJsonOption (routeEntry port).2).bind relayInstanceCustomRouteLabelSchema =
      some (customRouteLabel port) := by
    rw [routeEntry, lawful.decodes (customRouteLabel port) valid.internal.2 valid.external.2, Option.bind_some]
    exact customRouteLabel_of_json valid
  rw [parseRoute]
  simp only [id, valid.id, other, route, ← kind]
  rfl

end Reading

theorem primaryPortLabel_managed : isManagedPortLabel primaryPortLabel = true := rfl

theorem get_beside {own : OrderedMap Utf16 Utf16} {labels : OrderedMap Utf16 (Option Utf16)} (beside : Beside own labels)
    {key : Utf16} (managed : isManagedPortLabel key = true) (value : Option Utf16) :
    labels.get key = some value ↔ ∃ text, value = some text ∧ (key, text) ∈ own.entries := by
  rw [get_eq_some]
  constructor
  · intro member
    have listed := beside.subset (mem_filter.mpr ⟨member, managed⟩)
    obtain ⟨entry, is, same⟩ := mem_map.mp listed
    cases same
    exact ⟨entry.2, rfl, is⟩
  · rintro ⟨text, rfl, member⟩
    exact (mem_filter.mp (beside.symm.subset (mem_map.mpr ⟨(key, text), member, rfl⟩))).1

theorem legacy_missing {others : List RelayInstancePortAllocation} {own : OrderedMap Utf16 Utf16}
    (entries : own.entries = (primaryPortLabel, primaryPortText primary) :: others.map routeEntry)
    {labels : OrderedMap Utf16 (Option Utf16)} (beside : Beside own labels) {key : Utf16}
    (managed : isManagedPortLabel key = true) (primary_ : key ≠ primaryPortLabel)
    (route : instanceCustomRouteLabelStart.isPrefixOf key = false) : labels.get key = none := by
  cases is : labels.get key with
  | none => rfl
  | some value =>
    obtain ⟨text, -, member⟩ := (get_beside beside managed value).mp is
    rw [entries] at member
    rcases mem_cons.mp member with same | member
    · exact absurd (Prod.mk.inj same).1 primary_
    · obtain ⟨other, -, same⟩ := mem_map.mp member
      have starts := start_of_route other.id
      rw [show instanceCustomRouteLabelStart ++ other.id = key from (Prod.mk.inj same).1, route] at starts
      cases starts

theorem flatMap_of_single {α β : Type} {f : α → List β} {g : α → β} {xs : List α} (each : ∀ x ∈ xs, f x = [g x]) :
    xs.flatMap f = xs.map g := by
  induction xs with
  | nil => rfl
  | cons x xs ih =>
    rw [flatMap_cons, each x mem_cons_self, ih fun y member => each y (mem_cons_of_mem _ member)]
    rfl

section Written

variable {allocations others : List RelayInstancePortAllocation} {primary : RelayInstancePortAllocation}
  (parted : Parted allocations primary others) {reading : TextReading} (lawful : reading.Lawful)

include parted lawful

omit lawful in
theorem entries_of_labels : ∃ own, portAllocationContainerLabels allocations = some own ∧
    own.entries = (primaryPortLabel, primaryPortText primary) :: others.map routeEntry := by
  refine ⟨_, by rw [portAllocationContainerLabels, parted.found, parted.rest]; rfl, entries_ofEntries ?_⟩
  rw [map_cons, nodup_cons, map_map]
  constructor
  · intro member
    obtain ⟨other, -, same⟩ := mem_map.mp member
    have starts := start_of_route other.id
    rw [show instanceCustomRouteLabelStart ++ other.id = primaryPortLabel from same, primaryPortLabel_plain] at starts
    cases starts
  · have injective : ∀ a b : Utf16, instanceCustomRouteLabelStart ++ a = instanceCustomRouteLabelStart ++ b → a = b :=
      fun _ _ same => append_cancel_left same
    have mapped := parted.ids.map (fun _ _ same => injective _ _ same)
    rwa [map_map] at mapped

variable {labels : OrderedMap Utf16 (Option Utf16)} {own : OrderedMap Utf16 Utf16}

theorem recoverable_of_labels
    (entries : own.entries = (primaryPortLabel, primaryPortText primary) :: others.map routeEntry)
    (beside : Beside own labels) : ∃ routes : List RecoverablePortMetadata,
      recoverablePortMetadata reading labels = { primary.toRelayInstancePortMetadata with } :: routes ∧
      routes.Perm (others.map fun port =>
        { port.toRelayInstancePortMetadata with labelledPublicPort := some port.externalPort }) := by
  have legacy := legacy_missing entries beside
    (show isManagedPortLabel legacyInstancePortAllocationsLabel = true from rfl) (by decide) rfl
  have legacyProtocol := legacy_missing entries beside
    (show isManagedPortLabel legacyPrimaryPortProtocolLabel = true from rfl) (by decide) rfl
  have label : labels.get primaryPortLabel = some (some (primaryPortText primary)) :=
    (get_beside beside primaryPortLabel_managed _).mpr ⟨_, rfl, by rw [entries]; exact mem_cons_self⟩
  have primary_ := parsePrimaryPortLabel_text lawful (parted.valid primary mem_cons_self) parted.first
  refine ⟨(labels.entries.filter fun entry => instanceCustomRouteLabelStart.isPrefixOf entry.1).flatMap
    (parseRoute reading), ?_, ?_⟩
  · rw [recoverablePortMetadata]
    simp only [legacy, legacyProtocol, label, Option.join_none, Option.join_some, primary_]
    simp [parseLegacyPortMetadata]
  have routes : (labels.entries.filter fun entry => instanceCustomRouteLabelStart.isPrefixOf entry.1).Perm
      (others.map fun port => ((routeEntry port).1, some (routeEntry port).2)) := by
    have managed : (labels.entries.filter fun entry => instanceCustomRouteLabelStart.isPrefixOf entry.1) =
        (labels.entries.filter fun entry => isManagedPortLabel entry.1).filter
          fun entry => instanceCustomRouteLabelStart.isPrefixOf entry.1 := by
      rw [filter_filter]
      refine filter_congr fun entry _ => ?_
      rw [isManagedPortLabel]
      cases instanceCustomRouteLabelStart.isPrefixOf entry.1 <;> simp
    have all : ((others.map routeEntry).map fun entry => (entry.1, some entry.2)).filter
        (fun entry => instanceCustomRouteLabelStart.isPrefixOf entry.1) =
        (others.map routeEntry).map fun entry => (entry.1, some entry.2) := by
      rw [filter_eq_self]
      intro entry member
      obtain ⟨pair, listed, rfl⟩ := mem_map.mp member
      obtain ⟨other, -, rfl⟩ := mem_map.mp listed
      exact start_of_route other.id
    have kept := beside.filter fun entry => instanceCustomRouteLabelStart.isPrefixOf entry.1
    rw [entries, map_cons, filter_cons_of_neg (by rw [primaryPortLabel_plain]; exact Bool.false_ne_true), all,
      map_map] at kept
    rw [managed]
    exact kept
  refine (routes.flatMap_right _).trans (Perm.of_eq ?_)
  rw [flatMap_map]
  refine flatMap_of_single fun port member => ?_
  obtain ⟨-, kind, id⟩ := parted.kinds port member
  exact parseRoute_entry lawful (parted.valid port (mem_cons_of_mem _ member)) kind id

variable {port : RelayInstancePortAllocation}

omit lawful in
theorem get_bindings (member : port ∈ primary :: others) {protocol : RelayInstancePortProtocol}
    (among : protocol ∈ portProtocols port.protocol) :
    (dockerPortBindingsForAllocations allocations).get (bindingKey port.internalPort protocol) =
      some [{ hostIp := some [], hostPort := some (.decimal port.externalPort) }] := by
  rw [dockerPortBindingsForAllocations, get_ofEntries]
  · refine mem_flatMap.mpr ⟨port, parted.perm.symm.subset member, mem_map.mpr ⟨protocol, among, rfl⟩⟩
  have keys := parted.bindings.map (f := fun binding => bindingKey binding.2 binding.1) fun a b same => by
    obtain ⟨protocols, ports⟩ := bindingKey_inj same
    exact Prod.ext protocols ports
  rw [flatMap_map, map_flatMap] at keys
  rw [map_flatMap]
  simpa [map_map, Function.comp_def] using keys

omit parted in
theorem bindingPublicPort_own {port : Nat} (range : 1 ≤ port ∧ port ≤ 65535) :
    bindingPublicPort reading (some [{ hostIp := some [], hostPort := some (.decimal port) }]) = some port := by
  simp [bindingPublicPort, lawful.number port range.2, range]

variable {bindings : Option PortBindings}

theorem discoverPublishedPort_published (published : Published allocations bindings)
    (member : port ∈ primary :: others) :
    discoverPublishedPort reading bindings port.internalPort port.protocol = some port.externalPort := by
  have range := (parted.valid port member).external
  have each : ∀ protocol ∈ portProtocols port.protocol, bindingPublicPort reading
      (bindingAt bindings (bindingKey port.internalPort protocol)) = some port.externalPort := by
    intro protocol among
    rw [published _ _ (get_bindings parted member among), bindingPublicPort_own lawful range]
  have positive : port.externalPort ≠ 0 := by omega
  rw [discoverPublishedPort, map_congr_left each]
  cases is : port.protocol <;> simp [portProtocols, positive]

omit lawful in
theorem discoverPublishedPort_unpublished (unpublished : Unpublished allocations bindings)
    (member : port ∈ primary :: others) :
    discoverPublishedPort reading bindings port.internalPort port.protocol = none := by
  have each : ∀ protocol ∈ portProtocols port.protocol, bindingPublicPort reading
      (bindingAt bindings (bindingKey port.internalPort protocol)) = none := by
    intro protocol among
    rw [unpublished _ _ (get_bindings parted member among)]
    rfl
  rw [discoverPublishedPort, map_congr_left each]
  cases is : port.protocol <;> simp [portProtocols]

omit parted in
theorem sorted_inOrder (ports : List RelayInstancePortAllocation) :
    InOrder reading (ports.mergeSort fun left right => comparePorts reading left right ≤ 0) := by
  have le_iff : ∀ left right, comparePorts reading left right ≤ 0 ↔
      left.kind = .primary ∨ right.kind ≠ .primary ∧ reading.localeCompare left.id right.id ≤ 0 := by
    intro left right
    by_cases first : left.kind = .primary
    · simp [comparePorts, first]
    · by_cases second : right.kind = .primary
      · simp [comparePorts, first, second]
      · simp [comparePorts, first, second]
  refine (pairwise_mergeSort ?_ ?_ ports).imp fun {left right} le => (le_iff left right).mp (of_decide_eq_true le)
  · intro a b c ab bc
    rw [decide_eq_true_iff, le_iff] at ab bc ⊢
    rcases ab with first | ⟨second, less⟩
    · exact .inl first
    · rcases bc with first | ⟨third, less'⟩
      · exact absurd first second
      · exact .inr ⟨third, lawful.trans _ _ _ less less'⟩
  intro a b
  rw [Bool.or_eq_true, decide_eq_true_iff, decide_eq_true_iff, le_iff, le_iff]
  by_cases first : a.kind = .primary
  · exact .inl (.inl first)
  · by_cases second : b.kind = .primary
    · exact .inr (.inl second)
    · rcases lawful.total a.id b.id with less | less
      · exact .inl (.inr ⟨second, less⟩)
      · exact .inr (.inr ⟨first, less⟩)

omit parted lawful in
theorem discoverPort_of_some {allocation : RecoverablePortMetadata} {externalPort : Nat}
    (positive : 1 ≤ externalPort) (is : (discoverPublishedPort reading bindings allocation.internalPort
      allocation.protocol).or allocation.labelledPublicPort = some externalPort) :
    discoverPort reading bindings allocation = [{ allocation.toRelayInstancePortMetadata with externalPort }] := by
  obtain ⟨n, rfl⟩ := Nat.exists_eq_add_of_le' positive
  rw [discoverPort, is]
  rfl

theorem discover_published
    (entries : own.entries = (primaryPortLabel, primaryPortText primary) :: others.map routeEntry)
    (beside : Beside own labels) (published : Published allocations bindings) :
    (discoverPortAllocations reading bindings labels).Perm allocations := by
  obtain ⟨routes, read, perm⟩ := recoverable_of_labels parted lawful entries beside
  have each : ∀ port ∈ primary :: others, ∀ labelled : Option Nat, discoverPort reading bindings
      { port.toRelayInstancePortMetadata with labelledPublicPort := labelled } = [port] := by
    intro port member labelled
    have found := discoverPublishedPort_published parted lawful published member
    refine discoverPort_of_some (parted.valid port member).external.1 ?_
    simp only [found, Option.some_or]
  rw [discoverPortAllocations, read, flatMap_cons, each primary mem_cons_self none, singleton_append]
  refine (mergeSort_perm _ _).trans (.trans ?_ parted.perm.symm)
  refine Perm.cons primary ((perm.flatMap_right _).trans (Perm.of_eq ?_))
  rw [flatMap_map, flatMap_of_single fun port member => each port (mem_cons_of_mem _ member) _, map_id']

/-- Without them, it's all but the primary. -/
theorem discover_unpublished
    (entries : own.entries = (primaryPortLabel, primaryPortText primary) :: others.map routeEntry)
    (beside : Beside own labels) (unpublished : Unpublished allocations bindings) :
    (discoverPortAllocations reading bindings labels).Perm others := by
  obtain ⟨routes, read, perm⟩ := recoverable_of_labels parted lawful entries beside
  have first : discoverPort reading bindings { primary.toRelayInstancePortMetadata with } = [] := by
    have missing : discoverPublishedPort reading bindings primary.internalPort primary.protocol = none :=
      discoverPublishedPort_unpublished parted unpublished mem_cons_self
    simp only [discoverPort, missing, Option.none_or]
  have each : ∀ port ∈ others, discoverPort reading bindings
      { port.toRelayInstancePortMetadata with labelledPublicPort := some port.externalPort } = [port] := by
    intro port member
    have missing : discoverPublishedPort reading bindings port.internalPort port.protocol = none :=
      discoverPublishedPort_unpublished parted unpublished (mem_cons_of_mem _ member)
    refine discoverPort_of_some (parted.valid port (mem_cons_of_mem _ member)).external.1 ?_
    simp only [missing, Option.none_or]
  rw [discoverPortAllocations, read, flatMap_cons, first, nil_append]
  refine (mergeSort_perm _ _).trans ((perm.flatMap_right _).trans (Perm.of_eq ?_))
  rw [flatMap_map, flatMap_of_single each, map_id']

end Written

/-! ## Comparing labels -/

theorem stringify_pair (entry : Utf16 × Utf16) : stringify (.array [string entry.1, string entry.2]) =
    0x5B :: (quote entry.1 ++ (comma ++ (quote entry.2 ++ [0x5D]))) := by
  simp [stringify, stringifyItems, string, stringifyAtom]

/-- Pairs of texts are told from their JSON, whatever follows it. -/
theorem stringify_pair_inj {entry entry' : Utf16 × Utf16} {rest rest' : Utf16}
    (same : stringify (.array [string entry.1, string entry.2]) ++ rest =
      stringify (.array [string entry'.1, string entry'.2]) ++ rest') : entry = entry' ∧ rest = rest' := by
  simp only [stringify_pair, cons_append, append_assoc] at same
  obtain ⟨first, separated⟩ := quote_append_inj (List.cons.inj same).2
  obtain ⟨second, after⟩ := quote_append_inj (append_cancel_left separated)
  exact ⟨Prod.ext first second, (List.cons.inj after).2⟩

theorem separated_inj {entries entries' : List (Utf16 × Utf16)}
    (same : (entries.map fun entry => stringify (.array [string entry.1, string entry.2])).flatMap (comma ++ ·) ++ [0x5D] =
      (entries'.map fun entry => stringify (.array [string entry.1, string entry.2])).flatMap (comma ++ ·) ++ [0x5D]) :
    entries = entries' := by
  induction entries generalizing entries' with
  | nil =>
    cases entries' with
    | nil => rfl
    | cons entry' rest' =>
      rw [map_cons, flatMap_cons] at same
      exact absurd (List.cons.inj same).1 (by decide)
  | cons entry rest ih =>
    cases entries' with
    | nil =>
      rw [map_cons, flatMap_cons] at same
      exact absurd (List.cons.inj same).1 (by decide)
    | cons entry' rest' =>
      simp only [map_cons, flatMap_cons, append_assoc] at same
      obtain ⟨first, after⟩ := stringify_pair_inj (append_cancel_left same)
      rw [first, ih after]

theorem stringify_entries_inj {entries entries' : List (Utf16 × Utf16)}
    (same : stringify (.array (entries.map fun entry => .array [string entry.1, string entry.2])) =
      stringify (.array (entries'.map fun entry => .array [string entry.1, string entry.2]))) : entries = entries' := by
  simp only [stringify, stringifyItems_eq, map_map] at same
  have texts := (List.cons.inj same).2
  cases entries with
  | nil =>
    cases entries' with
    | nil => rfl
    | cons entry' rest' =>
      simp only [map_cons, intercalate_cons, Function.comp_apply, stringify_pair] at texts
      exact absurd (List.cons.inj texts).1 (by decide)
  | cons entry rest =>
    cases entries' with
    | nil =>
      simp only [map_cons, intercalate_cons, Function.comp_apply, stringify_pair] at texts
      exact absurd (List.cons.inj texts).1 (by decide)
    | cons entry' rest' =>
      simp only [map_cons, intercalate_cons, append_assoc, Function.comp_apply] at texts
      obtain ⟨first, after⟩ := stringify_pair_inj texts
      have others := separated_inj (by simpa [Function.comp_def] using after)
      rw [first, others]


theorem perm_of_sortedEntries {reading : TextReading} {labels labels' : OrderedMap Utf16 Utf16}
    (same : sortedEntries reading labels = sortedEntries reading labels') : labels.entries.Perm labels'.entries := by
  have sorted := stringify_entries_inj same
  have first := mergeSort_perm labels.entries fun left right => reading.localeCompare left.1 right.1 ≤ 0
  rw [sorted] at first
  exact first.symm.trans (mergeSort_perm _ _)

theorem agree_of_entries {reading : TextReading} (lawful : reading.Lawful)
    {allocations others allocations' others' : List RelayInstancePortAllocation} {primary' : RelayInstancePortAllocation}
    (parted : Parted allocations primary others) (parted' : Parted allocations' primary' others')
    (same : ((primaryPortLabel, primaryPortText primary) :: others.map routeEntry).Perm
      ((primaryPortLabel, primaryPortText primary') :: others'.map routeEntry)) : Agree allocations allocations' := by
  have text : primaryPortText primary = primaryPortText primary' := by
    rcases mem_cons.mp (same.subset mem_cons_self) with equal | member
    · exact (Prod.mk.inj equal).2
    · obtain ⟨other, -, equal⟩ := mem_map.mp member
      have starts := start_of_route other.id
      rw [show instanceCustomRouteLabelStart ++ other.id = primaryPortLabel from (Prod.mk.inj equal).1,
        primaryPortLabel_plain] at starts
      cases starts
  have metadata : primary.toRelayInstancePortMetadata = primary'.toRelayInstancePortMetadata := by
    have first := parsePrimaryPortLabel_text lawful (parted.valid primary mem_cons_self) parted.first
    have second := parsePrimaryPortLabel_text lawful (parted'.valid primary' mem_cons_self) parted'.first
    rw [text, second] at first
    exact congrArg RecoverablePortMetadata.toRelayInstancePortMetadata (Option.some.inj first).symm
  have rest : others.Perm others' := by
    rw [text] at same
    -- What each label tells is its port.
    have ports : ∀ {allocations others : List RelayInstancePortAllocation} {primary : RelayInstancePortAllocation},
        Parted allocations primary others → ((others.map routeEntry).flatMap fun entry =>
          (parseRoute reading (entry.1, some entry.2)).map fun port =>
            { port.toRelayInstancePortMetadata with externalPort := port.labelledPublicPort.getD 0 }) = others := by
      intro allocations others primary parted
      rw [flatMap_map]
      refine (flatMap_of_single fun port member => ?_).trans (map_id' _)
      obtain ⟨-, kind, id⟩ := parted.kinds port member
      rw [parseRoute_entry lawful (parted.valid port (mem_cons_of_mem _ member)) kind id]
      rfl
    have told := same.cons_inv.flatMap_right fun entry =>
      (parseRoute reading (entry.1, some entry.2)).map fun port =>
        ({ port.toRelayInstancePortMetadata with
            externalPort := port.labelledPublicPort.getD 0 } : RelayInstancePortAllocation)
    rw [ports parted, ports parted'] at told
    exact told
  refine ⟨primary, primary'.externalPort, others, parted.first.1, parted.perm, parted'.perm.trans ?_⟩
  have is : primary' = { primary.toRelayInstancePortMetadata with externalPort := primary'.externalPort } := by
    rw [metadata]
  rw [is]
  exact .cons _ rest.symm

/-- Ports are read back as they were written, and labels tell all but the primary's public port. -/
theorem portAllocations_survive (reading : TextReading) (lawful : reading.Lawful) (input : JsonTree)
    (allocations : List RelayInstancePortAllocation) (parsed : relayInstancePortAllocationsSchema input = some allocations)
    (kinded : Kinded allocations) : ∃ own, portAllocationContainerLabels allocations = some own ∧
      (∀ labels bindings, Beside own labels → Published allocations bindings →
        (discoverPortAllocations reading bindings labels).Perm allocations ∧
        InOrder reading (discoverPortAllocations reading bindings labels)) ∧
      (∀ labels bindings, Beside own labels → Unpublished allocations bindings →
        (discoverPortAllocations reading bindings labels).Perm
          (allocations.filter fun allocation => allocation.kind ≠ .primary) ∧
        InOrder reading (discoverPortAllocations reading bindings labels)) ∧
      ∀ (input' : JsonTree) (allocations' : List RelayInstancePortAllocation) (current desired : OrderedMap Utf16 Utf16),
        relayInstancePortAllocationsSchema input' = some allocations' → Kinded allocations' →
        portAllocationContainerLabels allocations' = some desired →
        (current.entries.filter fun entry => isManagedPortLabel entry.1).Perm own.entries →
        portLabelsRequireRestart reading current desired = false → Agree allocations allocations' := by
  obtain ⟨primary, others, parted⟩ := parted_of_parse parsed kinded
  obtain ⟨own, labelled, entries⟩ := entries_of_labels parted
  refine ⟨own, labelled, fun labels bindings beside published => ⟨discover_published parted lawful entries beside published,
    sorted_inOrder lawful _⟩, fun labels bindings beside unpublished => ⟨?_, sorted_inOrder lawful _⟩, ?_⟩
  · rw [parted.rest]
    exact discover_unpublished parted lawful entries beside unpublished
  intro input' allocations' current desired parsed' kinded' labelled' beside kept
  obtain ⟨primary', others', parted'⟩ := parted_of_parse parsed' kinded'
  obtain ⟨desired', labelled'', entries'⟩ := entries_of_labels parted'
  cases labelled''.symm.trans labelled'
  have managed : (ofEntries (current.entries.filter fun entry => isManagedPortLabel entry.1)).entries =
      current.entries.filter fun entry => isManagedPortLabel entry.1 :=
    entries_ofEntries (current.nodup.sublist (filter_sublist.map Prod.fst))
  have same := perm_of_sortedEntries (of_not_not fun differ => by
    rw [portLabelsRequireRestart, decide_eq_false_iff_not] at kept
    exact kept differ)
  rw [managed] at same
  have perm := beside.symm.trans same
  rw [entries, entries'] at perm
  exact agree_of_entries lawful parted parted' perm

/-! ## A reading of a platform -/

def readDigits (text : Utf16) : Option Nat :=
  if text.all isDigit ∧ text ≠ [] then some (Nat.ofDigitChars 10 (decode text) 0) else none

theorem readDigits_decimal (n : Nat) : readDigits (decimal n) = some n := by
  rw [readDigits, if_pos ⟨all_eq_true.mpr (decimal_digits n), decimal_ne_nil n⟩, decimal,
    ofString, decode_encode, toList_repr, Nat.ofDigitChars_ten_toDigits]

/-- What follows a text that's known. -/
def strip (known : String) (text : Utf16) : Option Utf16 :=
  if (ofString known).isPrefixOf text then some (text.drop (ofString known).length) else none

theorem strip_append (known : String) (rest : Utf16) : strip known (ofString known ++ rest) = some rest := by
  rw [strip, if_pos (List.isPrefixOf_iff_prefix.mpr (prefix_append _ _)), drop_left]

/-- Reads a route that's written without spaces and in its schema's order. -/
def decodeRoute (text : Utf16) : Option JsonTree := do
  let text ← strip "\x7b\"internal\":" text
  let internal ← readDigits (text.takeWhile isDigit)
  let (name, text) ← unescape (← strip ",\"name\":\"" (text.dropWhile isDigit))
  let (protocol, text) ← unescape (← strip ",\"protocol\":\"" text)
  let text ← strip ",\"public\":" text
  let public_ ← readDigits (text.takeWhile isDigit)
  if text.dropWhile isDigit = ofString "\x7d" then
    some (.object [("internal", .atom (.number internal)), ("name", string name), ("protocol", string protocol),
      ("public", .atom (.number public_))])
  else none

theorem stringify_routeJson (route : RelayInstanceCustomRouteLabel) : stringify (routeJson route) =
    ofString "\x7b\"internal\":" ++ (decimal route.internal ++ (ofString ",\"name\":\"" ++ (escape route.name ++
      0x22 :: (ofString ",\"protocol\":\"" ++ (escape (ofString route.protocol.name) ++
        0x22 :: (ofString ",\"public\":" ++ (decimal route.public_ ++ ofString "\x7d"))))))) := by
  have internal : ofString "\x7b\"internal\":" = 0x7B :: (quote (ofString "internal") ++ [0x3A]) := rfl
  have name : ofString ",\"name\":\"" = comma ++ (quote (ofString "name") ++ [0x3A, 0x22]) := rfl
  have protocol : ofString ",\"protocol\":\"" = comma ++ (quote (ofString "protocol") ++ [0x3A, 0x22]) := rfl
  have public_ : ofString ",\"public\":" = comma ++ (quote (ofString "public") ++ [0x3A]) := rfl
  have last : ofString "\x7d" = [0x7D] := rfl
  rw [internal, name, protocol, public_, last]
  simp [routeJson, stringify, stringifyFields, stringifyAtom, string, word, quote]

theorem decodeRoute_stringify (route : RelayInstanceCustomRouteLabel) :
    decodeRoute (stringify (routeJson route)) = some (routeJson route) := by
  obtain ⟨digits, rest⟩ := digits_of_decimal route.internal
    (ofString ",\"name\":\"" ++ (escape route.name ++ 0x22 :: (ofString ",\"protocol\":\"" ++
      (escape (ofString route.protocol.name) ++ 0x22 :: (ofString ",\"public\":" ++
        (decimal route.public_ ++ ofString "\x7d")))))) (by
        intro unit first
        cases first
        rfl)
  obtain ⟨digits', rest'⟩ := digits_of_decimal route.public_ (ofString "\x7d") (by
    intro unit first
    cases first
    rfl)
  rw [stringify_routeJson, decodeRoute]
  simp only [strip_append, digits, rest, digits', rest', readDigits_decimal, unescape_escape, Option.bind_eq_bind, Option.bind_some, if_true]
  rfl

/-- Texts in the order of their units. -/
def compareUnits (a b : Utf16) : Int :=
  if a.map (·.toNat) ≤ b.map (·.toNat) then (if a = b then 0 else -1) else 1

theorem compareUnits_le (a b : Utf16) : compareUnits a b ≤ 0 ↔ a.map (·.toNat) ≤ b.map (·.toNat) := by
  unfold compareUnits
  split
  · rename_i le
    refine ⟨fun _ => le, fun _ => ?_⟩
    split <;> decide
  · rename_i more
    exact ⟨fun le => absurd le (by decide), fun le => absurd le more⟩

def plainReading : TextReading := ⟨readDigits, decodeRoute, compareUnits⟩

theorem plainReading_lawful : plainReading.Lawful where
  number := fun n _ => readDigits_decimal n
  decodes := fun route _ _ => decodeRoute_stringify route
  trans := fun a b c ab bc => (compareUnits_le a c).mpr
    (le_trans ((compareUnits_le a b).mp ab) ((compareUnits_le b c).mp bc))
  total := fun a b => by
    rcases le_total (a.map (·.toNat)) (b.map (·.toNat)) with le | le
    · exact .inl ((compareUnits_le a b).mpr le)
    · exact .inr ((compareUnits_le b a).mpr le)

/-- A game port on both protocols, and a port for voice. -/
def voicePorts : List RelayInstancePortAllocation :=
  [{ id := ofString "a1b2c3d4", internalPort := 24454, kind := .custom, name := ofString "Voice \"chat\""
     protocol := .udp, externalPort := 30001 },
   { id := primaryId, internalPort := 25565, kind := .primary, name := ofString "Default Server", protocol := .both
     externalPort := 30000 }]

def portInput (port : RelayInstancePortAllocation) : JsonTree :=
  .object [("externalPort", .atom (.number port.externalPort)), ("id", string port.id),
    ("internalPort", .atom (.number port.internalPort)), ("kind", word port.kind.name), ("name", string port.name),
    ("protocol", word port.protocol.name)]

theorem voicePorts_kinded : Kinded voicePorts where
  primary := ⟨_, rfl, rfl, rfl⟩
  others := by decide +kernel

/-- A port's labels as a container has them, beside one of another program. -/
def voiceLabels : OrderedMap Utf16 (Option Utf16) :=
  .ofEntries ((ofString "maintainer", some (ofString "kiln")) ::
    (((portAllocationContainerLabels voicePorts).getD .empty).entries.map fun entry => (entry.1, some entry.2)))

def voiceBindings : PortBindings :=
  .ofEntries ((dockerPortBindingsForAllocations voicePorts).entries.map fun entry => (entry.1, some entry.2))

theorem voicePorts_published : Published voicePorts (some voiceBindings) := by
  intro key value is
  have member : (key, some value) ∈ (dockerPortBindingsForAllocations voicePorts).entries.map
      fun entry => (entry.1, some entry.2) := mem_map.mpr ⟨_, get_eq_some.mp is, rfl⟩
  have found := (get_ofEntries (by decide +kernel)).mpr member
  rw [bindingAt, Option.bind_some, voiceBindings, found]
  rfl

theorem portAllocations_survive_voice :
    (discoverPortAllocations plainReading (some voiceBindings) voiceLabels).Perm voicePorts ∧
      (discoverPortAllocations plainReading none voiceLabels).length = 1 := by
  obtain ⟨own, labelled, published, unpublished, -⟩ := portAllocations_survive plainReading plainReading_lawful
    (.array (voicePorts.map portInput)) voicePorts (by decide +kernel) voicePorts_kinded
  have is : own = (portAllocationContainerLabels voicePorts).getD .empty := by rw [labelled]; rfl
  have beside : Beside own voiceLabels := by
    rw [is]
    unfold Beside
    decide +kernel
  refine ⟨(published voiceLabels (some voiceBindings) beside voicePorts_published).1, ?_⟩
  exact (unpublished voiceLabels none beside fun _ _ _ => rfl).1.length_eq.trans (by decide +kernel)

end Kiln.Relay
