import Mathlib
import Kiln.Lib.Decimal
import Kiln.Lib.Probe
import Kiln.Lib.Transition

/-!
# Private network addresses

`allocateTailscaleStackSubnet` and `assignTailscaleBindingAddresses` of apps/relay/src/private-network.ts. The digest
of a stack and its node is taken as it is.
-/

namespace Kiln.Relay
open Kiln.Lib List

/-! ## Subnets -/

/-- `TAILSCALE_STACK_SUBNET_COUNT` -/
def tailscaleStackSubnetCount : Nat := 64 * 256

/-- A subnet of the pool. -/
def subnetAt (index : Nat) : String :=
  "10." ++ Nat.repr (128 + index / 256) ++ "." ++ Nat.repr (index % 256) ++ ".0/24"

/-- The pool. -/
def tailscaleStackSubnets : List String := (range tailscaleStackSubnetCount).map subnetAt

/-- `digest[index] ?? 0` -/
def byteAt (digest : List UInt8) (index : Nat) : Nat := (digest[index]?.getD 0).toNat

def subnetStart (digest : List UInt8) : Nat :=
  ((byteAt digest 0 <<< 8) ||| byteAt digest 1) % tailscaleStackSubnetCount

def subnetStep (digest : List UInt8) : Nat :=
  (((byteAt digest 2 <<< 8) ||| byteAt digest 3) % (tailscaleStackSubnetCount / 2)) * 2 + 1

/-- The subnets that are tried, in their order. -/
def triedSubnets (digest : List UInt8) : List String :=
  (probes tailscaleStackSubnetCount (subnetStart digest) (subnetStep digest)).map subnetAt

/-- `allocateTailscaleStackSubnet`, or nothing where it throws. -/
def allocateTailscaleStackSubnet (digest : List UInt8) (reserved : String → Bool) : Option String :=
  firstFree reserved (triedSubnets digest)

/-! ## Addresses -/

/-- `subnet.replace(/\.0\/24$/u, "")`, or nothing where it changes nothing. -/
def subnetPrefix? (subnet : String) : Option String :=
  if ".0/24".toList <:+ subnet.toList then
    some (String.ofList (subnet.toList.take (subnet.toList.length - ".0/24".toList.length)))
  else none

def addressAt (start : String) (host : Nat) : String := start ++ "." ++ Nat.repr host

/-- The hosts that are tried. -/
def bindingHosts : List Nat := range' 10 245

/-- `allocateTailscaleBindingAddress`, which reserves what it gives, or nothing where it throws. -/
def allocateTailscaleBindingAddress (subnet : String) (reserved : List String) : Option String := do
  let start ← subnetPrefix? subnet
  firstFree (fun address => decide (address ∈ reserved)) (bindingHosts.map (addressAt start))

structure DesiredBinding where
  memberId : String
  hostname : String
  enabled : Option Bool := none
  deriving DecidableEq

/-- A `TailscaleBinding` with its address. -/
structure AddressedBinding where
  memberId : String
  hostname : String
  address : String
  enabled : Bool
  deriving DecidableEq

/-- `previousByMember.get`, the last of its member's. -/
def previousByMember (existing : List AddressedBinding) (memberId : String) : Option AddressedBinding :=
  existing.reverse.find? (·.memberId = memberId)

/-- The desired bindings in turn, with what is reserved by then. -/
def assignBindings (subnet : String) (existing : List AddressedBinding) :
    List String → List DesiredBinding → Option (List AddressedBinding)
  | _, [] => some []
  | reserved, binding :: rest =>
      match previousByMember existing binding.memberId with
      | some previous => do
          let others ← assignBindings subnet existing reserved rest
          return ⟨binding.memberId, binding.hostname, previous.address, binding.enabled.getD true⟩ :: others
      | none => do
          let address ← allocateTailscaleBindingAddress subnet reserved
          let others ← assignBindings subnet existing (reserved ++ [address]) rest
          return ⟨binding.memberId, binding.hostname, address, binding.enabled.getD true⟩ :: others

/-- What is reserved before any: the addresses of the members that stay. -/
def reservedAddresses (existing : List AddressedBinding) (desired : List DesiredBinding) : List String :=
  (existing.filter fun binding => binding.memberId ∈ desired.map (·.memberId)).map (·.address)

/-- `assignTailscaleBindingAddresses`, or nothing where it throws. -/
def assignTailscaleBindingAddresses (subnet : String) (existing : List AddressedBinding)
    (desired : List DesiredBinding) : Option (List AddressedBinding) :=
  assignBindings subnet existing (reservedAddresses existing desired) desired

/-- The bindings of a subnet over the lists of distinct members that are desired in turn. A call that throws changes
nothing. -/
def bindingSystem (subnet : String) : System (List AddressedBinding) (List DesiredBinding) :=
  .ofFunction (· = []) fun existing desired =>
    if (desired.map (·.memberId)).Nodup then
      some ((assignTailscaleBindingAddresses subnet existing desired).getD existing)
    else none

/-! ## What is to hold -/

/-- Each subnet of the pool is tried once, and one that isn't reserved is given if there is one. -/
structure SubnetFound (digest : List UInt8) (reserved : String → Bool) : Prop where
  tried : (triedSubnets digest).Perm tailscaleStackSubnets ∧ (triedSubnets digest).Nodup
  found : ∀ subnet, allocateTailscaleStackSubnet digest reserved = some subnet →
    subnet ∈ tailscaleStackSubnets ∧ reserved subnet = false
  none_ : allocateTailscaleStackSubnet digest reserved = none ↔ ∀ subnet ∈ tailscaleStackSubnets, reserved subnet = true

/-- The addresses of a subnet's bindings are distinct hosts of it, and the next call keeps those of members that stay,
and fails only if there are more members than hosts. -/
structure AddressesApart (start : String) (existing : List AddressedBinding) : Prop where
  distinct : (existing.map (·.address)).Nodup
  within : ∀ binding ∈ existing, ∃ host, 10 ≤ host ∧ host ≤ 254 ∧ binding.address = addressAt start host
  fails : ∀ desired : List DesiredBinding, (desired.map (·.memberId)).Nodup →
    (assignTailscaleBindingAddresses (start ++ ".0/24") existing desired = none ↔ 245 < desired.length)
  keeps : ∀ (desired : List DesiredBinding) result, (desired.map (·.memberId)).Nodup →
    assignTailscaleBindingAddresses (start ++ ".0/24") existing desired = some result →
      result.map (·.memberId) = desired.map (·.memberId) ∧
      ∀ binding ∈ existing, ∀ after ∈ result, after.memberId = binding.memberId → after.address = binding.address

/-! ## Subnets -/

theorem subnetAt_injective {m n : Nat} (same : subnetAt m = subnetAt n) : m = n := by
  have lists := congrArg String.toList same
  simp only [subnetAt, String.toList_append, append_assoc] at lists
  have rest := append_cancel_left lists
  obtain ⟨high, rest'⟩ := repr_append_inj (c := '.') (by decide) rest
  obtain ⟨low, -⟩ := repr_append_inj (c := '.') (by decide) rest'
  omega

theorem nodup_tailscaleStackSubnets : tailscaleStackSubnets.Nodup :=
  nodup_range.map fun _ _ => subnetAt_injective

theorem coprime_subnetStep (digest : List UInt8) : Nat.Coprime tailscaleStackSubnetCount (subnetStep digest) := by
  have power : tailscaleStackSubnetCount = 2 ^ 14 := by decide
  rw [power]
  refine Nat.Coprime.pow_left 14 (Nat.coprime_two_left.mpr ?_)
  rw [subnetStep, Nat.mul_comm]
  exact odd_two_mul_add_one _

theorem subnetFound (digest : List UInt8) (reserved : String → Bool) : SubnetFound digest reserved := by
  have perm : (triedSubnets digest).Perm tailscaleStackSubnets :=
    (probes_perm (coprime_subnetStep digest)).map subnetAt
  refine ⟨⟨perm, perm.nodup_iff.mpr nodup_tailscaleStackSubnets⟩, fun subnet is => ?_, ?_⟩
  · obtain ⟨tried, free⟩ := firstFree_eq_some is
    exact ⟨perm.mem_iff.mp tried, free⟩
  · rw [allocateTailscaleStackSubnet, firstFree_eq_none]
    exact forall_congr' fun subnet => imp_congr_left perm.mem_iff

/-! ## Addresses -/

theorem subnetPrefix_append (start : String) : subnetPrefix? (start ++ ".0/24") = some start := by
  have ends : ".0/24".toList <:+ (start ++ ".0/24").toList := by
    rw [String.toList_append]
    exact suffix_append _ _
  rw [subnetPrefix?, if_pos ends, String.toList_append, length_append, Nat.add_sub_cancel, take_left,
    String.ofList_toList]

variable {start : String}

theorem addressAt_injective {m n : Nat} (same : addressAt start m = addressAt start n) : m = n := by
  have lists := congrArg String.toList same
  simp only [addressAt, String.toList_append, append_cancel_left_eq] at lists
  exact repr_injective lists

/-- The addresses of a subnet. -/
def addressesOf (start : String) : List String := bindingHosts.map (addressAt start)

theorem nodup_addressesOf (start : String) : (addressesOf start).Nodup :=
  (nodup_range' 1 (by decide)).map fun _ _ => addressAt_injective

theorem length_addressesOf (start : String) : (addressesOf start).length = 245 := by
  rw [addressesOf, length_map, bindingHosts, length_range']

theorem mem_addressesOf {address : String} :
    address ∈ addressesOf start ↔ ∃ host, 10 ≤ host ∧ host ≤ 254 ∧ address = addressAt start host := by
  simp only [addressesOf, bindingHosts, mem_map, mem_range'_1]
  constructor
  · rintro ⟨host, bounds, rfl⟩
    exact ⟨host, bounds.1, by omega, rfl⟩
  · rintro ⟨host, low, high, rfl⟩
    exact ⟨host, ⟨low, by omega⟩, rfl⟩

theorem allocate_eq_some {reserved : List String} {address : String}
    (is : allocateTailscaleBindingAddress (start ++ ".0/24") reserved = some address) :
    address ∈ addressesOf start ∧ address ∉ reserved := by
  rw [allocateTailscaleBindingAddress, subnetPrefix_append] at is
  obtain ⟨among, free⟩ := firstFree_eq_some is
  exact ⟨among, of_decide_eq_false free⟩

theorem allocate_eq_none {reserved : List String} (distinct : reserved.Nodup) (within : reserved ⊆ addressesOf start) :
    allocateTailscaleBindingAddress (start ++ ".0/24") reserved = none ↔ 245 ≤ reserved.length := by
  rw [allocateTailscaleBindingAddress, subnetPrefix_append, Option.bind_eq_bind, Option.bind_some, firstFree_eq_none,
    ← addressesOf, ← length_addressesOf start]
  simp only [decide_eq_true_eq]
  constructor
  · intro all
    exact ((nodup_addressesOf start).subperm all).length_le
  · intro many
    exact ((distinct.subperm within).perm_of_length_le many).symm.subset

theorem mem_of_previousByMember {existing : List AddressedBinding} {memberId : String} {previous : AddressedBinding}
    (is : previousByMember existing memberId = some previous) : previous ∈ existing ∧ previous.memberId = memberId := by
  have found := find?_some is
  rw [decide_eq_true_eq] at found
  exact ⟨mem_reverse.mp (mem_of_find?_eq_some is), found⟩

theorem previousByMember_eq_none {existing : List AddressedBinding} {memberId : String} :
    previousByMember existing memberId = none ↔ ∀ binding ∈ existing, binding.memberId ≠ memberId := by
  rw [previousByMember, find?_eq_none]
  simp only [mem_reverse, decide_eq_true_eq, ne_eq]

/-- Bindings with distinct members and distinct addresses of the subnet. -/
structure Bound (start : String) (existing : List AddressedBinding) : Prop where
  members : (existing.map (·.memberId)).Nodup
  distinct : (existing.map (·.address)).Nodup
  within : ∀ binding ∈ existing, binding.address ∈ addressesOf start

variable {start : String} {existing : List AddressedBinding}

theorem Bound.eq_of_member (bound : Bound start existing) {binding other : AddressedBinding} (member : binding ∈ existing)
    (member' : other ∈ existing) (same : binding.memberId = other.memberId) : binding = other :=
  inj_on_of_nodup_map bound.members member member' same

theorem Bound.eq_of_address (bound : Bound start existing) {binding other : AddressedBinding}
    (member : binding ∈ existing) (member' : other ∈ existing) (same : binding.address = other.address) :
    binding = other :=
  inj_on_of_nodup_map bound.distinct member member' same

/-- Where an address that is assigned comes from. -/
def Assigned (existing : List AddressedBinding) (reserved : List String) (binding : AddressedBinding) : Prop :=
  (∃ previous ∈ existing, previous.memberId = binding.memberId ∧ binding.address = previous.address) ∨
    (∀ previous ∈ existing, previous.memberId ≠ binding.memberId) ∧ binding.address ∉ reserved

variable {desired : List DesiredBinding}

/-- What the desired bindings are assigned. -/
theorem assignBindings_spec (bound : Bound start existing) {reserved : List String}
    {result : List AddressedBinding} (members : (desired.map (·.memberId)).Nodup)
    (stays : ∀ binding ∈ existing, binding.memberId ∈ desired.map (·.memberId) → binding.address ∈ reserved)
    (is : assignBindings (start ++ ".0/24") existing reserved desired = some result) :
    result.map (·.memberId) = desired.map (·.memberId) ∧ (∀ binding ∈ result, Assigned existing reserved binding) ∧
      (∀ binding ∈ result, binding.address ∈ addressesOf start) ∧ (result.map (·.address)).Nodup := by
  induction desired generalizing reserved result with
  | nil =>
    cases is
    exact ⟨rfl, nofun, nofun, nodup_nil⟩
  | cons binding rest ih =>
    rw [map_cons, nodup_cons] at members
    have later : ∀ other ∈ existing, other.memberId ∈ rest.map (·.memberId) → other.address ∈ reserved :=
      fun other member among => stays other member (mem_cons_of_mem _ among)
    rw [assignBindings] at is
    cases found : previousByMember existing binding.memberId with
    | some previous =>
      simp only [found] at is
      obtain ⟨others, assigned, made⟩ := Option.bind_eq_some_iff.mp is
      cases made
      obtain ⟨ids, each, within, distinct⟩ := ih members.2 later assigned
      obtain ⟨there, same⟩ := mem_of_previousByMember found
      have held : previous.address ∈ reserved := stays previous there (same ▸ mem_cons_self)
      refine ⟨by rw [map_cons, ids, map_cons], ?_, ?_, ?_⟩
      · intro other member
        rcases mem_cons.mp member with rfl | member
        · exact .inl ⟨previous, there, same, rfl⟩
        · exact each other member
      · intro other member
        rcases mem_cons.mp member with rfl | member
        · exact bound.within previous there
        · exact within other member
      refine nodup_cons.mpr ⟨fun member => ?_, distinct⟩
      obtain ⟨other, among, equal⟩ := mem_map.mp member
      rcases each other among with ⟨earlier, member', sameMember, address⟩ | ⟨-, free⟩
      · obtain rfl := bound.eq_of_address there member' (equal.symm.trans address)
        refine members.1 ?_
        rw [← ids, ← same, sameMember]
        exact mem_map_of_mem among
      · exact free (equal ▸ held)
    | none =>
      simp only [found] at is
      obtain ⟨address, allocated, is⟩ := Option.bind_eq_some_iff.mp is
      obtain ⟨others, assigned, made⟩ := Option.bind_eq_some_iff.mp is
      cases made
      obtain ⟨ids, each, within, distinct⟩ := ih members.2
        (fun other member among => mem_append_left _ (later other member among)) assigned
      obtain ⟨host, free⟩ := allocate_eq_some allocated
      have new := previousByMember_eq_none.mp found
      refine ⟨by rw [map_cons, ids, map_cons], ?_, ?_, ?_⟩
      · intro other member
        rcases mem_cons.mp member with rfl | member
        · exact .inr ⟨new, free⟩
        · exact (each other member).imp_right fun its => ⟨its.1, fun held => its.2 (mem_append_left _ held)⟩
      · intro other member
        rcases mem_cons.mp member with rfl | member
        · exact host
        · exact within other member
      refine nodup_cons.mpr ⟨fun member => ?_, distinct⟩
      obtain ⟨other, among, equal⟩ := mem_map.mp member
      rcases each other among with ⟨earlier, member', sameMember, its⟩ | ⟨-, apart⟩
      · -- an address that is kept was reserved
        have listed : earlier.memberId ∈ rest.map (·.memberId) := by
          rw [← ids, sameMember]
          exact mem_map_of_mem among
        have held := later earlier member' listed
        rw [← its, equal] at held
        exact free held
      · exact apart (equal ▸ mem_append_right _ (mem_singleton_self _))

/-- The new ones are as many as have no binding yet. -/
theorem assignBindings_eq_none {reserved : List String} (distinct : reserved.Nodup)
    (within : reserved ⊆ addressesOf start) :
    assignBindings (start ++ ".0/24") existing reserved desired = none ↔
      245 < reserved.length + desired.countP fun binding => (previousByMember existing binding.memberId).isNone := by
  induction desired generalizing reserved with
  | nil =>
    have few := (distinct.subperm within).length_le
    rw [length_addressesOf] at few
    simp only [assignBindings, countP_nil, Nat.add_zero, reduceCtorEq, false_iff, Nat.not_lt]
    exact few
  | cons binding rest ih =>
    rw [assignBindings]
    cases found : previousByMember existing binding.memberId with
    | some previous =>
      rw [countP_cons_of_neg (by simp [found])]
      simp only [Option.bind_eq_bind, Option.bind_eq_none_iff, ← ih distinct within]
      constructor
      · intro all
        cases assigned : assignBindings (start ++ ".0/24") existing reserved rest with
        | none => rfl
        | some others => exact absurd (all others assigned) nofun
      · intro none_ others assigned
        exact absurd (none_.symm.trans assigned) nofun
    | none =>
      rw [countP_cons_of_pos (by simp [found])]
      cases allocated : allocateTailscaleBindingAddress (start ++ ".0/24") reserved with
      | none =>
        have full := (allocate_eq_none distinct within).mp allocated
        simp only [Option.bind_eq_bind, Option.bind_none, true_iff]
        omega
      | some address =>
        obtain ⟨host, free⟩ := allocate_eq_some allocated
        have distinct' : (reserved ++ [address]).Nodup :=
          nodup_append.mpr ⟨distinct, nodup_singleton _, fun held member other is same =>
            free (mem_singleton.mp is ▸ same ▸ member)⟩
        have within' : reserved ++ [address] ⊆ addressesOf start := by
          intro other member
          rcases mem_append.mp member with before | now
          · exact within before
          · exact mem_singleton.mp now ▸ host
        have rest_ := ih distinct' within'
        rw [length_append, length_singleton] at rest_
        simp only [Option.bind_eq_bind, Option.bind_some, Option.bind_eq_none_iff]
        rw [show reserved.length + (rest.countP (fun binding =>
          (previousByMember existing binding.memberId).isNone) + 1) = reserved.length + 1 + rest.countP (fun binding =>
            (previousByMember existing binding.memberId).isNone) by omega, ← rest_]
        constructor
        · intro all
          cases assigned : assignBindings (start ++ ".0/24") existing (reserved ++ [address]) rest with
          | none => rfl
          | some others => exact absurd (all others assigned) nofun
        · intro none_ others assigned
          exact absurd (none_.symm.trans assigned) nofun

theorem Bound.reserved (bound : Bound start existing) (members : (desired.map (·.memberId)).Nodup) :
    (reservedAddresses existing desired).Nodup ∧ reservedAddresses existing desired ⊆ addressesOf start ∧
      (reservedAddresses existing desired).length +
        (desired.countP fun binding => (previousByMember existing binding.memberId).isNone) = desired.length := by
  refine ⟨bound.distinct.sublist (filter_sublist.map _), ?_, ?_⟩
  · intro address member
    obtain ⟨binding, among, rfl⟩ := mem_map.mp member
    exact bound.within binding (mem_of_mem_filter among)
  have stays : ((existing.filter fun binding => binding.memberId ∈ desired.map (·.memberId)).map (·.memberId)).Perm
      ((desired.filter fun binding => !(previousByMember existing binding.memberId).isNone).map (·.memberId)) := by
    refine (perm_ext_iff_of_nodup (bound.members.sublist (filter_sublist.map _))
      (members.sublist (filter_sublist.map _))).mpr fun id => ?_
    simp only [mem_map, mem_filter, decide_eq_true_eq, Bool.not_eq_true']
    constructor
    · rintro ⟨binding, ⟨there, wanted, listed, same⟩, rfl⟩
      refine ⟨wanted, ⟨listed, ?_⟩, same⟩
      cases found : previousByMember existing wanted.memberId with
      | some previous => rfl
      | none => exact absurd same.symm (previousByMember_eq_none.mp found binding there)
    · rintro ⟨wanted, ⟨listed, found⟩, rfl⟩
      obtain ⟨previous, is⟩ := Option.isSome_iff_exists.mp (Option.isNone_eq_false_iff.mp found)
      obtain ⟨there, same⟩ := mem_of_previousByMember is
      exact ⟨previous, ⟨there, wanted, listed, same.symm⟩, same⟩
  have lengths := stays.length_eq
  rw [length_map, length_map] at lengths
  rw [reservedAddresses, length_map, lengths, ← countP_eq_length_filter, Nat.add_comm]
  rw [length_eq_countP_add_countP fun binding : DesiredBinding =>
    (previousByMember existing binding.memberId).isNone]
  exact congrArg _ (countP_congr fun binding _ => by simp [Option.isSome_iff_ne_none])

/-! ## Every sequence of calls -/

theorem Bound.assigned (bound : Bound start existing) {result : List AddressedBinding}
    (members : (desired.map (·.memberId)).Nodup)
    (is : assignTailscaleBindingAddresses (start ++ ".0/24") existing desired = some result) :
    Bound start result := by
  obtain ⟨ids, -, within, distinct⟩ := assignBindings_spec bound members (fun binding member among =>
    mem_map_of_mem (mem_filter.mpr ⟨member, decide_eq_true among⟩)) is
  exact ⟨ids ▸ members, distinct, within⟩

theorem Bound.addressesApart (bound : Bound start existing) : AddressesApart start existing where
  distinct := bound.distinct
  within := fun binding member => mem_addressesOf.mp (bound.within binding member)
  fails := fun desired members => by
    obtain ⟨distinct, within, count⟩ := bound.reserved members
    rw [assignTailscaleBindingAddresses, assignBindings_eq_none distinct within, count]
  keeps := fun desired result members is => by
    obtain ⟨ids, each, -⟩ := assignBindings_spec bound members (fun binding member among =>
      mem_map_of_mem (mem_filter.mpr ⟨member, decide_eq_true among⟩)) is
    refine ⟨ids, fun binding member after among same => ?_⟩
    rcases each after among with ⟨previous, there, its, address⟩ | ⟨new, -⟩
    · rw [address, bound.eq_of_member there member (its.trans same)]
    · exact absurd same.symm (new binding member)

/-- A stack is given a free subnet if there is one, and its bindings keep distinct addresses of their subnet. -/
theorem private_addresses (digest : List UInt8) (reserved : String → Bool) (start : String)
    (existing : List AddressedBinding) (reached : (bindingSystem (start ++ ".0/24")).Reachable existing) :
    SubnetFound digest reserved ∧ AddressesApart start existing := by
  refine ⟨subnetFound digest reserved, ?_⟩
  have bound : Bound start existing := by
    refine reached.invariant (fun existing is => ?_) fun existing desired existing' bound step => ?_
    · rw [show existing = [] from is]
      exact ⟨nodup_nil, nodup_nil, nofun⟩
    · obtain ⟨members, is⟩ := Option.ite_none_right_eq_some.mp step
      cases is
      cases assigned : assignTailscaleBindingAddresses (start ++ ".0/24") existing desired with
      | none => exact bound
      | some result => exact bound.assigned members assigned
  exact bound.addressesApart

/-- Two servers are attached, then one of them and another. -/
def attaches : List (List DesiredBinding) :=
  [[⟨"lobby", "lobby", none⟩, ⟨"survival", "survival", none⟩], [⟨"creative", "creative", none⟩,
    ⟨"survival", "survival", some false⟩]]

def attached (existing : List AddressedBinding) : Bool :=
  existing.map (·.address) = ["10.130.7.10", "10.130.7.11"]

theorem private_addresses_attaches :
    (runAll (fun existing (desired : List DesiredBinding) =>
      if (desired.map (·.memberId)).Nodup then
        some ((assignTailscaleBindingAddresses ("10.130.7" ++ ".0/24") existing desired).getD existing)
      else none) [] attaches).any attached = true ∧
    ∀ existing, runAll (fun existing (desired : List DesiredBinding) =>
      if (desired.map (·.memberId)).Nodup then
        some ((assignTailscaleBindingAddresses ("10.130.7" ++ ".0/24") existing desired).getD existing)
      else none) [] attaches = some existing →
        SubnetFound [1, 2, 3, 4] (fun _ => false) ∧ AddressesApart "10.130.7" existing := by
  refine ⟨by decide, fun existing ran => ?_⟩
  exact private_addresses [1, 2, 3, 4] (fun _ => false) "10.130.7" existing ⟨_, _, rfl, System.run_of_runAll ran⟩

end Kiln.Relay
