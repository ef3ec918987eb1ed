import Kiln.Hearth.HostnameClaims

/-!
# Hostnames have one owner who holds the claim

What each transaction makes of claims and names when it runs alone: one that claims a name and stores a row
leaves every claim used, as does one that takes names away and releases them. A move takes claims along, so
what stays behind must not use their names, and a delete releases what it was given, so that must be as stored
still. Under locks, what holds of transactions alone holds of every order of their statements.
-/

namespace Kiln.Hearth
open Kiln.Lib HostnameStatement HostnameProgram DomainChange List

/-! ## Transactions alone -/

/-- Where the program succeeds when it runs alone, it leaves the rows so. -/
abbrev Ensures {α : Type} (pre : List HostnameRow → Prop) (program : HostnameProgram (Except HostnameError α))
    (post : α → List HostnameRow → Prop) : Prop :=
  Program.Meets id hostnameDatabase.calls (fun _ => True) pre program (Program.onResult post fun _ _ => True)

section Ensures
variable {α β : Type} {pre : List HostnameRow → Prop} {program : HostnameProgram (Except HostnameError α)}
  {post : α → List HostnameRow → Prop}

theorem Ensures.holds (ensures : Ensures pre program post) {rows rows' : List HostnameRow} {value : α}
    (before : pre rows)
    (run : (Program.runs hostnameDatabase.alone program rows).Reachable (.done (.ok value), rows')) :
    post value rows' :=
  (Program.safe_of_reachable (ensures rows trivial before) run).returned

theorem ensures_done {value : α} (holds : ∀ rows, pre rows → post value rows) :
    Ensures pre (.done (.ok value)) post :=
  Program.Meets.done fun rows _ is => holds rows is

theorem ensures_fail {cause : HostnameError} : Ensures pre (fail cause) post :=
  Program.Meets.done fun _ _ _ => trivial

theorem Ensures.andThen {next : α → HostnameProgram (Except HostnameError β)} {post' : β → List HostnameRow → Prop}
    (first : Ensures pre program post) (second : ∀ value, Ensures (post value) (next value) post') :
    Ensures pre (program.andThen next) post' :=
  Program.Meets.andThen first second fun _ _ _ _ => trivial

theorem Ensures.weaken {pre' : List HostnameRow → Prop} {post' : α → List HostnameRow → Prop}
    (ensures : Ensures pre program post) (before : ∀ rows, pre' rows → pre rows)
    (after : ∀ value rows, post value rows → post' value rows) : Ensures pre' program post' := by
  refine Program.Meets.weaken ensures before fun result rows _ is => ?_
  cases result with
  | ok value => exact after value rows is
  | error cause => trivial

theorem ensures_run {i : HostnameStatement} {post : i.answer → List HostnameRow → Prop}
    (made : ∀ rows reply writes, pre rows → i.does (rows.filter i.locks) = some (reply, writes) →
      post reply (hostnameDatabase.writeAll rows writes)) : Ensures pre (HostnameProgram.run i) post := by
  refine Program.Meets.call post ?_ fun reply => Program.Meets.done fun rows _ is => is
  rintro rows reply rows' - is ⟨writes, does, rfl⟩
  exact ⟨trivial, made rows reply writes is does⟩

end Ensures

/-! ## Claims and what uses them -/

/-- A row uses a name for an owner. -/
def Used (rows : List HostnameRow) (hostname : Hostname) (owner : HostnameOwner) : Prop :=
  ∃ row ∈ rows, row.uses hostname owner = true

/-- Every name that is used is claimed, and the claims that nothing uses are among those that are spare. -/
structure Claimed (spare : Hostname → HostnameOwner → Prop) (rows : List HostnameRow) : Prop where
  distinct : (rows.map HostnameRow.key).Nodup
  named : OneNameEach rows
  held : ∀ hostname owner, Used rows hostname owner → .claim ⟨hostname, owner⟩ ∈ rows
  used : ∀ hostname owner, .claim ⟨hostname, owner⟩ ∈ rows → Used rows hostname owner ∨ spare hostname owner

theorem owned_iff {rows : List HostnameRow} : HostnamesOwned rows ↔ Claimed (fun _ _ => False) rows := by
  constructor
  · exact fun owned =>
      ⟨owned.distinct, owned.named, owned.held, fun hostname owner is => .inl (owned.used hostname owner is)⟩
  · exact fun owned => ⟨owned.distinct, owned.named, owned.held, fun hostname owner is =>
      (owned.used hostname owner is).resolve_right not_false⟩

section
variable {rows rows' : List HostnameRow} {spare spare' : Hostname → HostnameOwner → Prop}
  {hostname : Hostname} {owner : HostnameOwner}

theorem one_claim {other : HostnameOwner} (distinct : (rows.map HostnameRow.key).Nodup)
    (member : .claim ⟨hostname, owner⟩ ∈ rows) (member' : .claim ⟨hostname, other⟩ ∈ rows) : owner = other := by
  have one := inj_on_of_nodup_map distinct member member' rfl
  injection one with one
  injection one

theorem OneNameEach.of_before (named : OneNameEach rows) (before : ∀ row, HostnameRow.web row ∈ rows' →
    ∃ old, HostnameRow.web old ∈ rows ∧ old.id = row.id ∧ old.hostname = row.hostname) : OneNameEach rows' := by
  intro row other member member' same
  rcases before row member with ⟨old, there, id, name⟩
  rcases before other member' with ⟨old', there', id', name'⟩
  rw [← id, ← id']
  exact named old old' there there' (name.trans (same.trans name'.symm))

/-- A step that leaves the claims, and that leaves no name used without one. -/
theorem Claimed.of_claims (owned : Claimed spare rows) (distinct : (rows'.map HostnameRow.key).Nodup)
    (named : OneNameEach rows')
    (claims : ∀ claim, HostnameRow.claim claim ∈ rows' ↔ .claim claim ∈ rows)
    (held : ∀ hostname owner, Used rows' hostname owner → Used rows hostname owner ∨ .claim ⟨hostname, owner⟩ ∈ rows)
    (used : ∀ hostname owner, .claim ⟨hostname, owner⟩ ∈ rows → Used rows hostname owner ∨ spare hostname owner →
      Used rows' hostname owner ∨ spare' hostname owner) : Claimed spare' rows' := by
  refine ⟨distinct, named, fun hostname owner is => ?_, fun hostname owner is => ?_⟩
  · rw [claims]
    rcases held hostname owner is with before | claimed
    · exact owned.held hostname owner before
    · exact claimed
  · rw [claims] at is
    exact used hostname owner is (owned.used hostname owner is)

end

/-! ## Statements -/

section Statements
variable {rows : List HostnameRow} {spare : Hostname → HostnameOwner → Prop} {hostname : Hostname}
  {owner : HostnameOwner} {i : HostnameStatement}

/-- What is asked of rows that isn't changed by what becomes of claims. -/
def OfOthers (facts : List HostnameRow → Prop) : Prop :=
  ∀ rows rows', (∀ row : HostnameRow, row.hostnameClaim? = none → (row ∈ rows' ↔ row ∈ rows)) → facts rows → facts rows'

theorem ofOthers_true : OfOthers fun _ => True :=
  fun _ _ _ _ => trivial

theorem used_congr {rows' : List HostnameRow}
    (same : ∀ row : HostnameRow, row.hostnameClaim? = none → (row ∈ rows' ↔ row ∈ rows)) :
    Used rows' hostname owner ↔ Used rows hostname owner := by
  have others : ∀ row : HostnameRow, row.uses hostname owner = true → row.hostnameClaim? = none := by
    intro row uses
    cases row with
    | claim row => cases uses
    | _ => rfl
  constructor
  · rintro ⟨row, member, uses⟩
    exact ⟨row, (same row (others row uses)).mp member, uses⟩
  · rintro ⟨row, member, uses⟩
    exact ⟨row, (same row (others row uses)).mpr member, uses⟩

/-- A claim that is taken, or was held, belongs to its owner, and nothing else is claimed. -/
theorem ensures_claimHostname {facts : List HostnameRow → Prop} (others : OfOthers facts) :
    Ensures (fun rows => Claimed spare rows ∧ facts rows) (claimHostname owner hostname)
      fun _ rows => Claimed (fun h o => spare h o ∨ h = hostname ∧ o = owner) rows ∧ facts rows ∧
        .claim ⟨hostname, owner⟩ ∈ rows := by
  have inserted : Ensures (fun rows => Claimed spare rows ∧ facts rows)
      (HostnameProgram.run (.insertIgnoreClaim ⟨hostname, owner⟩))
      fun _ rows => Claimed (fun h o => spare h o ∨ h = hostname ∧ o = owner) rows ∧ facts rows := by
    refine ensures_run fun rows reply writes is does => ?_
    rcases is with ⟨owned, holds⟩
    cases does
    split
    · rename_i absent
      rw [List.isEmpty_iff, List.filter_eq_nil_iff] at absent
      have free : ∀ other, HostnameRow.claim ⟨hostname, other⟩ ∉ rows := by
        intro other member
        exact absent _ member (decide_eq_true rfl)
      have mem : ∀ row : HostnameRow, row ∈ hostnameDatabase.writeAll rows [.put (.claim ⟨hostname, owner⟩)] ↔
          row = .claim ⟨hostname, owner⟩ ∨ row ∈ rows := by
        intro row
        refine LockingDatabase.mem_put.trans (or_congr_right (and_iff_left_of_imp fun member key => ?_))
        cases row with
        | claim claim =>
          have same : claim.hostname = hostname := HostnameKey.claim.inj key
          rw [show claim = ⟨hostname, claim.owner⟩ by rw [← same]] at member
          exact free _ member
        | _ => cases key
      have same : ∀ row : HostnameRow, row.hostnameClaim? = none →
          (row ∈ hostnameDatabase.writeAll rows [.put (.claim ⟨hostname, owner⟩)] ↔ row ∈ rows) := by
        intro row other
        rw [mem]
        refine or_iff_right fun is => ?_
        rw [is] at other
        cases other
      refine ⟨⟨LockingDatabase.nodup_writeAll (D := hostnameDatabase) owned.distinct, ?_, fun h o is => ?_,
        fun h o is => ?_⟩, others _ _ same holds⟩
      · exact owned.named.of_before fun row member => ⟨row, (same _ rfl).mp member, rfl, rfl⟩
      · exact (mem _).mpr (.inr (owned.held h o ((used_congr same).mp is)))
      rcases (mem _).mp is with is | is
      · injection is with is
        exact .inr (.inr ⟨congrArg HostnameClaim.hostname is, congrArg HostnameClaim.owner is⟩)
      · rcases owned.used h o is with before | before
        · exact .inl ((used_congr same).mpr before)
        · exact .inr (.inl before)
    · exact ⟨⟨owned.distinct, owned.named, owned.held, fun h o is => (owned.used h o is).imp_right .inl⟩, holds⟩
  refine inserted.andThen fun _ => ?_
  have asked : Ensures (fun rows => Claimed (fun h o => spare h o ∨ h = hostname ∧ o = owner) rows ∧ facts rows)
      (HostnameProgram.run (.claimHolder hostname)) fun (holder : Option HostnameOwner) rows =>
        (Claimed (fun h o => spare h o ∨ h = hostname ∧ o = owner) rows ∧ facts rows) ∧
          (holder = some owner → .claim ⟨hostname, owner⟩ ∈ rows) := by
    refine ensures_run fun rows reply writes is does => ?_
    cases does
    refine ⟨is, fun held => ?_⟩
    rcases Option.map_eq_some_iff.mp held with ⟨claim, found, same⟩
    rcases List.exists_of_findSome?_eq_some found with ⟨row, member, is'⟩
    rw [List.mem_filter] at member
    cases row with
    | claim row =>
      obtain rfl := Option.some.inj is'
      have named : row.hostname = hostname := of_decide_eq_true member.2
      rw [← named, ← same]
      exact member.1
    | _ => exact absurd is'.symm (Option.some_ne_none _)
  refine asked.andThen fun holder => ?_
  split
  · rename_i held
    exact ensures_done fun rows is => ⟨is.1.1, is.1.2, is.2 held⟩
  · exact ensures_fail

theorem ensures_claimHostnames (spare : Hostname → HostnameOwner → Prop) (owner : HostnameOwner) (hostname : Hostname)
    {facts : List HostnameRow → Prop} (others : OfOthers facts) :
    Ensures (fun rows => Claimed spare rows ∧ facts rows) (claimHostnames owner [hostname])
      fun _ rows => Claimed (fun h o => spare h o ∨ h = hostname ∧ o = owner) rows ∧ facts rows ∧
        .claim ⟨hostname, owner⟩ ∈ rows :=
  (ensures_claimHostname others).andThen fun _ => ensures_done fun _ is => is

theorem mem_removals (covers : HostnameRow → Bool) (row : HostnameRow) (distinct : (rows.map HostnameRow.key).Nodup) :
    row ∈ hostnameDatabase.writeAll rows (removals (rows.filter covers)) ↔ row ∈ rows ∧ covers row = false :=
  LockingDatabase.mem_deletes (D := hostnameDatabase) distinct

variable {change : HostnameRow → HostnameRow}

theorem mem_updates (covers : HostnameRow → Bool) (row : HostnameRow)
    (distinct : (rows.map HostnameRow.key).Nodup) (keeps : ∀ row, (change row).key = row.key) :
    row ∈ hostnameDatabase.writeAll rows (updates (rows.filter covers) change) ↔
      ∃ before ∈ rows, row = if covers before then change before else before :=
  LockingDatabase.mem_puts (D := hostnameDatabase) distinct keeps

theorem nodup_writes {writes : List (RowWrite HostnameKey HostnameRow)} (distinct : (rows.map HostnameRow.key).Nodup) :
    ((hostnameDatabase.writeAll rows writes).map HostnameRow.key).Nodup :=
  LockingDatabase.nodup_writeAll (D := hostnameDatabase) distinct

/-- A release of the claims that are spare leaves every claim used. -/
theorem ensures_releaseUnused {scope : ReleaseScope} {hostnames : List Hostname}
    (covered : ∀ h o, spare h o → scope.covers o = true ∧ h ∈ hostnames) :
    Ensures (Claimed spare) (HostnameProgram.run (.releaseUnused scope hostnames)) fun _ => HostnamesOwned := by
  refine ensures_run fun rows reply writes owned does => ?_
  cases does
  rw [filter_filter]
  -- what is removed are claims that nothing uses
  have unused_iff : ∀ claim : HostnameClaim, HostnameRow.claim claim ∈ rows → scope.covers claim.owner = true →
      claim.hostname ∈ hostnames → (unused
        (rows.filter (locks (.releaseUnused scope hostnames))) (.claim claim) = true ↔
          ¬ Used rows claim.hostname claim.owner) := by
    intro claim member within named
    simp only [unused, all_eq_true, mem_filter, and_imp]
    constructor
    · rintro free ⟨row, there, uses⟩
      cases row with
      | web row =>
        simp only [HostnameRow.uses, Bool.and_eq_true, decide_eq_true_eq] at uses
        have here := free (.web row) there (decide_eq_true (uses.1.symm ▸ named))
        exact of_decide_eq_true here uses.1
      | domain row =>
        simp only [HostnameRow.uses, Bool.and_eq_true, decide_eq_true_eq] at uses
        have locked : locks (.releaseUnused scope hostnames) (.domain row) = true := by
          simp only [locks, Bool.and_eq_true, any_eq_true, decide_eq_true_eq]
          exact ⟨by rw [uses.2]; exact within, claim.hostname, uses.1, named⟩
        have here := free (.domain row) there locked
        simp only [Bool.or_eq_true, decide_eq_true_eq] at here
        exact here.elim (fun differs => differs uses.2) fun other => other uses.1
      | claim row => cases uses
    · intro free row there locked
      cases row with
      | web row =>
        refine decide_eq_true fun same => free ?_
        -- a web hostname of that name is its owner's
        have uses : HostnameRow.uses row.hostname row.owner (.web row) = true := by
          simp only [HostnameRow.uses, decide_true, Bool.and_self]
        have claimed := owned.held row.hostname row.owner ⟨_, there, uses⟩
        have one : row.owner = claim.owner := by
          rw [same] at claimed
          exact one_claim owned.distinct claimed member
        exact ⟨.web row, there, by rw [← same, ← one]; exact uses⟩
      | domain row =>
        simp only [Bool.or_eq_true, decide_eq_true_eq]
        by_cases same : row.owner = claim.owner
        · refine .inr fun named => free ⟨.domain row, there, ?_⟩
          simp only [HostnameRow.uses, Bool.and_eq_true, decide_eq_true_eq]
          exact ⟨named, same⟩
        · exact .inl same
      | claim row => rfl
  have mem := fun row => mem_removals (fun row =>
    unused (rows.filter (locks (.releaseUnused scope hostnames))) row &&
      locks (.releaseUnused scope hostnames) row) row owned.distinct
  have same : ∀ row : HostnameRow, row.hostnameClaim? = none → (row ∈ hostnameDatabase.writeAll rows
      (removals (rows.filter fun row => unused (rows.filter (locks (.releaseUnused scope hostnames))) row &&
          locks (.releaseUnused scope hostnames) row)) ↔ row ∈ rows) := by
    intro row other
    refine (mem row).trans (and_iff_left ?_)
    cases row with
    | claim row => cases other
    | _ => rfl
  refine ⟨nodup_writes owned.distinct, ?_, fun h o is => ?_, fun h o is => ?_⟩
  · exact owned.named.of_before fun row member => ⟨row, (same _ rfl).mp member, rfl, rfl⟩
  · have before := (used_congr same).mp is
    refine (mem _).mpr ⟨owned.held h o before, Bool.eq_false_iff.mpr fun gone => ?_⟩
    simp only [locks, Bool.and_eq_true, decide_eq_true_eq] at gone
    exact (unused_iff ⟨h, o⟩ (owned.held h o before) gone.2.1 gone.2.2).mp gone.1 before
  · rcases (mem _).mp is with ⟨member, stays⟩
    refine (used_congr same).mpr (Classical.byContradiction fun free => ?_)
    rcases (owned.used h o member).resolve_left free |> covered h o with ⟨within, named⟩
    have gone := (unused_iff ⟨h, o⟩ member within named).mpr free
    rw [gone, Bool.true_and] at stays
    simp only [locks, within, named, decide_true, Bool.and_self] at stays
    exact absurd stays.symm Bool.false_ne_true

/-- A change of rows leaves what web hostnames are called. -/
def KeepsNames (change : HostnameRow → HostnameRow) : Prop :=
  ∀ row new, change row = .web new → ∃ old, row = .web old ∧ old.id = new.id ∧ old.hostname = new.hostname

variable {covers : HostnameRow → Bool}

theorem OneNameEach.updates (named : OneNameEach rows) (distinct : (rows.map HostnameRow.key).Nodup)
    (keeps : ∀ row, (change row).key = row.key) (names : KeepsNames change) :
    OneNameEach (hostnameDatabase.writeAll rows (updates (rows.filter covers) change)) := by
  refine named.of_before fun row member => ?_
  rcases (mem_updates _ _ distinct keeps).mp member with ⟨before, there, is⟩
  split at is
  · rcases names before row is.symm with ⟨old, rfl, same⟩
    exact ⟨old, there, same⟩
  · exact ⟨row, is ▸ there, rfl, rfl⟩

theorem Claimed.updates (owned : Claimed spare rows) (keeps : ∀ row, (change row).key = row.key)
    (names : KeepsNames change) (claims : ∀ claim, change (.claim claim) = .claim claim)
    (uses : ∀ row h o, (change row).uses h o = row.uses h o) :
    Claimed spare (hostnameDatabase.writeAll rows (HostnameStatement.updates (rows.filter covers) change)) := by
  have mem := fun row => mem_updates covers row owned.distinct keeps
  have used : ∀ h o, Used (hostnameDatabase.writeAll rows (HostnameStatement.updates (rows.filter covers) change)) h o ↔
      Used rows h o := by
    intro h o
    constructor
    · rintro ⟨row, member, is⟩
      rcases (mem row).mp member with ⟨before, there, rfl⟩
      refine ⟨before, there, ?_⟩
      split at is
      · rwa [uses] at is
      · exact is
    · rintro ⟨row, member, is⟩
      refine ⟨_, (mem _).mpr ⟨row, member, rfl⟩, ?_⟩
      split
      · rwa [uses]
      · exact is
  have same : ∀ claim, HostnameRow.claim claim ∈ hostnameDatabase.writeAll rows
      (HostnameStatement.updates (rows.filter covers) change) ↔ .claim claim ∈ rows := by
    intro claim
    constructor
    · intro member
      rcases (mem _).mp member with ⟨before, there, is⟩
      split at is
      · cases before with
        | claim before =>
          rw [claims] at is
          rw [is]
          exact there
        | web before =>
          have key := keeps (.web before)
          rw [← is] at key
          cases key
        | domain before =>
          have key := keeps (.domain before)
          rw [← is] at key
          cases key
      · rw [is]
        exact there
    · intro member
      refine (mem _).mpr ⟨_, member, ?_⟩
      split
      · exact (claims claim).symm
      · rfl
  refine owned.of_claims (nodup_writes owned.distinct) (owned.named.updates owned.distinct keeps names) same
    (fun h o is => .inl ((used h o).mp is)) ?_
  exact fun h o _ before => before.imp_left (used h o).mpr

theorem Claimed.withStatus {status : WebHostnameStatus} (owned : Claimed spare rows) :
    Claimed spare (hostnameDatabase.writeAll rows
      (HostnameStatement.updates (rows.filter covers) (HostnameStatement.withStatus status))) := by
  refine owned.updates (fun row => ?_) (fun row new is => ?_) (fun _ => rfl) fun row h o => ?_
  · cases row <;> rfl
  · cases row with
    | web row =>
      cases is
      exact ⟨row, rfl, rfl, rfl⟩
    | _ => cases is
  · cases row <;> rfl

theorem Claimed.inserts {row : HostnameRow} (owned : Claimed spare rows) (absent : row.key ∉ rows.map HostnameRow.key)
    (plain : row.hostnameClaim? = none) (named : ∀ web, row = .web web → ∀ other, .web other ∈ rows →
      other.hostname ≠ web.hostname)
    (claimed : ∀ h o, row.uses h o = true → .claim ⟨h, o⟩ ∈ rows) (spares : ∀ h o, spare h o → row.uses h o = true) :
    HostnamesOwned (hostnameDatabase.writeAll rows [.put row]) := by
  have mem : ∀ other : HostnameRow, other ∈ hostnameDatabase.writeAll rows [.put row] ↔ other = row ∨ other ∈ rows := by
    intro other
    refine LockingDatabase.mem_put.trans (or_congr_right (and_iff_left_of_imp fun member key => ?_))
    exact absent (mem_map.mpr ⟨other, member, key⟩)
  refine owned_iff.mpr (owned.of_claims (nodup_writes owned.distinct) ?_ ?_ ?_ ?_)
  · intro web other member member' same
    rcases (mem _).mp member with is | member
    · rcases (mem _).mp member' with is' | member'
      · rw [HostnameRow.web.inj (is.trans is'.symm)]
      · exact absurd same.symm (named web is.symm other member')
    · rcases (mem _).mp member' with is' | member'
      · exact absurd same (named other is'.symm web member)
      · exact owned.named web other member member' same
  · intro claim
    refine (mem _).trans (or_iff_right fun is => ?_)
    rw [← is] at plain
    cases plain
  · rintro h o ⟨other, member, uses⟩
    rcases (mem other).mp member with rfl | member
    · exact .inr (claimed h o uses)
    · exact .inl ⟨other, member, uses⟩
  · rintro h o - (⟨other, member, uses⟩ | spares')
    · exact .inl ⟨other, (mem other).mpr (.inr member), uses⟩
    · exact .inl ⟨row, (mem row).mpr (.inl rfl), spares h o spares'⟩

theorem Claimed.removes {spare' : Hostname → HostnameOwner → Prop} (owned : Claimed spare rows)
    (plain : ∀ claim, covers (.claim claim) = false)
    (spares : ∀ h o, spare h o ∨ (∃ row ∈ rows, covers row = true ∧ row.uses h o = true) → spare' h o) :
    Claimed spare' (hostnameDatabase.writeAll rows (removals (rows.filter covers))) := by
  have mem := fun row => mem_removals covers row owned.distinct
  refine owned.of_claims (nodup_writes owned.distinct) ?_ ?_ ?_ ?_
  · exact owned.named.of_before fun row member => ⟨row, ((mem _).mp member).1, rfl, rfl⟩
  · exact fun claim => (mem _).trans (and_iff_left (plain claim))
  · rintro h o ⟨row, member, uses⟩
    exact .inl ⟨row, ((mem row).mp member).1, uses⟩
  · rintro h o - (⟨row, member, uses⟩ | before)
    · cases is : covers row with
      | true => exact .inr (spares h o (.inr ⟨row, member, is, uses⟩))
      | false => exact .inl ⟨row, (mem row).mpr ⟨member, is⟩, uses⟩
    · exact .inr (spares h o (.inl before))

end Statements

/-! ## Transactions that claim or let go -/

section Transactions
variable {spare : Hostname → HostnameOwner → Prop} {owner : HostnameOwner}

theorem Claimed.relax {spare' : Hostname → HostnameOwner → Prop} {rows : List HostnameRow} (owned : Claimed spare rows)
    (implies : ∀ h o, .claim ⟨h, o⟩ ∈ rows → spare h o → spare' h o) : Claimed spare' rows :=
  ⟨owned.distinct, owned.named, owned.held, fun h o is => (owned.used h o is).imp_right (implies h o is)⟩

theorem ensures_releaseUnusedHostnames {hostnames : List Hostname}
    (covered : ∀ h o, spare h o → o = owner ∧ h ∈ hostnames) :
    Ensures (Claimed spare) (releaseUnusedHostnames owner hostnames) fun _ => HostnamesOwned := by
  unfold releaseUnusedHostnames
  split
  · rename_i none_
    refine ensures_done fun rows owned => owned_iff.mpr (owned.relax fun h o _ is => ?_)
    rw [none_] at covered
    exact absurd (covered h o is).2 not_mem_nil
  · exact ensures_releaseUnused fun h o is => ⟨decide_eq_true (covered h o is).1, (covered h o is).2⟩

variable {relayId : String}

theorem ensures_releaseUnusedRelayHostnames (covered : ∀ h o, spare h o → o.relayId = relayId) :
    Ensures (Claimed spare) (releaseUnusedRelayHostnames relayId) fun _ => HostnamesOwned := by
  have asked : Ensures (Claimed spare) (HostnameProgram.run (.claimedHostnames relayId))
      fun (hostnames : List Hostname) => Claimed fun h o => spare h o ∧ h ∈ hostnames := by
    refine ensures_run fun rows reply writes owned does => ?_
    cases does
    refine owned.relax fun h o member is => ⟨is, ?_⟩
    refine mem_map.mpr ⟨⟨h, o⟩, mem_filterMap.mpr ⟨_, mem_filter.mpr ⟨member, ?_⟩, rfl⟩, rfl⟩
    exact decide_eq_true (covered h o is)
  refine asked.andThen fun hostnames => ?_
  exact ensures_releaseUnused fun h o is => ⟨decide_eq_true (covered h o is.1), is.2⟩

theorem ensures_handOverWebHostnames {hostnames : List Hostname} :
    Ensures HostnamesOwned (HostnameProgram.handOverWebHostnames hostnames) fun _ => HostnamesOwned := by
  unfold HostnameProgram.handOverWebHostnames
  split
  · exact ensures_done fun rows owned => owned
  · refine ensures_run fun rows reply writes owned does => ?_
    cases does
    exact owned_iff.mpr (owned_iff.mp owned).withStatus

theorem ensures_letGo {previous : List Hostname} (covered : ∀ h o, spare h o → o = owner ∧ h ∈ previous) :
    Ensures (Claimed spare) (letGo owner previous) fun _ => HostnamesOwned :=
  (ensures_releaseUnusedHostnames covered).andThen fun _ => ensures_handOverWebHostnames

theorem ensures_insertWebHostname {id hostname : String} :
    Ensures HostnamesOwned (HostnameProgram.insertWebHostname id owner hostname) fun _ => HostnamesOwned := by
  have claims := ensures_claimHostnames (fun _ _ => False) owner (.ofText hostname) ofOthers_true
  refine (claims.weaken (fun rows owned => ⟨owned_iff.mp owned, trivial⟩) fun _ _ is => is).andThen fun _ => ?_
  refine ensures_run fun rows reply writes is does => ?_
  simp only [HostnameStatement.does, Option.ite_none_right_eq_some, List.isEmpty_iff, List.filter_eq_nil_iff] at does
  rcases does with ⟨absent, does⟩
  cases does
  refine is.1.inserts (fun there => ?_) rfl ?_ (fun h o uses => ?_) fun h o is => ?_
  · rcases List.mem_map.mp there with ⟨row, member, key⟩
    cases row with
    | web row =>
      have same : row.id = id := HostnameKey.web.inj key
      exact absent _ member (by simp only [locks, same, decide_true, Bool.true_or])
    | _ => cases key
  · rintro web is' other member same
    rw [← HostnameRow.web.inj is'] at same
    exact absent _ member (by simp only [locks, same, decide_true, Bool.or_true])
  · simp only [HostnameRow.uses, Bool.and_eq_true, decide_eq_true_eq] at uses
    rw [← uses.1, ← uses.2]
    exact is.2.2
  · rcases is.resolve_left not_false with ⟨rfl, rfl⟩
    simp only [HostnameRow.uses, decide_true, Bool.and_self]

theorem ensures_insertInstanceDomain {id instanceId : String} {name : VanityName} :
    Ensures HostnamesOwned (HostnameProgram.insertInstanceDomain id relayId instanceId name) fun _ => HostnamesOwned := by
  have claims := ensures_claimHostnames (fun _ _ => False) ⟨relayId, .instance_, instanceId⟩ name.hostname ofOthers_true
  refine (claims.weaken (fun rows owned => ⟨owned_iff.mp owned, trivial⟩) fun _ _ is => is).andThen fun _ => ?_
  refine ensures_run fun rows reply writes is does => ?_
  simp only [HostnameStatement.does, Option.ite_none_right_eq_some, List.isEmpty_iff, List.filter_eq_nil_iff] at does
  rcases does with ⟨absent, does⟩
  cases does
  refine is.1.inserts (fun there => ?_) rfl (fun web is' => HostnameRow.noConfusion is') (fun h o uses => ?_)
    fun h o is => ?_
  · rcases List.mem_map.mp there with ⟨row, member, key⟩
    cases row with
    | domain row =>
      have same : row.id = id := HostnameKey.domain.inj key
      exact absent _ member (by simp only [locks, same, decide_true, Bool.true_or])
    | _ => cases key
  · simp only [HostnameRow.uses, InstanceDomain.hostnames, Option.toList_none, List.map_nil, List.mem_singleton,
      InstanceDomain.owner, Bool.and_eq_true, decide_eq_true_eq] at uses
    rw [uses.1, ← of_decide_eq_true uses.2]
    exact is.2.2
  · rcases is.resolve_left not_false with ⟨rfl, rfl⟩
    simp only [HostnameRow.uses, InstanceDomain.hostnames, List.mem_cons, true_or, InstanceDomain.owner, decide_true,
      Bool.and_self]

/-- The stored row is the one that was given, as far as its name and owner go, or gone. -/
theorem ensures_deleteWebHostname {row : WebHostname} :
    Ensures (fun rows => HostnamesOwned rows ∧ ∀ stored, HostnameRow.web stored ∈ rows → stored.id = row.id →
        stored.hostname = row.hostname ∧ stored.owner = row.owner)
      (HostnameProgram.deleteWebHostname row) fun _ => HostnamesOwned := by
  have removed : Ensures (fun rows => HostnamesOwned rows ∧ ∀ stored, HostnameRow.web stored ∈ rows →
        stored.id = row.id → stored.hostname = row.hostname ∧ stored.owner = row.owner)
      (HostnameProgram.run (.deleteWebHostname row.id)) fun _ => Claimed fun h o => h = row.hostname ∧ o = row.owner := by
    refine ensures_run fun rows reply writes is does => ?_
    cases does
    refine (owned_iff.mp is.1).removes (fun _ => rfl) ?_
    rintro h o (none_ | ⟨stored, member, locked, uses⟩)
    · exact none_.elim
    cases stored with
    | web stored =>
      simp only [HostnameRow.uses, Bool.and_eq_true, decide_eq_true_eq] at uses
      have same := is.2 stored member (of_decide_eq_true locked)
      exact ⟨uses.1.symm.trans same.1, uses.2.symm.trans same.2⟩
    | _ => cases locked
  refine removed.andThen fun _ => ensures_releaseUnusedHostnames ?_
  rintro h o ⟨rfl, rfl⟩
  exact ⟨rfl, mem_singleton_self _⟩

/-- The stored domain is the one that was given, as far as its names and owner go, or gone. -/
theorem ensures_deleteInstanceDomain {assignment : InstanceDomain} :
    Ensures (fun rows => HostnamesOwned rows ∧ ∀ stored, HostnameRow.domain stored ∈ rows → stored.id = assignment.id →
        stored.owner = assignment.owner ∧ ∀ h ∈ stored.hostnames, h ∈ assignment.hostnames)
      (HostnameProgram.deleteInstanceDomain assignment) fun _ => HostnamesOwned := by
  have removed : Ensures (fun rows => HostnamesOwned rows ∧ ∀ stored, HostnameRow.domain stored ∈ rows →
        stored.id = assignment.id → stored.owner = assignment.owner ∧ ∀ h ∈ stored.hostnames, h ∈ assignment.hostnames)
      (HostnameProgram.run (.deleteInstanceDomain assignment.id))
      fun _ => Claimed fun h o => o = assignment.owner ∧ h ∈ assignment.hostnames := by
    refine ensures_run fun rows reply writes is does => ?_
    cases does
    refine (owned_iff.mp is.1).removes (fun _ => rfl) ?_
    rintro h o (none_ | ⟨stored, member, locked, uses⟩)
    · exact none_.elim
    cases stored with
    | domain stored =>
      simp only [HostnameRow.uses, Bool.and_eq_true, decide_eq_true_eq] at uses
      have same := is.2 stored member (of_decide_eq_true locked)
      exact ⟨uses.2.symm.trans same.1, same.2 h uses.1⟩
    | _ => cases locked
  exact removed.andThen fun _ => ensures_letGo fun h o is => is

theorem ensures_deleteRelayWebHostnames :
    Ensures HostnamesOwned (HostnameProgram.deleteRelayWebHostnames relayId) fun _ => HostnamesOwned := by
  have removed : Ensures HostnamesOwned (HostnameProgram.run (.deleteRelayWebHostnames relayId))
      fun _ => Claimed fun _ o => o.relayId = relayId := by
    refine ensures_run fun rows reply writes owned does => ?_
    cases does
    refine (owned_iff.mp owned).removes (fun _ => rfl) ?_
    rintro h o (none_ | ⟨stored, member, locked, uses⟩)
    · exact none_.elim
    cases stored with
    | web stored =>
      simp only [HostnameRow.uses, Bool.and_eq_true, decide_eq_true_eq] at uses
      rw [← uses.2]
      exact of_decide_eq_true locked
    | _ => cases locked
  exact removed.andThen fun _ => ensures_releaseUnusedRelayHostnames fun _ _ is => is

theorem ensures_deleteRelayInstanceDomains :
    Ensures HostnamesOwned (HostnameProgram.deleteRelayInstanceDomains relayId) fun _ => HostnamesOwned := by
  have removed : Ensures HostnamesOwned (HostnameProgram.run (.deleteRelayInstanceDomains relayId))
      fun _ => Claimed fun _ o => o.relayId = relayId := by
    refine ensures_run fun rows reply writes owned does => ?_
    cases does
    refine (owned_iff.mp owned).removes (fun _ => rfl) ?_
    rintro h o (none_ | ⟨stored, member, locked, uses⟩)
    · exact none_.elim
    cases stored with
    | domain stored =>
      simp only [HostnameRow.uses, Bool.and_eq_true, decide_eq_true_eq] at uses
      rw [← uses.2]
      exact of_decide_eq_true locked
    | _ => cases locked
  exact removed.andThen fun _ => ensures_releaseUnusedRelayHostnames fun _ _ is => is

theorem ensures_markWebHostnamesRemoving {ids : List String} :
    Ensures HostnamesOwned (HostnameProgram.markWebHostnamesRemoving ids) fun _ => HostnamesOwned := by
  unfold HostnameProgram.markWebHostnamesRemoving
  split
  · exact ensures_done fun rows owned => owned
  · refine ensures_run fun rows reply writes owned does => ?_
    cases does
    exact owned_iff.mpr (owned_iff.mp owned).withStatus

theorem ensures_reviveWebHostnames {ids : List String} :
    Ensures HostnamesOwned (HostnameProgram.reviveWebHostnames ids) fun _ => HostnamesOwned := by
  unfold HostnameProgram.reviveWebHostnames
  split
  · exact ensures_done fun rows owned => owned
  · refine ensures_run fun rows reply writes owned does => ?_
    cases does
    exact owned_iff.mpr (owned_iff.mp owned).withStatus

end Transactions

/-! ## Transactions over one domain -/

section Domains
variable {spare spare' : Hostname → HostnameOwner → Prop} {id : String} {current : InstanceDomain}

theorem DomainChange.apply_id (change : DomainChange) : (change.apply current).id = current.id := by
  cases change <;> rfl

theorem DomainChange.apply_owner (change : DomainChange) : (change.apply current).owner = current.owner := by
  cases change <;> rfl

theorem ofOthers_domain : OfOthers fun rows => HostnameRow.domain current ∈ rows ∧ current.id = id :=
  fun _ _ same is => ⟨(same (.domain current) rfl).mpr is.1, is.2⟩

theorem ensures_lockAssignment : Ensures HostnamesOwned (lockAssignment id) fun current rows =>
    HostnamesOwned rows ∧ HostnameRow.domain current ∈ rows ∧ current.id = id := by
  have asked : Ensures HostnamesOwned (HostnameProgram.run (.lockAssignment id))
      fun (found : Option InstanceDomain) rows => HostnamesOwned rows ∧ ∀ current, found = some current →
        HostnameRow.domain current ∈ rows ∧ current.id = id := by
    refine ensures_run fun rows reply writes owned does => ?_
    cases does
    refine ⟨owned, fun current found => ?_⟩
    rcases exists_of_findSome?_eq_some found with ⟨row, member, is⟩
    rw [mem_filter] at member
    cases row with
    | domain row =>
      cases is
      exact ⟨member.1, of_decide_eq_true member.2⟩
    | _ => cases is
  refine asked.andThen fun found => ?_
  cases found with
  | some current => exact ensures_done fun rows is => ⟨is.1, is.2 current rfl⟩
  | none => exact ensures_fail

/-- The row of a domain is updated: its new names are claimed, and those it loses are spare. -/
theorem ensures_updateInstanceDomain (id : String) (current : InstanceDomain) (change : DomainChange)
    (spare spare' : Hostname → HostnameOwner → Prop)
    (spares : ∀ h o, spare h o ∨ h ∈ current.hostnames ∧ o = current.owner →
      h ∈ (change.apply current).hostnames ∧ o = current.owner ∨ spare' h o) :
    Ensures (fun rows => Claimed spare rows ∧ (HostnameRow.domain current ∈ rows ∧ current.id = id) ∧
        ∀ h ∈ (change.apply current).hostnames, .claim ⟨h, current.owner⟩ ∈ rows)
      (HostnameProgram.run (.updateInstanceDomain id change)) fun _ => Claimed spare' := by
  refine ensures_run fun rows reply writes is does => ?_
  rcases is with ⟨owned, ⟨there, is⟩, claimed⟩
  simp only [HostnameStatement.does, Option.ite_none_left_eq_some, any_eq_true, decide_eq_true_eq, not_exists,
    not_and, not_not] at does
  rcases does with ⟨alone, does⟩
  cases does
  have keeps : ∀ row, (withDomain change.apply row).key = row.key := by
    intro row
    cases row with
    | domain row =>
      simp only [withDomain, HostnameRow.key, apply_id]
    | _ => rfl
  have locked : locks (.updateInstanceDomain id change) (.domain current) = true := by
    simp only [locks, is, decide_true, Bool.true_or]
  have only : ∀ row ∈ rows, locks (.updateInstanceDomain id change) row = true → row = .domain current := by
    intro row member covered
    have key := alone row (mem_filter.mpr ⟨member, covered⟩)
    refine inj_on_of_nodup_map owned.distinct member there (key.trans ?_)
    rw [HostnameRow.key, is]
  -- the domain's row is changed, and no other
  have mem : ∀ row, row ∈ hostnameDatabase.writeAll rows (updates
      (rows.filter (locks (.updateInstanceDomain id change)))
      (withDomain change.apply)) ↔ row = .domain (change.apply current) ∨ row ∈ rows ∧ row ≠ .domain current := by
    intro row
    refine (mem_updates _ _ owned.distinct keeps).trans ?_
    constructor
    · rintro ⟨before, member, rfl⟩
      split
      · rename_i covered
        obtain rfl := only before member covered
        exact .inl rfl
      · rename_i uncovered
        exact .inr ⟨member, fun same => uncovered (same ▸ locked)⟩
    · rintro (rfl | ⟨member, other⟩)
      · exact ⟨_, there, by rw [if_pos locked]; rfl⟩
      · refine ⟨row, member, ?_⟩
        split
        · exact absurd (only row member ‹_›) other
        · rfl
  refine owned.of_claims (nodup_writes owned.distinct) ?_ ?_ ?_ ?_
  · refine owned.named.of_before fun row member => ⟨row, ?_, rfl, rfl⟩
    rcases (mem _).mp member with is | ⟨member, -⟩
    · cases is
    · exact member
  · intro claim
    refine (mem _).trans ?_
    constructor
    · rintro (is | ⟨member, -⟩)
      · cases is
      · exact member
    · exact fun member => .inr ⟨member, by simp⟩
  · rintro h o ⟨row, member, uses⟩
    rcases (mem row).mp member with rfl | ⟨member, -⟩
    · simp only [HostnameRow.uses, Bool.and_eq_true, decide_eq_true_eq, apply_owner] at uses
      exact .inr (uses.2 ▸ claimed h uses.1)
    · exact .inl ⟨row, member, uses⟩
  intro h o _ before
  have used : h ∈ (change.apply current).hostnames ∧ o = current.owner → Used (hostnameDatabase.writeAll rows (updates
        (rows.filter (locks (.updateInstanceDomain id change)))
        (withDomain change.apply))) h o := by
    rintro ⟨named, rfl⟩
    refine ⟨_, (mem _).mpr (.inl rfl), ?_⟩
    simp only [HostnameRow.uses, named, apply_owner, decide_true, Bool.and_self]
  rcases before with ⟨row, member, uses⟩ | before
  · by_cases same : row = .domain current
    · rw [same] at uses
      simp only [HostnameRow.uses, Bool.and_eq_true, decide_eq_true_eq] at uses
      exact (spares h o (.inr ⟨uses.1, uses.2.symm⟩)).imp_left used
    · exact .inl ⟨row, (mem row).mpr (.inr ⟨member, same⟩), uses⟩
  · exact (spares h o (.inl before)).imp_left used

theorem ensures_markInstanceDomainRemoving :
    Ensures HostnamesOwned (HostnameProgram.markInstanceDomainRemoving id) fun _ => HostnamesOwned := by
  refine ensures_run fun rows reply writes owned does => ?_
  simp only [HostnameStatement.does, Option.ite_none_left_eq_some] at does
  cases does.2
  refine owned_iff.mpr ((owned_iff.mp owned).updates (fun row => ?_) (fun row new is => ?_) (fun _ => rfl)
    fun row h o => ?_)
  · cases row <;> rfl
  · cases row with
    | web row => exact ⟨row, rfl, by rw [HostnameRow.web.inj is], by rw [HostnameRow.web.inj is]⟩
    | _ => cases is
  · cases row <;> rfl

variable {name : VanityName}

theorem ensures_claimFor :
    Ensures (fun rows => HostnamesOwned rows ∧ HostnameRow.domain current ∈ rows ∧ current.id = id)
      (claimHostnames current.owner [name.hostname])
      fun _ rows => Claimed (fun h o => h = name.hostname ∧ o = current.owner) rows ∧
        (HostnameRow.domain current ∈ rows ∧ current.id = id) ∧ .claim ⟨name.hostname, current.owner⟩ ∈ rows := by
  refine (ensures_claimHostnames (fun _ _ => False) _ _ ofOthers_domain).weaken
    (fun rows is => ⟨owned_iff.mp is.1, is.2⟩) fun _ rows is => ⟨?_, is.2⟩
  exact is.1.relax fun h o _ is => is.resolve_left not_false

theorem ensures_reserveInstanceDomain :
    Ensures HostnamesOwned (HostnameProgram.reserveInstanceDomain id name) fun _ => HostnamesOwned := by
  refine ensures_lockAssignment.andThen fun current => ?_
  split
  · exact ensures_fail
  refine ensures_claimFor.andThen fun _ => ?_
  have updated := ensures_updateInstanceDomain id current (.reserve name)
    (fun h o => h = name.hostname ∧ o = current.owner)
    (fun h o => o = current.owner ∧ h ∈ current.hostnames.filter (· ≠ name.hostname)) (by
      rintro h o (⟨rfl, rfl⟩ | ⟨named, rfl⟩)
      · exact .inl ⟨mem_cons_self, rfl⟩
      · by_cases same : h = name.hostname
        · exact .inl ⟨same ▸ mem_cons_self, rfl⟩
        · exact .inr ⟨rfl, mem_filter.mpr ⟨named, decide_eq_true same⟩⟩)
  refine (updated.weaken (fun rows is => ⟨is.1, is.2.1, fun h named => ?_⟩) fun _ _ is => is).andThen fun _ =>
    ensures_letGo fun h o is => is
  simp only [apply, InstanceDomain.hostnames, Option.toList_none, map_nil, mem_singleton] at named
  exact named ▸ is.2.2

theorem ensures_storeNext (next : ∀ other, current.next = some other → other = name) :
    Ensures (fun rows => HostnamesOwned rows ∧ HostnameRow.domain current ∈ rows ∧ current.id = id)
      ((claimHostnames current.owner [name.hostname]).andThen fun _ =>
        HostnameProgram.run (.updateInstanceDomain id (.beginRename name))) fun _ => HostnamesOwned := by
  refine ensures_claimFor.andThen fun _ => ?_
  have hostnames : ((beginRename name).apply current).hostnames = [current.name.hostname, name.hostname] := rfl
  have updated := ensures_updateInstanceDomain id current (.beginRename name)
    (fun h o => h = name.hostname ∧ o = current.owner) (fun _ _ => False) (by
      rw [hostnames]
      rintro h o (⟨rfl, rfl⟩ | ⟨named, rfl⟩)
      · exact .inl ⟨by simp, rfl⟩
      · simp only [InstanceDomain.hostnames, mem_cons, mem_map, Option.mem_toList] at named
        rcases named with rfl | ⟨other, is, rfl⟩
        · exact .inl ⟨mem_cons_self, rfl⟩
        · exact .inl ⟨by rw [next other is]; simp, rfl⟩)
  refine updated.weaken (fun rows is => ⟨is.1, is.2.1, fun h named => ?_⟩) fun _ _ is => owned_iff.mpr is
  rw [hostnames] at named
  rcases mem_cons.mp named with rfl | named
  · -- the name that it has is held, by the row or by the claim just taken
    refine is.1.held _ _ ⟨_, is.2.1.1, ?_⟩
    simp only [HostnameRow.uses, InstanceDomain.hostnames, mem_cons, true_or, decide_true, Bool.and_self]
  · rw [mem_singleton.mp named]
    exact is.2.2

theorem ensures_beginInstanceDomainRename :
    Ensures HostnamesOwned (HostnameProgram.beginInstanceDomainRename id name) fun _ => HostnamesOwned := by
  refine ensures_lockAssignment.andThen fun current => ?_
  split
  · rename_i next is
    split
    · exact ensures_fail
    · rename_i same
      refine ensures_storeNext fun other is' => ?_
      rw [← Option.some.inj (is.symm.trans is')]
      exact not_not.mp same
  · rename_i none_
    exact ensures_storeNext fun other is => absurd (is.symm.trans none_) (Option.some_ne_none _)

theorem ensures_finishInstanceDomainRename :
    Ensures HostnamesOwned (HostnameProgram.finishInstanceDomainRename id) fun _ => HostnamesOwned := by
  refine ensures_lockAssignment.andThen fun current => ?_
  split
  · exact ensures_done fun rows is => is.1
  rename_i next is
  have updated := ensures_updateInstanceDomain id current (.finishRename next)
    (fun _ _ => False) (fun h o => o = current.owner ∧ h ∈ [current.name.hostname]) (by
      rintro h o (none_ | ⟨named, rfl⟩)
      · exact none_.elim
      · simp only [InstanceDomain.hostnames, is, Option.toList_some, map_cons, map_nil, mem_cons,
          not_mem_nil, or_false] at named
        rcases named with rfl | rfl
        · exact .inr ⟨rfl, mem_singleton_self _⟩
        · exact .inl ⟨mem_cons_self, rfl⟩)
  refine (updated.weaken (fun rows before => ⟨owned_iff.mp before.1, before.2, fun h named => ?_⟩)
    fun _ _ is => is).andThen fun _ => ensures_letGo fun h o is => is
  simp only [apply, InstanceDomain.hostnames, Option.toList_none, map_nil, mem_singleton] at named
  refine before.1.held _ _ ⟨_, before.2.1, ?_⟩
  simp only [HostnameRow.uses, InstanceDomain.hostnames, is, Option.toList_some, map_cons, map_nil, named,
    mem_cons, true_or, or_true, decide_true, Bool.and_self]

end Domains

/-! ## Moves -/

/-- The rows are those of before, each changed by `move`. -/
structure Moved (before : List HostnameRow) (move : HostnameRow → HostnameRow) (rows : List HostnameRow) : Prop where
  distinct : (rows.map HostnameRow.key).Nodup
  mem : ∀ row, row ∈ rows ↔ ∃ old ∈ before, row = move old

section Moves
variable {before rows : List HostnameRow} {move : HostnameRow → HostnameRow} {source target : HostnameOwner}

theorem ensures_updates {i : HostnameStatement} {change : HostnameRow → HostnameRow}
    (does : ∀ rows reply writes, i.does rows = some (reply, writes) → writes = updates rows change)
    (keeps : ∀ row, (change row).key = row.key) :
    Ensures (Moved before move) (HostnameProgram.run i)
      fun _ => Moved before fun row => if i.locks (move row) then change (move row) else move row := by
  refine ensures_run fun rows reply writes moved made => ?_
  obtain rfl := does _ _ _ made
  refine ⟨nodup_writes moved.distinct, fun row => (mem_updates _ _ moved.distinct keeps).trans ?_⟩
  constructor
  · rintro ⟨middle, member, rfl⟩
    rcases (moved.mem middle).mp member with ⟨old, there, rfl⟩
    exact ⟨old, there, rfl⟩
  · rintro ⟨old, there, rfl⟩
    exact ⟨move old, (moved.mem _).mpr ⟨old, there, rfl⟩, rfl⟩

/-- Names that move with their claims: those of the rows that move, each of them used by one, and by none that stays
behind. -/
theorem Moved.owned (moved : Moved before move rows) (moves : HostnameRow → Prop) (names : List Hostname)
    (owned : HostnamesOwned before)
    (claims : ∀ claim : HostnameClaim, move (.claim claim) =
      if claim.owner = source ∧ claim.hostname ∈ names then .claim { claim with owner := target } else .claim claim)
    (plain : ∀ row, row.hostnameClaim? = none → (move row).hostnameClaim? = none) (names' : KeepsNames move)
    (taken : ∀ row h o, moves row → ((move row).uses h o = true ↔ row.uses h source = true ∧ o = target))
    (left : ∀ row h o, row.hostnameClaim? = none → ¬ moves row → (move row).uses h o = row.uses h o)
    (sources : ∀ row h o, moves row → row.uses h o = true → o = source)
    (named : ∀ row ∈ before, ∀ h, moves row → row.uses h source = true → h ∈ names)
    (carried : ∀ h ∈ names, ∃ row ∈ before, moves row ∧ row.uses h source = true)
    (stays : source ≠ target → ∀ row ∈ before, ∀ h, ¬ moves row → row.uses h source = true → h ∉ names) :
    HostnamesOwned rows := by
  have noClaim : ∀ row : HostnameRow, ∀ h o, row.uses h o = true → row.hostnameClaim? = none := by
    intro row h o uses
    cases row with
    | claim row => cases uses
    | _ => rfl
  have claimed : ∀ claim : HostnameClaim, HostnameRow.claim claim ∈ before → move (.claim claim) ∈ rows :=
    fun claim member => (moved.mem _).mpr ⟨_, member, rfl⟩
  refine ⟨moved.distinct, owned.named.of_before fun row member => ?_, fun h o => ?_, fun h o is => ?_⟩
  · rcases (moved.mem _).mp member with ⟨old, there, is⟩
    rcases names' old row is.symm with ⟨web, rfl, same⟩
    exact ⟨web, there, same⟩
  · rintro ⟨row, member, uses⟩
    rcases (moved.mem row).mp member with ⟨old, there, rfl⟩
    by_cases goes : moves old
    · rcases (taken old h o goes).mp uses with ⟨uses, rfl⟩
      have claim := claimed _ (owned.held h source ⟨old, there, uses⟩)
      rwa [claims, if_pos ⟨rfl, named old there h goes uses⟩] at claim
    have other : old.hostnameClaim? = none := by
      cases old with
      | claim claim =>
        rw [claims] at uses
        split at uses
        · cases uses
        · cases uses
      | _ => rfl
    rw [left old h o other goes] at uses
    have claim := claimed _ (owned.held h o ⟨old, there, uses⟩)
    rw [claims] at claim
    split at claim
    · rename_i is
      have same : o = source := is.1
      by_cases one : source = target
      · rw [same, one]
        exact claim
      · exact absurd is.2 (stays one old there h goes (same ▸ uses))
    · exact claim
  · rcases (moved.mem _).mp is with ⟨old, there, is⟩
    have claim : ∃ claim, old = .claim claim := by
      cases old with
      | claim claim => exact ⟨claim, rfl⟩
      | web row =>
        have none_ := plain (.web row) rfl
        rw [← is] at none_
        cases none_
      | domain row =>
        have none_ := plain (.domain row) rfl
        rw [← is] at none_
        cases none_
    rcases claim with ⟨claim, rfl⟩
    rw [claims] at is
    split at is
    · rename_i goes
      cases is
      rcases carried _ goes.2 with ⟨row, member, moves', uses⟩
      exact ⟨move row, (moved.mem _).mpr ⟨row, member, rfl⟩, (taken row _ _ moves').mpr ⟨uses, rfl⟩⟩
    rename_i stayed
    cases is
    rcases owned.used h o there with ⟨row, member, uses⟩
    by_cases goes : moves row
    · obtain rfl := sources row h o goes uses
      exact absurd ⟨rfl, named row member h goes uses⟩ stayed
    · exact ⟨move row, (moved.mem _).mpr ⟨row, member, rfl⟩, by
        rw [left row h o (noClaim row h o uses) goes]
        exact uses⟩

theorem Moved.congr {move' : HostnameRow → HostnameRow} (moved : Moved before move rows)
    (same : ∀ row, move row = move' row) : Moved before move' rows := by
  obtain rfl : move = move' := funext same
  exact moved

/-- What a move makes of each row: web hostnames that aren't being removed and claims of the names, and domains. -/
def moveRow (source target : HostnameOwner) (names : List Hostname) (movesDomain : InstanceDomain → Bool) :
    HostnameRow → HostnameRow
  | .web row =>
    if row.owner = source ∧ row.status ≠ .removing ∧ row.hostname ∈ names then .web { row with owner := target }
    else .web row
  | .domain row =>
    if movesDomain row then .domain { row with relayId := target.relayId, instanceId := target.resourceId }
    else .domain row
  | .claim claim =>
    if claim.owner = source ∧ claim.hostname ∈ names then .claim { claim with owner := target } else .claim claim

theorem HostnamesOwned.moveRow {names : List Hostname} {movesDomain : InstanceDomain → Bool}
    (owned : HostnamesOwned before) (moved : Moved before (moveRow source target names movesDomain) rows)
    (ofSource : ∀ row, movesDomain row = true → row.owner = source ∧ target.resourceType = .instance_)
    (within : ∀ row, .domain row ∈ before → movesDomain row = true → ∀ h ∈ row.hostnames, h ∈ names)
    (carried : ∀ h ∈ names, (∃ row, .web row ∈ before ∧ row.owner = source ∧ row.status ≠ .removing ∧ row.hostname = h) ∨
      ∃ row, .domain row ∈ before ∧ movesDomain row = true ∧ h ∈ row.hostnames)
    (stays : source ≠ target →
      (∀ row, .web row ∈ before → row.owner = source → row.status = .removing → row.hostname ∉ names) ∧
        ∀ row, .domain row ∈ before → row.owner = source → movesDomain row = false → ∀ h ∈ row.hostnames, h ∉ names) :
    HostnamesOwned rows := by
  let moves : HostnameRow → Prop
    | .web row => row.owner = source ∧ row.status ≠ .removing ∧ row.hostname ∈ names
    | .domain row => movesDomain row = true
    | .claim _ => False
  refine moved.owned moves names owned (fun claim => rfl) ?_ ?_ ?_ ?_ ?_ ?_ ?_ ?_
  · intro row plain
    cases row with
    | web row =>
      simp only [Kiln.Hearth.moveRow]
      split <;> rfl
    | domain row =>
      simp only [Kiln.Hearth.moveRow]
      split <;> rfl
    | claim row => cases plain
  · intro row new is
    cases row with
    | web row =>
      simp only [Kiln.Hearth.moveRow] at is
      split at is
      · cases is
        exact ⟨row, rfl, rfl, rfl⟩
      · obtain rfl := HostnameRow.web.inj is
        exact ⟨row, rfl, rfl, rfl⟩
    | domain row =>
      simp only [Kiln.Hearth.moveRow] at is
      split at is <;> exact HostnameRow.noConfusion is
    | claim row =>
      simp only [Kiln.Hearth.moveRow] at is
      split at is <;> exact HostnameRow.noConfusion is
  · intro row h o goes
    cases row with
    | web row =>
      have goes' : row.owner = source ∧ row.status ≠ .removing ∧ row.hostname ∈ names := goes
      simp only [Kiln.Hearth.moveRow, if_pos goes', HostnameRow.uses, Bool.and_eq_true, decide_eq_true_eq]
      rw [and_iff_left goes'.1]
      exact and_congr_right fun _ => eq_comm
    | domain row =>
      have goes' : movesDomain row = true := goes
      rcases ofSource row goes' with ⟨is, type⟩
      have owner : (⟨target.relayId, .instance_, target.resourceId⟩ : HostnameOwner) = target := by rw [← type]
      simp only [Kiln.Hearth.moveRow, if_pos goes', HostnameRow.uses, Bool.and_eq_true, decide_eq_true_eq, is, and_true,
        InstanceDomain.hostnames]
      rw [InstanceDomain.owner, owner]
      exact and_congr_right fun _ => eq_comm
    | claim row => exact goes.elim
  · intro row h o plain stays'
    cases row with
    | web row =>
      simp only [Kiln.Hearth.moveRow, if_neg (show ¬ (row.owner = source ∧ row.status ≠ .removing ∧ row.hostname ∈ names)
        from stays')]
    | domain row => simp only [Kiln.Hearth.moveRow, if_neg (show ¬ movesDomain row = true from stays')]
    | claim row => cases plain
  · intro row h o goes uses
    cases row with
    | web row =>
      simp only [HostnameRow.uses, Bool.and_eq_true, decide_eq_true_eq] at uses
      exact uses.2.symm.trans (show row.owner = source from goes.1)
    | domain row =>
      simp only [HostnameRow.uses, Bool.and_eq_true, decide_eq_true_eq] at uses
      exact uses.2.symm.trans (ofSource row goes).1
    | claim row => exact goes.elim
  · intro row member h goes uses
    cases row with
    | web row =>
      simp only [HostnameRow.uses, Bool.and_eq_true, decide_eq_true_eq] at uses
      exact uses.1 ▸ goes.2.2
    | domain row =>
      simp only [HostnameRow.uses, Bool.and_eq_true, decide_eq_true_eq] at uses
      exact within row member goes h uses.1
    | claim row => exact goes.elim
  · intro h named
    rcases carried h named with ⟨row, member, is, status, rfl⟩ | ⟨row, member, goes, named'⟩
    · refine ⟨.web row, member, ⟨is, status, named⟩, ?_⟩
      simp only [HostnameRow.uses, is, decide_true, Bool.and_self]
    · refine ⟨.domain row, member, goes, ?_⟩
      simp only [HostnameRow.uses, named', (ofSource row goes).1, decide_true, Bool.and_self]
  · intro differs row member h stays' uses named
    cases row with
    | web row =>
      simp only [HostnameRow.uses, Bool.and_eq_true, decide_eq_true_eq] at uses
      rcases uses with ⟨rfl, is⟩
      have removing : row.status = .removing := by
        by_contra status
        exact stays' ⟨is, status, named⟩
      exact (stays differs).1 row member is removing named
    | domain row =>
      simp only [HostnameRow.uses, Bool.and_eq_true, decide_eq_true_eq] at uses
      exact (stays differs).2 row member uses.2 (Bool.eq_false_iff.mpr stays') h uses.1 named
    | claim row => cases uses

theorem moved_self (distinct : (before.map HostnameRow.key).Nodup) : Moved before id before :=
  ⟨distinct, fun row => ⟨fun member => ⟨row, member, rfl⟩, fun ⟨_, member, same⟩ => same ▸ member⟩⟩

theorem withOwner_key (row : HostnameRow) : (withOwner target row).key = row.key := by
  cases row <;> rfl

theorem ensures_moveHostnameClaims {names : List Hostname} (some' : names ≠ []) :
    Ensures (Moved before move) (moveHostnameClaims source target names) fun _ =>
      Moved before fun row => if locks (.moveClaims source target names) (move row) then
        withOwner target (move row) else move row := by
  rw [moveHostnameClaims, if_neg some']
  refine ensures_updates (fun rows reply writes made => ?_) withOwner_key
  exact (Prod.mk.inj (Option.some.inj made)).2.symm

theorem ensures_of_rows {α : Type} {pre : List HostnameRow → Prop} {program : HostnameProgram (Except HostnameError α)}
    {post : α → List HostnameRow → Prop} (all : ∀ before, pre before → Ensures (· = before) program post) :
    Ensures pre program post :=
  fun rows held is => all rows is rows held rfl

theorem ensures_reassignWebHostnames {domains : List InstanceDomain} :
    Ensures (fun rows => HostnamesOwned rows ∧ (source = target ∨ stillShared source domains rows = true))
      (HostnameProgram.reassignWebHostnames source target domains) fun _ => HostnamesOwned := by
  refine ensures_of_rows fun before ⟨owned, shared⟩ => ?_
  have asked : Ensures (· = before) (HostnameProgram.run (.webHostnamesToMove source domains))
      fun (names : List Hostname) rows => rows = before ∧ ∀ h, h ∈ names ↔ ∃ row, .web row ∈ before ∧
        row.owner = source ∧ row.status ≠ .removing ∧ sharedWithDomain domains row = false ∧ row.hostname = h := by
    refine ensures_run fun rows reply writes is does => ?_
    cases does
    refine ⟨is, fun h => ?_⟩
    rw [is]
    simp only [mem_map, mem_filter, mem_filterMap, Bool.not_eq_true']
    constructor
    · rintro ⟨row, ⟨⟨stored, ⟨member, locked⟩, is⟩, alone⟩, named⟩
      cases stored with
      | web stored =>
        obtain rfl := Option.some.inj is
        simp only [locks, Bool.and_eq_true, decide_eq_true_eq] at locked
        exact ⟨stored, member, locked.1, locked.2, alone, named⟩
      | _ => cases is
    · rintro ⟨row, member, is, status, alone, named⟩
      refine ⟨row, ⟨⟨.web row, ⟨member, ?_⟩, rfl⟩, alone⟩, named⟩
      simp only [locks, is, status, decide_true, ne_eq, not_false_eq_true, Bool.and_self]
  refine asked.andThen fun names => ?_
  split
  · refine ensures_done fun rows is => ?_
    rw [is.1]
    exact owned
  rename_i some'
  refine ensures_of_rows fun rows ⟨is, names_iff⟩ => ?_
  subst is
  have webs : Ensures (Moved rows id) (HostnameProgram.run (.moveWebHostnames source target names)) fun _ =>
      Moved rows fun row => if locks (.moveWebHostnames source target names) (id row) then
        withOwner target (id row) else id row :=
    ensures_updates (fun rows reply writes made => (Prod.mk.inj (Option.some.inj made)).2.symm) withOwner_key
  have start : ∀ before, before = rows → Moved rows id before := by
    rintro before rfl
    exact moved_self owned.distinct
  refine (webs.weaken start fun _ _ is => is).andThen fun _ => ?_
  refine (ensures_moveHostnameClaims some').andThen fun _ => ensures_done fun after moved => ?_
  have all : Moved rows (moveRow source target names fun _ => false) after := by
    refine moved.congr fun row => ?_
    cases row <;> simp only [id, locks, withOwner, moveRow] <;> grind
  refine owned.moveRow all (by simp) (by simp) (fun h named => ?_) (fun differs =>
    ⟨fun row member is removing named => ?_, fun row member is _ h uses named => ?_⟩)
  · rcases (names_iff h).mp named with ⟨row, member, is, status, -, rfl⟩
    exact .inl ⟨row, member, is, status, rfl⟩
  · rcases (names_iff _).mp named with ⟨other, member', -, status, -, same⟩
    have one := owned.named row other member member' same.symm
    have key : HostnameRow.key (.web row) = HostnameRow.key (.web other) := congrArg HostnameKey.web one
    have same' := HostnameRow.web.inj (inj_on_of_nodup_map owned.distinct member member' key)
    exact status (same' ▸ removing)
  rcases (names_iff h).mp named with ⟨other, member', is', status, alone, rfl⟩
  have before := all_eq_true.mp (shared.resolve_left differs) _ member'
  simp only [is', status, alone, Bool.or_false, Bool.not_eq_true', decide_false, ne_eq, not_true_eq_false,
    Bool.false_or] at before
  -- the domain shares the name by now
  have now : sharedWithDomain (instanceDomains rows) other = true := by
    simp only [sharedWithDomain, Bool.and_eq_true, decide_eq_true_eq, any_eq_true]
    refine ⟨?_, row, mem_filterMap.mpr ⟨_, member, rfl⟩, is.trans is'.symm, uses⟩
    rw [is', ← is]
    rfl
  rw [now] at before
  exact absurd before.symm Bool.false_ne_true

theorem ensures_reassignInstanceDomains {relayId instanceId toRelayId toInstanceId : String} :
    Ensures (fun rows => HostnamesOwned rows ∧
        ((⟨relayId, .instance_, instanceId⟩ : HostnameOwner) = ⟨toRelayId, .instance_, toInstanceId⟩ ∨
          staysApart ⟨relayId, .instance_, instanceId⟩ rows = true))
      (HostnameProgram.reassignInstanceDomains relayId instanceId toRelayId toInstanceId) fun _ => HostnamesOwned := by
  refine ensures_of_rows fun before ⟨owned, apart⟩ => ?_
  let movesDomain : InstanceDomain → Bool := fun row =>
    row.owner = ⟨relayId, .instance_, instanceId⟩ && row.status ≠ .removing
  have owner_iff : ∀ row : InstanceDomain, row.owner = ⟨relayId, .instance_, instanceId⟩ ↔
      row.relayId = relayId ∧ row.instanceId = instanceId := by
    intro row
    simp [InstanceDomain.owner]
  have locks_iff : ∀ row : InstanceDomain,
      (row.relayId = relayId && row.instanceId = instanceId && row.status ≠ .removing) = movesDomain row := by
    intro row
    simp only [movesDomain, owner_iff, Bool.decide_and]
  have asked : Ensures (· = before) (HostnameProgram.run (.domainsToMove relayId instanceId))
      fun (moving : List InstanceDomain) rows => rows = before ∧
        moving = (instanceDomains before).filter movesDomain := by
    refine ensures_run fun rows reply writes is does => ?_
    cases does
    refine ⟨is, ?_⟩
    rw [is, instanceDomains, filter_filterMap, filterMap_filter]
    refine filterMap_congr fun row _ => ?_
    cases row with
    | domain row =>
      simp only [locks, HostnameRow.instanceDomain?, locks_iff, Option.filter_some]
    | _ => simp [locks, HostnameRow.instanceDomain?]
  refine asked.andThen fun moving => ?_
  split
  · refine ensures_done fun rows is => ?_
    rw [is.1]
    exact owned
  rename_i some'
  refine ensures_of_rows fun rows ⟨is, moving_is⟩ => ?_
  subst is
  have moving_iff : ∀ row, row ∈ moving ↔ .domain row ∈ rows ∧ movesDomain row = true := by
    intro row
    rw [moving_is, mem_filter, instanceDomains, mem_filterMap]
    refine and_congr_left fun _ => ⟨?_, fun member => ⟨_, member, rfl⟩⟩
    rintro ⟨stored, member, is⟩
    cases stored with
    | domain stored => exact Option.some.inj is ▸ member
    | _ => cases is
  have names_iff : ∀ h, h ∈ moving.flatMap InstanceDomain.hostnames ↔
      ∃ row, .domain row ∈ rows ∧ movesDomain row = true ∧ h ∈ row.hostnames := by
    intro h
    simp only [mem_flatMap, moving_iff, and_assoc]
  have named : moving.flatMap InstanceDomain.hostnames ≠ [] := by
    rcases exists_mem_of_ne_nil _ some' with ⟨row, member⟩
    refine ne_nil_of_mem (a := row.name.hostname) (mem_flatMap.mpr ⟨row, member, mem_cons_self⟩)
  have start : ∀ before, before = rows → Moved rows id before := by
    rintro before rfl
    exact moved_self owned.distinct
  have domains : Ensures (Moved rows id)
      (HostnameProgram.run (.moveInstanceDomains relayId instanceId toRelayId toInstanceId)) fun _ =>
        Moved rows fun row =>
          if locks (.moveInstanceDomains relayId instanceId toRelayId toInstanceId) (id row) then
            withDomain (fun row => { row with relayId := toRelayId, instanceId := toInstanceId }) (id row)
          else id row :=
    ensures_updates (fun rows reply writes made => (Prod.mk.inj (Option.some.inj made)).2.symm) fun row => by
      cases row <;> rfl
  refine (domains.weaken start fun _ _ is => is).andThen fun _ => ?_
  refine (ensures_updates (i := .moveWebHostnames ⟨relayId, .instance_, instanceId⟩
    ⟨toRelayId, .instance_, toInstanceId⟩ (moving.flatMap InstanceDomain.hostnames))
    (fun rows reply writes made => (Prod.mk.inj (Option.some.inj made)).2.symm) withOwner_key).andThen fun _ => ?_
  refine (ensures_moveHostnameClaims named).andThen fun _ => ensures_done fun after moved => ?_
  have all : Moved rows (moveRow ⟨relayId, .instance_, instanceId⟩ ⟨toRelayId, .instance_, toInstanceId⟩
      (moving.flatMap InstanceDomain.hostnames) movesDomain) after := by
    refine moved.congr fun row => ?_
    cases row with
    | domain row =>
      cases goes : movesDomain row <;>
        simp only [id, locks, withDomain, moveRow, locks_iff, goes, if_true, Bool.false_eq_true, if_false]
    | web row =>
      simp only [id, locks, withOwner, moveRow]
      grind
    | claim row =>
      simp only [id, locks, withOwner, moveRow]
      grind
  have names_are : movingHostnames ⟨relayId, .instance_, instanceId⟩ rows = moving.flatMap InstanceDomain.hostnames := by
    rw [moving_is, movingHostnames]
  refine owned.moveRow all (fun row goes => ?_) (fun row member goes h uses => (names_iff h).mpr ⟨row, member, goes, uses⟩)
    (fun h is => .inr ((names_iff h).mp is)) fun differs => ⟨fun row member is removing => ?_,
      fun row member is stays h uses => ?_⟩
  · simp only [movesDomain, Bool.and_eq_true, decide_eq_true_eq] at goes
    exact ⟨goes.1, rfl⟩
  · have here := all_eq_true.mp (apart.resolve_left differs) _ member
    simp only [is, removing, ne_eq, not_true_eq_false, decide_false, Bool.false_or, decide_eq_true_eq,
      names_are] at here
    exact here
  · have here := all_eq_true.mp (apart.resolve_left differs) _ member
    have removing : row.status = .removing := by
      simp only [movesDomain, is, decide_true, Bool.true_and, ne_eq, decide_eq_false_iff_not, not_not] at stays
      exact stays
    simp only [is, removing, ne_eq, not_true_eq_false, decide_false, Bool.false_or, all_eq_true,
      decide_eq_true_eq, names_are] at here
    exact here h uses

end Moves

/-! ## Every order of the statements -/

theorem ensures_discard {pre : List HostnameRow → Prop} {program : HostnameProgram (Except HostnameError Nat)}
    (ensures : Ensures pre program fun _ => HostnamesOwned) :
    Ensures pre (HostnameRequest.discard program) fun _ => HostnamesOwned :=
  ensures.andThen fun _ => ensures_done fun _ owned => owned

/-- A transaction that runs alone and is orderly leaves the hostnames owned. -/
theorem ensures_request (request : HostnameRequest) :
    Ensures (fun rows => HostnamesOwned rows ∧ request.orderly rows = true) request.program fun _ => HostnamesOwned := by
  have always : ∀ {program : HostnameProgram (Except HostnameError Unit)},
      Ensures HostnamesOwned program (fun _ => HostnamesOwned) →
        Ensures (fun rows => HostnamesOwned rows ∧ request.orderly rows = true) program fun _ => HostnamesOwned :=
    fun ensures => ensures.weaken (fun _ is => is.1) fun _ _ is => is
  cases request with
  | insertWebHostname id owner hostname => exact always ensures_insertWebHostname
  | deleteWebHostname row =>
    refine ensures_deleteWebHostname.weaken (fun rows is => ⟨is.1, fun stored member same => ?_⟩) fun _ _ is => is
    have here := all_eq_true.mp is.2 _ member
    simp only [same, ne_eq, not_true_eq_false, decide_false, Bool.false_or, Bool.and_eq_true, decide_eq_true_eq] at here
    exact here
  | deleteRelayWebHostnames relayId => exact always ensures_deleteRelayWebHostnames
  | markWebHostnamesRemoving ids => exact always ensures_markWebHostnamesRemoving
  | reviveWebHostnames ids => exact always ensures_reviveWebHostnames
  | reassignWebHostnames source target domains =>
    refine (ensures_discard ensures_reassignWebHostnames).weaken (fun rows is => ⟨is.1, ?_⟩) fun _ _ is => is
    have here := is.2
    simp only [HostnameRequest.orderly, Bool.or_eq_true, decide_eq_true_eq] at here
    exact here
  | insertInstanceDomain id relayId instanceId name => exact always ensures_insertInstanceDomain
  | reserveInstanceDomain id name => exact always ensures_reserveInstanceDomain
  | beginInstanceDomainRename id name => exact always ensures_beginInstanceDomainRename
  | finishInstanceDomainRename id => exact always ensures_finishInstanceDomainRename
  | deleteInstanceDomain assignment =>
    refine ensures_deleteInstanceDomain.weaken (fun rows is => ⟨is.1, fun stored member same => ?_⟩) fun _ _ is => is
    have here := all_eq_true.mp is.2 _ member
    simp only [same, ne_eq, not_true_eq_false, decide_false, Bool.false_or, Bool.and_eq_true, decide_eq_true_eq,
      all_eq_true] at here
    exact here
  | deleteRelayInstanceDomains relayId => exact always ensures_deleteRelayInstanceDomains
  | markInstanceDomainRemoving id => exact always ensures_markInstanceDomainRemoving
  | reassignInstanceDomains relayId instanceId toRelayId toInstanceId =>
    refine (ensures_discard ensures_reassignInstanceDomains).weaken (fun rows is => ⟨is.1, ?_⟩) fun _ _ is => is
    have here := is.2
    simp only [HostnameRequest.orderly, Bool.or_eq_true, decide_eq_true_eq] at here
    exact here

/-- In every run whose transactions are orderly as they commit, whatever the order of their statements and whichever
    of them fail, every name that is used is claimed for its row's owner, and every claim is used. -/
theorem hostnames_owned (s : HostnameState)
    (reached : (hostnameSystem.restrict fun s event => s.orderly event = true).Reachable s) :
    HostnamesOwned s.committed ∧ OneOwnerEach s.committed := by
  suffices owned : HostnamesOwned s.committed from ⟨owned, owned.one_owner⟩
  refine LockingDatabase.committed_invariant (D := hostnameDatabase) (fun _ is => is) ?_ reached
  intro s transaction opened rows orderly there owned run
  have here : opened.request.orderly s.committed = true := by
    simp only [HostnameState.orderly, there, Option.all_some] at orderly
    exact orderly
  exact (ensures_request opened.request).holds ⟨owned, here⟩ run

theorem hostnamesOwned_nil : HostnamesOwned [] where
  distinct := nodup_nil
  named := by
    intro row other member
    exact absurd member not_mem_nil
  held := by
    rintro hostname owner ⟨row, member, -⟩
    exact absurd member not_mem_nil
  used := by
    intro hostname owner member
    exact absurd member not_mem_nil

def mapName : VanityName := ⟨"map", "example.com", by decide⟩

/-- A transaction with no other one between its statements. -/
def atOnce (transaction : Nat) (request : HostnameRequest) (statements : Nat) : List (TransactionEvent HostnameRequest) :=
  .begins transaction request :: replicate statements (.statement transaction) ++ [.ends transaction]

/-- A domain and a web route of one game server take the same name. -/
def sharedName : List (TransactionEvent HostnameRequest) :=
  atOnce 0 (.insertInstanceDomain "domain" "relay" "server" mapName) 3 ++
    atOnce 1 (.insertWebHostname "route" ⟨"relay", .instance_, "server"⟩ "Map.example.com") 3

/-- The game server moves, as another web route of it is let go, a statement of each in turn. -/
def movesBoth : List (TransactionEvent HostnameRequest) :=
  sharedName ++
    [.begins 2 (.reassignInstanceDomains "relay" "server" "other" "moved"), .begins 3 (.deleteRelayWebHostnames "third"),
      .statement 2, .statement 3, .statement 2, .statement 3, .statement 2, .statement 3, .statement 2, .ends 3, .ends 2]

/-- A claim is held by the game server that has moved. -/
def claimMoved (s : HostnameState) : Bool := .claim ⟨mapName.hostname, ⟨"other", .instance_, "moved"⟩⟩ ∈ s.committed

theorem hostnames_owned_movesBoth :
    (runAll (fun s event => if HostnameState.orderly s event = true then hostnameDatabase.next s event else none)
      ⟨[], .empty⟩ movesBoth).any claimMoved = true ∧
    ∀ s, runAll (fun s event => if HostnameState.orderly s event = true then hostnameDatabase.next s event else none)
      ⟨[], .empty⟩ movesBoth = some s → HostnamesOwned s.committed ∧ OneOwnerEach s.committed := by
  refine ⟨by decide, fun s ran => ?_⟩
  exact hostnames_owned s ⟨_, _, ⟨rfl, hostnamesOwned_nil⟩, System.run_of_guardedRunAll ran⟩

/-- The game server moves as the route is being removed. -/
def routeStaysBehind : List (TransactionEvent HostnameRequest) :=
  sharedName ++ atOnce 2 (.markWebHostnamesRemoving ["route"]) 1 ++
    atOnce 3 (.reassignInstanceDomains "relay" "server" "other" "moved") 4

/-- The route's game server uses the name, and doesn't hold its claim. -/
def unclaimed (s : HostnameState) : Bool :=
  s.committed.any (·.uses mapName.hostname ⟨"relay", .instance_, "server"⟩) &&
    .claim ⟨mapName.hostname, ⟨"relay", .instance_, "server"⟩⟩ ∉ s.committed

theorem routeStaysBehind_unclaimed : (runAll hostnameDatabase.next ⟨[], .empty⟩ routeStaysBehind).any unclaimed = true := by
  decide

theorem hostname_loses_claim : ¬ ∀ s, hostnameSystem.Reachable s → HostnamesOwned s.committed ∧ OneOwnerEach s.committed := by
  intro all
  have ends := routeStaysBehind_unclaimed
  rw [Option.any_eq_true] at ends
  rcases ends with ⟨s, ran, ends⟩
  simp only [unclaimed, Bool.and_eq_true, any_eq_true, decide_eq_true_eq] at ends
  have owned := (all s ⟨_, _, ⟨rfl, hostnamesOwned_nil⟩, System.run_of_runAll ran⟩).1
  exact ends.2 (owned.held _ _ ends.1)

end Kiln.Hearth
