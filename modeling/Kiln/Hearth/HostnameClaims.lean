import Kiln.Lib.TwoPhase

/-!
# Hostname claims

The transactions over `web_hostname`, `instance_domain` and `hostname_claim`
(`apps/web/src/effect/hostname-claims.ts`, `web-hostnames.ts:183-583,704-732`, `domains.ts:697-825,926-1179`),
statement by statement, under InnoDB's row and gap locks at its default isolation level.

Columns that no statement here compares are left out. The rows of `domain_integration` and `domain_zone` that some
transactions check first only make them fail, as any of their statements may. Names are kept lowercase: a web
hostname is lowered as it is stored, and a domain's label and domain by the schemas that they came through. The
columns are `ascii_bin`, so what is equal is the same text.
-/

namespace Kiln.Hearth
open Kiln.Lib

/-! ## Rows -/

def canonicalHostname (hostname : String) : String := String.ofList (hostname.toList.map Char.toLower)

theorem toLower_toLower (c : Char) : c.toLower.toLower = c.toLower := by
  by_cases upper : c.val ≥ 'A'.val ∧ c.val ≤ 'Z'.val
  · have lowered : c.toLower.val = c.val + ('a'.val - 'A'.val) := by
      simp only [Char.toLower, dif_pos upper]
    have beyond : ¬ (c.toLower.val ≥ 'A'.val ∧ c.toLower.val ≤ 'Z'.val) := by
      rw [lowered]
      have low := UInt32.le_iff_toNat_le.mp upper.1
      have high := UInt32.le_iff_toNat_le.mp upper.2
      rintro ⟨-, within⟩
      have within' := UInt32.le_iff_toNat_le.mp within
      have small : 'A'.val.toNat = 65 ∧ 'Z'.val.toNat = 90 ∧ ('a'.val - 'A'.val).toNat = 32 := by decide
      rw [UInt32.toNat_add, small.2.2] at within'
      omega
    rw [Char.toLower, dif_neg beyond]
  · have same : c.toLower = c := by
      rw [Char.toLower, dif_neg upper]
    rw [same, same]

theorem canonicalHostname_idem (hostname : String) :
    canonicalHostname (canonicalHostname hostname) = canonicalHostname hostname := by
  simp only [canonicalHostname, String.toList_ofList, List.map_map]
  exact congrArg String.ofList (List.map_congr_left fun c _ => toLower_toLower c)

/-- A hostname as it is stored. -/
structure Hostname where
  text : String
  lower : canonicalHostname text = text
  deriving DecidableEq

def Hostname.ofText (hostname : String) : Hostname := ⟨canonicalHostname hostname, canonicalHostname_idem hostname⟩

/-- A vanity label and the domain that it is under. -/
structure VanityName where
  vanityLabel : String
  domain : String
  lower : canonicalHostname (vanityLabel ++ "." ++ domain) = vanityLabel ++ "." ++ domain
  deriving DecidableEq

def VanityName.hostname (name : VanityName) : Hostname := ⟨name.vanityLabel ++ "." ++ name.domain, name.lower⟩

inductive HostnameResourceType where
  | app
  | instance_
  deriving DecidableEq, Repr

/-- The game server or app a hostname belongs to. -/
structure HostnameOwner where
  relayId : String
  resourceType : HostnameResourceType
  resourceId : String
  deriving DecidableEq, Repr

inductive WebHostnameStatus where
  | pending
  | active
  | external
  | error
  | removing
  deriving DecidableEq, Repr

structure WebHostname where
  id : String
  hostname : Hostname
  owner : HostnameOwner
  status : WebHostnameStatus
  recordId : Option String
  deriving DecidableEq

inductive InstanceDomainStatus where
  | active
  | error
  | pending
  | removing
  deriving DecidableEq, Repr

structure InstanceDomain where
  id : String
  relayId : String
  instanceId : String
  name : VanityName
  next : Option VanityName
  status : InstanceDomainStatus
  deriving DecidableEq

/-- `assignmentOwner`. -/
def InstanceDomain.owner (assignment : InstanceDomain) : HostnameOwner :=
  ⟨assignment.relayId, .instance_, assignment.instanceId⟩

/-- `assignmentHostnames`. -/
def InstanceDomain.hostnames (assignment : InstanceDomain) : List Hostname :=
  assignment.name.hostname :: assignment.next.toList.map VanityName.hostname

structure HostnameClaim where
  hostname : Hostname
  owner : HostnameOwner
  deriving DecidableEq

/-- A row of the three tables. -/
inductive HostnameRow where
  | web (row : WebHostname)
  | domain (row : InstanceDomain)
  | claim (row : HostnameClaim)
  deriving DecidableEq

inductive HostnameKey where
  | web (id : String)
  | domain (id : String)
  | claim (hostname : Hostname)
  deriving DecidableEq

namespace HostnameRow

def key : HostnameRow → HostnameKey
  | .web row => .web row.id
  | .domain row => .domain row.id
  | .claim row => .claim row.hostname

def webHostname? : HostnameRow → Option WebHostname
  | .web row => some row
  | _ => none

def instanceDomain? : HostnameRow → Option InstanceDomain
  | .domain row => some row
  | _ => none

def hostnameClaim? : HostnameRow → Option HostnameClaim
  | .claim row => some row
  | _ => none

/-- A row that uses a name for its owner. -/
def uses (hostname : Hostname) (owner : HostnameOwner) : HostnameRow → Bool
  | .web row => row.hostname = hostname && row.owner = owner
  | .domain row => hostname ∈ row.hostnames && row.owner = owner
  | .claim _ => false

end HostnameRow

/-! ## Statements -/

/-- Whose claims `releaseUnusedHostnamesEffect` is narrowed to. -/
inductive ReleaseScope where
  | owner (owner : HostnameOwner)
  | relay (relayId : String)
  deriving DecidableEq, Repr

def ReleaseScope.covers : ReleaseScope → HostnameOwner → Bool
  | .owner holder, other => other = holder
  | .relay relayId, other => other.relayId = relayId

/-- What an `UPDATE` of one `instance_domain` row sets. -/
inductive DomainChange where
  | reserve (name : VanityName)
  | beginRename (next : VanityName)
  | finishRename (next : VanityName)
  | markRemoving
  deriving DecidableEq

namespace DomainChange

def apply (row : InstanceDomain) : DomainChange → InstanceDomain
  | .reserve name => { row with name, next := none, status := .pending }
  | .beginRename next => { row with next := some next }
  | .finishRename next => { row with name := next, next := none }
  | .markRemoving => { row with status := .removing }

/-- The name that the row comes to have. -/
def newName : DomainChange → Option VanityName
  | .reserve name | .finishRename name => some name
  | .beginRename _ | .markRemoving => none

end DomainChange

/-- The statements. A release that isn't given its hostnames reads those of the claims first. -/
inductive HostnameStatement where
  | insertIgnoreClaim (claim : HostnameClaim)
  | claimHolder (hostname : Hostname)
  | claimedHostnames (relayId : String)
  | releaseUnused (scope : ReleaseScope) (hostnames : List Hostname)
  | moveClaims (source target : HostnameOwner) (hostnames : List Hostname)
  | insertWebHostname (row : WebHostname)
  | deleteWebHostname (id : String)
  | deleteRelayWebHostnames (relayId : String)
  | markWebHostnamesRemoving (ids : List String)
  | reviveWebHostnames (ids : List String)
  | handOverWebHostnames (hostnames : List Hostname)
  | webHostnamesToMove (source : HostnameOwner) (domains : List InstanceDomain)
  | moveWebHostnames (source target : HostnameOwner) (hostnames : List Hostname)
  | lockAssignment (id : String)
  | insertInstanceDomain (row : InstanceDomain)
  | updateInstanceDomain (id : String) (change : DomainChange)
  | deleteInstanceDomain (id : String)
  | deleteRelayInstanceDomains (relayId : String)
  | domainsToMove (relayId instanceId : String)
  | moveInstanceDomains (relayId instanceId toRelayId toInstanceId : String)

namespace HostnameStatement

@[reducible] def answer : HostnameStatement → Type
  | .claimHolder _ => Option HostnameOwner
  | .claimedHostnames _ | .webHostnamesToMove _ _ => List Hostname
  | .lockAssignment _ => Option InstanceDomain
  | .domainsToMove _ _ => List InstanceDomain
  | _ => Unit

/-- The rows that a statement locks, also where there are none yet. -/
def locks : HostnameStatement → HostnameRow → Bool
  | .insertIgnoreClaim claim, .claim row => row.hostname = claim.hostname
  | .claimHolder hostname, .claim row => row.hostname = hostname
  | .claimedHostnames relayId, .claim row => row.owner.relayId = relayId
  | .releaseUnused scope hostnames, .claim row => scope.covers row.owner && row.hostname ∈ hostnames
  | .releaseUnused _ hostnames, .web row => row.hostname ∈ hostnames
  | .releaseUnused scope hostnames, .domain row => scope.covers row.owner && row.hostnames.any (· ∈ hostnames)
  | .moveClaims source _ hostnames, .claim row => row.owner = source && row.hostname ∈ hostnames
  | .insertWebHostname row, .web other => other.id = row.id || other.hostname = row.hostname
  | .deleteWebHostname id, .web row => row.id = id
  | .deleteRelayWebHostnames relayId, .web row => row.owner.relayId = relayId
  | .markWebHostnamesRemoving ids, .web row => row.id ∈ ids
  | .reviveWebHostnames ids, .web row => row.id ∈ ids && row.status = .removing
  | .handOverWebHostnames hostnames, .web row =>
    row.recordId.isNone && row.status = .active && row.hostname ∈ hostnames
  | .webHostnamesToMove source _, .web row => row.owner = source && row.status ≠ .removing
  | .moveWebHostnames source _ hostnames, .web row =>
    row.owner = source && row.status ≠ .removing && row.hostname ∈ hostnames
  | .lockAssignment id, .domain row => row.id = id
  | .insertInstanceDomain row, .domain other => other.id = row.id || other.name = row.name
  | .updateInstanceDomain id change, .domain row => row.id = id || change.newName = some row.name
  | .deleteInstanceDomain id, .domain row => row.id = id
  | .deleteRelayInstanceDomains relayId, .domain row => row.relayId = relayId
  | .domainsToMove relayId instanceId, .domain row =>
    row.relayId = relayId && row.instanceId = instanceId && row.status ≠ .removing
  | .moveInstanceDomains relayId instanceId _ _, .domain row =>
    row.relayId = relayId && row.instanceId = instanceId && row.status ≠ .removing
  | _, _ => false

/-- `sharedWithDomain`: a game server's web route on a name one of its domains also uses. -/
def sharedWithDomain (domains : List InstanceDomain) (used : WebHostname) : Bool :=
  used.owner.resourceType = .instance_ &&
    domains.any fun domain => domain.owner = used.owner && used.hostname ∈ domain.hostnames

/-- Rows are written back, changed. -/
def updates (rows : List HostnameRow) (change : HostnameRow → HostnameRow) : List (RowWrite HostnameKey HostnameRow) :=
  rows.map fun row => .put (change row)

/-- Rows are removed. -/
def removals (rows : List HostnameRow) : List (RowWrite HostnameKey HostnameRow) := rows.map fun row => .delete row.key

/-- A web hostname's row, with another status. -/
def withStatus (status : WebHostnameStatus) : HostnameRow → HostnameRow
  | .web row => .web { row with status }
  | other => other

/-- A web hostname's or a claim's row, with another owner. -/
def withOwner (owner : HostnameOwner) : HostnameRow → HostnameRow
  | .web row => .web { row with owner }
  | .claim row => .claim { row with owner }
  | other => other

/-- A domain's row, changed. -/
def withDomain (change : InstanceDomain → InstanceDomain) : HostnameRow → HostnameRow
  | .domain row => .domain (change row)
  | other => other

/-- A claim that no web hostname uses, and no domain of the game server that holds it. -/
def unused (rows : List HostnameRow) : HostnameRow → Bool
  | .claim claim => rows.all fun
    | .web used => used.hostname ≠ claim.hostname
    | .domain used => used.owner ≠ claim.owner || claim.hostname ∉ used.hostnames
    | .claim _ => true
  | _ => false

/-- What a statement answers and writes, by the rows that it locks; a row under a key that is taken fails it. -/
def does : (i : HostnameStatement) → List HostnameRow → Option (i.answer × List (RowWrite HostnameKey HostnameRow))
  | .insertIgnoreClaim claim, rows => some ((), if rows.isEmpty then [.put (.claim claim)] else [])
  | .claimHolder _, rows => some ((rows.findSome? HostnameRow.hostnameClaim?).map HostnameClaim.owner, [])
  | .claimedHostnames _, rows => some ((rows.filterMap HostnameRow.hostnameClaim?).map HostnameClaim.hostname, [])
  | .releaseUnused _ _, rows => some ((), removals (rows.filter (unused rows)))
  | .moveClaims _ target _, rows => some ((), updates rows (withOwner target))
  | .insertWebHostname row, rows => if rows.isEmpty then some ((), [.put (.web row)]) else none
  | .deleteWebHostname _, rows => some ((), removals rows)
  | .deleteRelayWebHostnames _, rows => some ((), removals rows)
  | .markWebHostnamesRemoving _, rows => some ((), updates rows (withStatus .removing))
  | .reviveWebHostnames _, rows => some ((), updates rows (withStatus .pending))
  | .handOverWebHostnames _, rows => some ((), updates rows (withStatus .pending))
  | .webHostnamesToMove _ domains, rows =>
    some (((rows.filterMap HostnameRow.webHostname?).filter fun row => !sharedWithDomain domains row).map
      WebHostname.hostname, [])
  | .moveWebHostnames _ target _, rows => some ((), updates rows (withOwner target))
  | .lockAssignment _, rows => some (rows.findSome? HostnameRow.instanceDomain?, [])
  | .insertInstanceDomain row, rows => if rows.isEmpty then some ((), [.put (.domain row)]) else none
  | .updateInstanceDomain id change, rows =>
    if rows.any fun row => row.key ≠ .domain id then none
    else some ((), updates rows (withDomain change.apply))
  | .deleteInstanceDomain _, rows => some ((), removals rows)
  | .deleteRelayInstanceDomains _, rows => some ((), removals rows)
  | .domainsToMove _ _, rows => some (rows.filterMap HostnameRow.instanceDomain?, [])
  | .moveInstanceDomains _ _ relayId instanceId, rows =>
    some ((), updates rows (withDomain fun row => { row with relayId, instanceId }))

end HostnameStatement

/-! ## Transactions -/

inductive HostnameError where
  | hostnameInUse (holder : Option HostnameOwner) (hostname : Hostname) (message : String)
  | domainConfiguration (message : String)
  deriving DecidableEq

/-- A program of statements. -/
abbrev HostnameProgram (α : Type) := Program HostnameStatement HostnameStatement.answer α

namespace HostnameProgram

/-- The program of one statement. -/
def run (i : HostnameStatement) : HostnameProgram (Except HostnameError i.answer) :=
  .call i fun reply => .done (.ok reply)

def fail {α : Type} (cause : HostnameError) : HostnameProgram (Except HostnameError α) := .done (.error cause)

/-- `claimHostnamesEffect`, for one name of them. -/
def claimHostname (owner : HostnameOwner) (hostname : Hostname) : HostnameProgram (Except HostnameError Unit) :=
  (run (.insertIgnoreClaim ⟨hostname, owner⟩)).andThen fun _ =>
    (run (.claimHolder hostname)).andThen fun holder : Option HostnameOwner =>
      if holder = some owner then .done (.ok ())
      else fail (.hostnameInUse holder hostname (hostname.text ++ " is already in use"))

def claimHostnames (owner : HostnameOwner) (hostnames : List Hostname) : HostnameProgram (Except HostnameError Unit) :=
  .forEach (claimHostname owner) hostnames.eraseDups

/-- `releaseUnusedHostnamesEffect`, narrowed to hostnames. -/
def releaseUnusedHostnames (owner : HostnameOwner) (hostnames : List Hostname) :
    HostnameProgram (Except HostnameError Unit) :=
  if hostnames = [] then .done (.ok ()) else run (.releaseUnused (.owner owner) hostnames)

/-- `releaseUnusedHostnamesEffect`, of a Relay. -/
def releaseUnusedRelayHostnames (relayId : String) : HostnameProgram (Except HostnameError Unit) :=
  (run (.claimedHostnames relayId)).andThen fun hostnames : List Hostname =>
    run (.releaseUnused (.relay relayId) hostnames)

def moveHostnameClaims (source target : HostnameOwner) (hostnames : List Hostname) :
    HostnameProgram (Except HostnameError Unit) :=
  if hostnames = [] then .done (.ok ()) else run (.moveClaims source target hostnames)

def handOverWebHostnames (hostnames : List Hostname) : HostnameProgram (Except HostnameError Unit) :=
  if hostnames = [] then .done (.ok ()) else run (.handOverWebHostnames hostnames)

def insertWebHostname (id : String) (owner : HostnameOwner) (hostname : String) :
    HostnameProgram (Except HostnameError Unit) :=
  (claimHostnames owner [.ofText hostname]).andThen fun _ =>
    run (.insertWebHostname { id, hostname := .ofText hostname, owner, status := .pending, recordId := none })

def deleteWebHostname (row : WebHostname) : HostnameProgram (Except HostnameError Unit) :=
  (run (.deleteWebHostname row.id)).andThen fun _ => releaseUnusedHostnames row.owner [row.hostname]

def deleteRelayWebHostnames (relayId : String) : HostnameProgram (Except HostnameError Unit) :=
  (run (.deleteRelayWebHostnames relayId)).andThen fun _ => releaseUnusedRelayHostnames relayId

def markWebHostnamesRemoving (ids : List String) : HostnameProgram (Except HostnameError Unit) :=
  if ids = [] then .done (.ok ()) else run (.markWebHostnamesRemoving ids)

def reviveWebHostnames (ids : List String) : HostnameProgram (Except HostnameError Unit) :=
  if ids = [] then .done (.ok ()) else run (.reviveWebHostnames ids)

/-- `reassignWebHostnamesEffect`, which reports how many moved. Its subquery isn't a locking read: it reads `domains`,
those that were committed as the transaction began. -/
def reassignWebHostnames (source target : HostnameOwner) (domains : List InstanceDomain) :
    HostnameProgram (Except HostnameError Nat) :=
  (run (.webHostnamesToMove source domains)).andThen fun hostnames : List Hostname =>
    if hostnames = [] then .done (.ok 0)
    else
      (run (.moveWebHostnames source target hostnames)).andThen fun _ =>
        (moveHostnameClaims source target hostnames).andThen fun _ => .done (.ok hostnames.length)

def insertInstanceDomain (id relayId instanceId : String) (name : VanityName) :
    HostnameProgram (Except HostnameError Unit) :=
  (claimHostnames ⟨relayId, .instance_, instanceId⟩ [name.hostname]).andThen fun _ =>
    run (.insertInstanceDomain { id, relayId, instanceId, name, next := none, status := .pending })

def lockAssignment (id : String) : HostnameProgram (Except HostnameError InstanceDomain) :=
  (run (.lockAssignment id)).andThen fun row : Option InstanceDomain =>
    match row with
    | some current => .done (.ok current)
    | none => fail (.domainConfiguration "The domain was removed")

/-- Lets go of names that a domain stopped using. -/
def letGo (owner : HostnameOwner) (previous : List Hostname) : HostnameProgram (Except HostnameError Unit) :=
  (releaseUnusedHostnames owner previous).andThen fun _ => handOverWebHostnames previous

def reserveInstanceDomain (id : String) (name : VanityName) : HostnameProgram (Except HostnameError Unit) :=
  (lockAssignment id).andThen fun current =>
    if current.status = .removing then fail (.domainConfiguration "The domain is being deleted")
    else
      (claimHostnames current.owner [name.hostname]).andThen fun _ =>
        (run (.updateInstanceDomain id (.reserve name))).andThen fun _ =>
          letGo current.owner (current.hostnames.filter (· ≠ name.hostname))

def beginInstanceDomainRename (id : String) (name : VanityName) : HostnameProgram (Except HostnameError Unit) :=
  (lockAssignment id).andThen fun current =>
    match current.next with
    | some next =>
      if next ≠ name then fail (.domainConfiguration ("Finish renaming to " ++ next.hostname.text ++ " first"))
      else
        (claimHostnames current.owner [name.hostname]).andThen fun _ =>
          run (.updateInstanceDomain id (.beginRename name))
    | none =>
      (claimHostnames current.owner [name.hostname]).andThen fun _ =>
        run (.updateInstanceDomain id (.beginRename name))

def finishInstanceDomainRename (id : String) : HostnameProgram (Except HostnameError Unit) :=
  (lockAssignment id).andThen fun current =>
    match current.next with
    | none => .done (.ok ())
    | some next =>
      (run (.updateInstanceDomain id (.finishRename next))).andThen fun _ =>
        letGo current.owner [current.name.hostname]

def deleteInstanceDomain (assignment : InstanceDomain) : HostnameProgram (Except HostnameError Unit) :=
  (run (.deleteInstanceDomain assignment.id)).andThen fun _ => letGo assignment.owner assignment.hostnames

def deleteRelayInstanceDomains (relayId : String) : HostnameProgram (Except HostnameError Unit) :=
  (run (.deleteRelayInstanceDomains relayId)).andThen fun _ => releaseUnusedRelayHostnames relayId

def markInstanceDomainRemoving (id : String) : HostnameProgram (Except HostnameError Unit) :=
  run (.updateInstanceDomain id .markRemoving)

/-- `reassignInstanceDomainsEffect`, which reports how many moved. -/
def reassignInstanceDomains (relayId instanceId toRelayId toInstanceId : String) :
    HostnameProgram (Except HostnameError Nat) :=
  (run (.domainsToMove relayId instanceId)).andThen fun moving : List InstanceDomain =>
    if moving = [] then .done (.ok 0)
    else
      (run (.moveInstanceDomains relayId instanceId toRelayId toInstanceId)).andThen fun _ =>
        (run (.moveWebHostnames ⟨relayId, .instance_, instanceId⟩ ⟨toRelayId, .instance_, toInstanceId⟩
          (moving.flatMap InstanceDomain.hostnames))).andThen fun _ =>
          (moveHostnameClaims ⟨relayId, .instance_, instanceId⟩ ⟨toRelayId, .instance_, toInstanceId⟩
            (moving.flatMap InstanceDomain.hostnames)).andThen fun _ => .done (.ok moving.length)

end HostnameProgram

/-- A call of one of the transactions, with the row that it is given. -/
inductive HostnameRequest where
  | insertWebHostname (id : String) (owner : HostnameOwner) (hostname : String)
  | deleteWebHostname (row : WebHostname)
  | deleteRelayWebHostnames (relayId : String)
  | markWebHostnamesRemoving (ids : List String)
  | reviveWebHostnames (ids : List String)
  | reassignWebHostnames (source target : HostnameOwner) (domains : List InstanceDomain)
  | insertInstanceDomain (id relayId instanceId : String) (name : VanityName)
  | reserveInstanceDomain (id : String) (name : VanityName)
  | beginInstanceDomainRename (id : String) (name : VanityName)
  | finishInstanceDomainRename (id : String)
  | deleteInstanceDomain (assignment : InstanceDomain)
  | deleteRelayInstanceDomains (relayId : String)
  | markInstanceDomainRemoving (id : String)
  | reassignInstanceDomains (relayId instanceId toRelayId toInstanceId : String)

namespace HostnameRequest

/-- The count that a transaction reports is its caller's. -/
def discard (program : HostnameProgram (Except HostnameError Nat)) : HostnameProgram (Except HostnameError Unit) :=
  program.andThen fun _ => .done (.ok ())

def program : HostnameRequest → HostnameProgram (Except HostnameError Unit)
  | .insertWebHostname id owner hostname => .insertWebHostname id owner hostname
  | .deleteWebHostname row => .deleteWebHostname row
  | .deleteRelayWebHostnames relayId => .deleteRelayWebHostnames relayId
  | .markWebHostnamesRemoving ids => .markWebHostnamesRemoving ids
  | .reviveWebHostnames ids => .reviveWebHostnames ids
  | .reassignWebHostnames source target domains => discard (.reassignWebHostnames source target domains)
  | .insertInstanceDomain id relayId instanceId name => .insertInstanceDomain id relayId instanceId name
  | .reserveInstanceDomain id name => .reserveInstanceDomain id name
  | .beginInstanceDomainRename id name => .beginInstanceDomainRename id name
  | .finishInstanceDomainRename id => .finishInstanceDomainRename id
  | .deleteInstanceDomain assignment => .deleteInstanceDomain assignment
  | .deleteRelayInstanceDomains relayId => .deleteRelayInstanceDomains relayId
  | .markInstanceDomainRemoving id => .markInstanceDomainRemoving id
  | .reassignInstanceDomains relayId instanceId toRelayId toInstanceId =>
    discard (.reassignInstanceDomains relayId instanceId toRelayId toInstanceId)

/-- What a transaction is given is as stored as it is called. -/
def may (rows : List HostnameRow) : HostnameRequest → Bool
  | .deleteWebHostname row => .web row ∈ rows
  | .deleteInstanceDomain assignment => .domain assignment ∈ rows
  | .reassignWebHostnames _ _ domains => domains = rows.filterMap HostnameRow.instanceDomain?
  | _ => true

end HostnameRequest

/-- The tables of hostnames under their transactions. -/
def hostnameDatabase : LockingDatabase HostnameKey HostnameRow HostnameStatement HostnameStatement.answer
    HostnameRequest HostnameError where
  key := HostnameRow.key
  locks := HostnameStatement.locks
  does := HostnameStatement.does
  program := HostnameRequest.program
  may := HostnameRequest.may

/-! ## One owner who holds the claim -/

/-- The unique key on `web_hostname.hostname`. -/
def OneNameEach (rows : List HostnameRow) : Prop :=
  ∀ row other, .web row ∈ rows → .web other ∈ rows → row.hostname = other.hostname → row.id = other.id

/-- What is said of the rows that are committed. -/
structure HostnamesOwned (rows : List HostnameRow) : Prop where
  distinct : (rows.map HostnameRow.key).Nodup
  named : OneNameEach rows
  held : ∀ hostname owner, (∃ row ∈ rows, row.uses hostname owner = true) → .claim ⟨hostname, owner⟩ ∈ rows
  used : ∀ hostname owner, .claim ⟨hostname, owner⟩ ∈ rows → ∃ row ∈ rows, row.uses hostname owner = true

/-- No two owners use one name, in any spelling. -/
def OneOwnerEach (rows : List HostnameRow) : Prop :=
  ∀ row ∈ rows, ∀ other ∈ rows, ∀ hostname hostname' owner owner', row.uses (.ofText hostname) owner = true →
    other.uses (.ofText hostname') owner' = true → canonicalHostname hostname = canonicalHostname hostname' →
      owner = owner'

theorem HostnamesOwned.one_owner {rows : List HostnameRow} (owned : HostnamesOwned rows) : OneOwnerEach rows := by
  intro row member other member' hostname hostname' owner owner' uses uses' same
  have claim := owned.held _ _ ⟨row, member, uses⟩
  have claim' := owned.held _ _ ⟨other, member', uses'⟩
  have key : HostnameRow.key (.claim ⟨.ofText hostname, owner⟩) =
      HostnameRow.key (.claim ⟨.ofText hostname', owner'⟩) := by
    simp only [HostnameRow.key, Hostname.ofText, same]
  have one := List.inj_on_of_nodup_map owned.distinct claim claim' key
  injection one with one
  injection one

/-! ## Transactions that keep to what they were given -/

/-- The domains among the rows. -/
def instanceDomains (rows : List HostnameRow) : List InstanceDomain := rows.filterMap HostnameRow.instanceDomain?

/-- The web hostnames that a domain of their game server shares now, it shared as the transaction began. -/
def stillShared (source : HostnameOwner) (domains : List InstanceDomain) (rows : List HostnameRow) : Bool :=
  rows.all fun
    | .web row => row.owner ≠ source || row.status = .removing ||
        !HostnameStatement.sharedWithDomain (instanceDomains rows) row || HostnameStatement.sharedWithDomain domains row
    | _ => true

/-- The names of an owner's domains that aren't being removed. -/
def movingHostnames (source : HostnameOwner) (rows : List HostnameRow) : List Hostname :=
  ((instanceDomains rows).filter fun domain => domain.owner = source && domain.status ≠ .removing).flatMap
    InstanceDomain.hostnames

/-- No row of the owner that is being removed uses a name of a domain that isn't. -/
def staysApart (source : HostnameOwner) (rows : List HostnameRow) : Bool :=
  rows.all fun
    | .web row => row.owner ≠ source || row.status ≠ .removing || row.hostname ∉ movingHostnames source rows
    | .domain row => row.owner ≠ source || row.status ≠ .removing ||
        row.hostnames.all (· ∉ movingHostnames source rows)
    | .claim _ => true

namespace HostnameRequest

/-- What is deleted is stored as it was given, or gone. A web hostname that moves shares no name with a domain that came
meanwhile, and a domain that moves shares none with a row that is being removed. -/
def orderly (rows : List HostnameRow) : HostnameRequest → Bool
  | .deleteWebHostname row => rows.all fun
      | .web stored => stored.id ≠ row.id || (stored.hostname = row.hostname && stored.owner = row.owner)
      | _ => true
  | .deleteInstanceDomain assignment => rows.all fun
      | .domain stored => stored.id ≠ assignment.id ||
          (stored.owner = assignment.owner && stored.hostnames.all (· ∈ assignment.hostnames))
      | _ => true
  | .reassignWebHostnames source target domains => source = target || stillShared source domains rows
  | .reassignInstanceDomains relayId instanceId toRelayId toInstanceId =>
    (⟨relayId, .instance_, instanceId⟩ : HostnameOwner) = ⟨toRelayId, .instance_, toInstanceId⟩ ||
      staysApart ⟨relayId, .instance_, instanceId⟩ rows
  | _ => true

end HostnameRequest

/-- A state of the hostname tables. -/
abbrev HostnameState := TransactionState HostnameKey HostnameRow HostnameStatement HostnameStatement.answer
  HostnameRequest HostnameError

/-- A transaction that commits is orderly by what is committed. -/
def HostnameState.orderly (s : HostnameState) : TransactionEvent HostnameRequest → Bool
  | .ends transaction => (s.transactions.get transaction).all fun opened => opened.request.orderly s.committed
  | _ => true

/-- The runs of the transactions from tables in order. -/
def hostnameSystem : System HostnameState (TransactionEvent HostnameRequest) := hostnameDatabase.system HostnamesOwned

end Kiln.Hearth
