import Mathlib
/-!
# The capabilities Hearth signs for a browser

`apps/relay/src/browser-capability.ts` and `browser-security.ts`: what a v2 capability says, how
long it may last, and the authority it grants.
-/

namespace Kiln.Relay

/-- `RelayBrowserResourceKind`. -/
inductive BrowserResourceKind where
  | app
  | database
  | instance'
  | relay
  | platform
  deriving DecidableEq, Repr

/-- `RelayBrowserOperationKind`. -/
inductive BrowserOperationKind where
  | console
  | file
  | resources
  deriving DecidableEq, Repr

/-! ## Lifetimes (`browser-security.ts:1-8`) -/

def browserReadLeaseMaxMs : Nat := 60000

def browserWriteLeaseMaxMs : Nat := 30000

def browserIssuedAtSkewMs : Nat := 5000

def browserAuthorizationFloorRetentionMs : Nat :=
  5 * max browserReadLeaseMaxMs browserWriteLeaseMaxMs + browserIssuedAtSkewMs

/-- The payload of a v2 capability (`relay-protocol.ts:881-901`). -/
structure RelayBrowserCapabilityV2 where
  actions : List String
  authorizationRevision : Nat
  capabilityId : String
  expiresAt : Nat
  instanceId : String
  issuedAt : Nat
  issuer : String
  issuerGeneration : Nat
  keyThumbprint : String
  loginSessionId : String
  operation : BrowserOperationKind
  origin : String
  path : Option String
  resourceKind : Option BrowserResourceKind
  subject : String
  deriving DecidableEq, Repr

/-- `relayConsoleReadActions` (`relay-protocol.ts:857-864`). -/
def relayConsoleReadActions : BrowserResourceKind → String
  | .app => "app.logs.read"
  | .database => "database.logs.read"
  | .instance' => "instance.console.read"
  | .platform => "relay.logs.read"
  | .relay => "relay.logs.read"

/-- `browserCapabilityActions` (`browser-capability.ts:142-172`). -/
def browserCapabilityActions : BrowserResourceKind → BrowserOperationKind → List String
  | .app, .console => [relayConsoleReadActions .app]
  | .app, .file => ["app.files.download", "app.files.upload"]
  | .app, .resources => ["app.read"]
  | .database, .console => [relayConsoleReadActions .database]
  | .database, .file => ["database.dump.export", "database.dump.import"]
  | .database, .resources => ["database.read"]
  | .instance', .console => [relayConsoleReadActions .instance', "instance.console.write"]
  | .instance', .file => ["instance.files.download", "instance.files.upload"]
  | .instance', .resources => ["instance.read"]
  | .relay, .console => [relayConsoleReadActions .relay]
  | .relay, .file => ["relay.files.download", "relay.files.upload"]
  | .relay, .resources => []
  | .platform, .console => [relayConsoleReadActions .platform]
  | .platform, .file => []
  | .platform, .resources => []

/-- `capabilityResourceKind` of a v2 capability (`browser-capability.ts:176-182`). -/
def RelayBrowserCapabilityV2.kind (capability : RelayBrowserCapabilityV2) : BrowserResourceKind :=
  capability.resourceKind.getD .instance'

/-- The actions that write (`browser-capability.ts:104-111`). -/
def browserWriteActions : List String :=
  ["instance.console.write", "instance.files.upload", "app.files.upload", "relay.files.upload", "database.dump.import"]

/-- How long a capability may last (`browser-capability.ts:112-114`). -/
def RelayBrowserCapabilityV2.maximumLease (capability : RelayBrowserCapabilityV2) : Nat :=
  if capability.actions.any (· ∈ browserWriteActions) then browserWriteLeaseMaxMs
  else browserReadLeaseMaxMs

/-- `Number.MAX_SAFE_INTEGER`. The capability's numbers are natural here, so that they are integers and not negative is
no check of its own. -/
def maxSafeInteger : Nat := 2 ^ 53 - 1

/-- The `length` of a text: its UTF-16 code units. -/
def utf16Length (text : String) : Nat :=
  (text.toList.map fun c => if c.toNat < 65536 then 1 else 2).sum

/-- An ID that isn't empty or too long. -/
def isBoundedId (text : String) : Bool :=
  0 < utf16Length text && utf16Length text ≤ 240

/-- `validateCapabilityV2` accepts a capability (`browser-capability.ts:95-139`). -/
def validateCapabilityV2 (capability : RelayBrowserCapabilityV2) (now : Nat) : Bool :=
  let allowed := browserCapabilityActions capability.kind capability.operation
  capability.issuedAt ≤ maxSafeInteger &&
  capability.expiresAt ≤ maxSafeInteger &&
  capability.authorizationRevision ≤ maxSafeInteger &&
  capability.issuerGeneration ≤ maxSafeInteger &&
  capability.issuedAt < capability.expiresAt &&
  capability.expiresAt - capability.issuedAt ≤ capability.maximumLease &&
  capability.issuedAt ≤ now + browserIssuedAtSkewMs &&
  capability.actions.length ≤ allowed.length &&
  capability.actions.all (· ∈ allowed) &&
  capability.actions.Nodup &&
  isBoundedId capability.loginSessionId &&
  isBoundedId capability.subject &&
  isBoundedId capability.capabilityId &&
  decide (capability.operation = .file) == capability.path.isSome &&
  utf16Length (capability.path.getD "") ≤ 2048

theorem expiresAt_le_of_valid {capability : RelayBrowserCapabilityV2} {now : Nat}
    (valid : validateCapabilityV2 capability now = true) :
    capability.expiresAt ≤ capability.issuedAt + browserReadLeaseMaxMs := by
  have lease : capability.expiresAt - capability.issuedAt ≤ capability.maximumLease := by
    simp only [validateCapabilityV2, Bool.and_eq_true, decide_eq_true_eq] at valid
    omega
  have longest : capability.maximumLease ≤ browserReadLeaseMaxMs := by
    unfold RelayBrowserCapabilityV2.maximumLease
    split
    · decide
    · exact Nat.le_refl _
  omega

end Kiln.Relay
