import Kiln.Operations.Coverage

/-!
# The Relay's lane keys

`laneKeys` (`apps/relay/src/operation-lanes.ts:32-81`), and the IDs that stand where a game
server's does (`packages/contracts/src/app-keys.ts`). A part's key is its whole's, a slash and
the part; an ID may have a slash in it too, as that of a volume an App owns does.
-/

namespace Kiln.Relay
open Kiln.Operations

namespace laneKeys

def app (id : String) : String := "app:" ++ id
def appFiles (id : String) : String := "app:" ++ id ++ "/files"
def appLifecycle (id : String) : String := "app:" ++ id ++ "/lifecycle"
def appVolumes (id : String) : String := "app:" ++ id ++ "/volumes"
def database (id : String) : String := "database:" ++ id
def databaseConnections (id : String) : String := "database:" ++ id ++ "/connections"
def databaseLifecycle (id : String) : String := "database:" ++ id ++ "/lifecycle"
def hostFiles : String := "relay:host-files"
def hostPackages : String := "relay:host-packages"
def instance' (id : String) : String := "instance:" ++ id
def instanceFiles (id : String) : String := "instance:" ++ id ++ "/files"
def instanceLifecycle (id : String) : String := "instance:" ++ id ++ "/lifecycle"
def instanceMetadata (id : String) : String := "instance:" ++ id ++ "/metadata"
def routes : String := "relay:routes"
def allocations : String := "relay:allocations"
def tailscale : String := "relay:tailscale"
def platform : String := "relay:platform"
def volume (id : String) : String := "volume:" ++ id
def volumeFiles (id : String) : String := "volume:" ++ id ++ "/files"
def desktop : String := "relay:desktop"

end laneKeys

/-- The key of the whole that a key names a part of, by its first slash. -/
def wholeKey : String → Option String := before '/'

/-- `uncovered` (`apps/relay/src/operations/operation.ts:205-217`). -/
def uncovered (wanted held : List (LaneLock String)) : List (LaneLock String) :=
  uncoveredBy wholeKey wanted held

/-! ## File roots and Tailscale members -/

/-- What follows a start that a text has. -/
def after (start : String) (text : List Char) : Option (List Char) :=
  if start.toList.isPrefixOf text then some (text.drop start.toList.length) else none

/-- `[a-f0-9]`. -/
def isIdChar (c : Char) : Bool := ('a' ≤ c && c ≤ 'f') || ('0' ≤ c && c ≤ '9')

/-- `[a-zA-Z0-9]`. -/
def isAlphanumeric (c : Char) : Bool :=
  ('a' ≤ c && c ≤ 'z') || ('A' ≤ c && c ≤ 'Z') || ('0' ≤ c && c ≤ '9')

/-- `[a-zA-Z0-9_.-]`. -/
def isNameChar (c : Char) : Bool := isAlphanumeric c || c = '_' || c = '.' || c = '-'

/-- A name of at most `max` characters after its first, as `[a-zA-Z0-9][a-zA-Z0-9_.-]{0,max}`. -/
def isName (max : Nat) : List Char → Bool
  | [] => false
  | first :: rest => isAlphanumeric first && rest.all isNameChar && rest.length ≤ max

/-- `resourceIdPattern`, `[a-f0-9]{40}` (`app-keys.ts:18`). -/
def isResourceId (text : List Char) : Bool := text.length = 40 && text.all isIdChar

/-- A resource ID a text starts with, and the rest. -/
def takeResourceId (text : List Char) : Option (List Char × List Char) :=
  if isResourceId (text.take 40) then some (text.take 40, text.drop 40) else none

/-- `isRelayFileRoot` (`app-keys.ts:31-33`). -/
def isRelayFileRoot (id : String) : Bool :=
  id.toList.length = 43 && id.toList.all fun c => isAlphanumeric c || c = '_' || c = '-'

/-- `appVolumeFromFileRoot` (`app-keys.ts:44-50`): the App and volume of a volume's root. The first colon of an
App-owned volume's ID was written for a slash. -/
def appVolumeFromFileRoot (id : String) : Option (String × String) := do
  let rest ← after "app:" id.toList
  let (appId, rest) ← takeResourceId rest
  let rest ← after ":volume:" rest
  let (volumeId, rest) ← takeResourceId rest
  match rest with
  | [] => some (String.ofList appId, String.ofList volumeId)
  | ':' :: name =>
      if isName 127 name then
        some (String.ofList appId, String.ofList (volumeId ++ '/' :: name))
      else none
  | _ => none

/-- `appIdFromFileRoot` (`app-keys.ts:53-59`). -/
def appIdFromFileRoot (id : String) : Option String := do
  let appId ← after "app:" id.toList
  match appVolumeFromFileRoot id with
  | some volume => some volume.1
  | none => if isResourceId appId then some (String.ofList appId) else none

/-- `databaseIdFromFileRoot` (`app-keys.ts:65-69`). -/
def databaseIdFromFileRoot (id : String) : Option String := do
  let databaseId ← after "database:" id.toList
  if isResourceId databaseId then some (String.ofList databaseId) else none

/-- `databaseTailscaleMember` (`app-keys.ts:104-106`). -/
def databaseTailscaleMember (id : String) : Option String := do
  let databaseId ← after "database:" id.toList
  if isResourceId databaseId then some (String.ofList databaseId) else none

/-- `instanceTailscaleMember` (`app-keys.ts:113-115`). -/
def instanceTailscaleMember (id : String) : Option String := do
  let instanceId ← after "instance:" id.toList
  if isResourceId instanceId then some (String.ofList instanceId) else none

/-- `appTailscaleMember` (`app-keys.ts:117-122`): the App and the service. -/
def appTailscaleMember (id : String) : Option (String × String) := do
  let rest ← after "app:" id.toList
  let (appId, rest) ← takeResourceId rest
  let service ← after ":" rest
  if isName 62 service then some (String.ofList appId, String.ofList service) else none

end Kiln.Relay
