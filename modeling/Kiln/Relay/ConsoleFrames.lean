import Kiln.Lib.JsonText
import Kiln.Lib.Transition

/-!
# Console frames

apps/relay/src/console-frames.ts: the frames a console's lines are sent to browsers in, as many of the newest as fit. A
line too long for a frame of its own is cut. History is read a page at a time, each page up to the start of the last.
-/

namespace Kiln.Relay
open Kiln.Lib Kiln.Lib.JsonText

inductive RelayConsoleLevel where
  | info
  | warn
  | error
  | debug
  | trace
  deriving DecidableEq

def RelayConsoleLevel.name : RelayConsoleLevel → String
  | .info => "info"
  | .warn => "warn"
  | .error => "error"
  | .debug => "debug"
  | .trace => "trace"

inductive ConsoleService where
  | tailscale
  | coredns
  deriving DecidableEq

def ConsoleService.name : ConsoleService → String
  | .tailscale => "tailscale"
  | .coredns => "coredns"

structure RelayConsoleSegment where
  text : Utf16
  color : Option Utf16 := none
  bold : Option Bool := none
  italic : Option Bool := none
  underline : Option Bool := none
  deriving DecidableEq

structure RelayConsoleLine where
  id : Utf16
  timestamp : Option Utf16
  level : RelayConsoleLevel
  /-- "kiln" -/
  origin : Bool := false
  service : Option ConsoleService := none
  text : Utf16
  segments : Option (List RelayConsoleSegment) := none
  deriving DecidableEq

inductive RelayInstanceLifecycleState where
  | started
  | ready
  | stopping
  | stopped
  | failed
  deriving DecidableEq

def RelayInstanceLifecycleState.name : RelayInstanceLifecycleState → String
  | .started => "started"
  | .ready => "ready"
  | .stopping => "stopping"
  | .stopped => "stopped"
  | .failed => "failed"

structure RelayInstanceLifecycleEvent where
  state : RelayInstanceLifecycleState
  time : Utf16
  deriving DecidableEq

def RelayConsoleSegment.json (segment : RelayConsoleSegment) : JsonTree :=
  .object ([("text", string segment.text)] ++ optional "color" (segment.color.map string) ++
    optional "bold" (segment.bold.map fun value => .atom (.bool value)) ++
    optional "italic" (segment.italic.map fun value => .atom (.bool value)) ++
    optional "underline" (segment.underline.map fun value => .atom (.bool value)))

def RelayConsoleLine.fields (line : RelayConsoleLine) : List (String × JsonTree) :=
  [("id", string line.id), ("timestamp", (line.timestamp.map string).getD (.atom .null)), ("level", word line.level.name)] ++
    optional "origin" (if line.origin then some (word "kiln") else none) ++
    optional "service" (line.service.map fun service => word service.name) ++
    [("text", string line.text)] ++
    optional "segments" (line.segments.map fun segments => .array (segments.map (·.json)))

/-- `JSON.stringify` of a line -/
def RelayConsoleLine.json (line : RelayConsoleLine) : Utf16 := stringify (.object line.fields)

def RelayInstanceLifecycleEvent.json (event : RelayInstanceLifecycleEvent) : JsonTree :=
  .object [("state", word event.state.name), ("time", string event.time)]

inductive ConsoleBatchType where
  | history
  | reset
  deriving DecidableEq

def ConsoleBatchType.name : ConsoleBatchType → String
  | .history => "history"
  | .reset => "reset"

structure ConsoleBatchInput where
  instanceId : Utf16
  lifecycle : List RelayInstanceLifecycleEvent
  lines : List RelayConsoleLine
  truncated : Bool
  type : ConsoleBatchType

structure EncodedConsoleBatch where
  encoded : Utf16
  start : Nat
  deriving DecidableEq

def relayBrowserMaxFrameBytes : Nat := 256 * 1024

/-- `TRUNCATED_LINE_SUFFIX` -/
def truncatedLineSuffix : Utf16 := .ofString "… [line truncated]"

structure BatchEnvelope where
  encode : List Utf16 → Nat → Utf16
  prefixBytes : Nat
  suffix : Nat → Utf16

/-- `batchEnvelope` -/
def batchEnvelope (input : ConsoleBatchInput) : BatchEnvelope :=
  let prefix_ := Utf16.ofString "\x7b\"type\":" ++ stringify (word input.type.name) ++
    Utf16.ofString ",\"instanceId\":" ++ stringify (string input.instanceId) ++
    Utf16.ofString ",\"lifecycle\":" ++ stringify (.array (input.lifecycle.map (·.json))) ++
    Utf16.ofString ",\"lines\":["
  let suffix := fun (start : Nat) => Utf16.ofString "],\"truncated\":" ++
    Utf16.ofString (if input.truncated || 0 < start then "true" else "false") ++ Utf16.ofString "\x7d"
  { encode := fun lines start => prefix_ ++ comma.intercalate lines ++ suffix start
    prefixBytes := prefix_.byteLength
    suffix }

/-- A line without its styling. -/
def RelayConsoleLine.plain (line : RelayConsoleLine) : RelayConsoleLine := { line with segments := none }

/-- A line with its text cut. -/
def RelayConsoleLine.cut (line : RelayConsoleLine) (length : Nat) : RelayConsoleLine :=
  { line.plain with text := line.text.take length ++ truncatedLineSuffix }

/-- The search of `fitConsoleLine`. -/
def fitConsoleLine.search (line : RelayConsoleLine) (encode : RelayConsoleLine → Utf16) (low high : Int)
    (fitted : RelayConsoleLine) : RelayConsoleLine :=
  if low ≤ high then
    let middle := (low + high) / 2
    let candidate := line.cut middle.toNat
    if (encode candidate).byteLength ≤ relayBrowserMaxFrameBytes then
      fitConsoleLine.search line encode (middle + 1) high candidate
    else fitConsoleLine.search line encode low (middle - 1) fitted
  else fitted
termination_by (high + 1 - low).toNat

/-- `fitConsoleLine` -/
def fitConsoleLine (line : RelayConsoleLine) (encode : RelayConsoleLine → Utf16) : RelayConsoleLine :=
  if (encode line).byteLength ≤ relayBrowserMaxFrameBytes then line
  else if (encode line.plain).byteLength ≤ relayBrowserMaxFrameBytes then line.plain
  else fitConsoleLine.search line encode 0 line.text.length { line.plain with text := truncatedLineSuffix }

/-- The loop of `encodeNewestBatch`, with the selected lines oldest first. Reading past the lines throws. -/
def encodeNewestBatch.loop (lines : List RelayConsoleLine) (envelope : BatchEnvelope) (maxBytes : Nat) :
    Nat → List Utf16 → Nat → Option (Nat × List Utf16)
  | 0, selected, _ => some (0, selected)
  | nextStart + 1, selected, selectedBytes => do
      let original ← lines[nextStart]?
      let candidateBytes := envelope.prefixBytes + selectedBytes + original.json.byteLength + selected.length +
        (envelope.suffix nextStart).byteLength
      if maxBytes < candidateBytes ∧ 0 < selected.length then some (nextStart + 1, selected)
      else
        let lineJson :=
          if relayBrowserMaxFrameBytes < candidateBytes then
            (fitConsoleLine original fun candidate => envelope.encode [candidate.json] nextStart).json
          else original.json
        encodeNewestBatch.loop lines envelope maxBytes nextStart (lineJson :: selected)
          (selectedBytes + lineJson.byteLength)

/-- `encodeNewestBatch` -/
def encodeNewestBatch (input : ConsoleBatchInput) (envelope : BatchEnvelope) (end_ maxBytes : Nat) :
    Option EncodedConsoleBatch :=
  (encodeNewestBatch.loop input.lines envelope maxBytes end_ [] 0).map fun (start, selected) =>
    { encoded := envelope.encode selected start, start }

/-- `encodeNewestConsoleBatch` -/
def encodeNewestConsoleBatch (input : ConsoleBatchInput) (maxBytes : Nat) : Option EncodedConsoleBatch :=
  encodeNewestBatch input (batchEnvelope input) input.lines.length maxBytes

/-- `encodeConsoleHistoryFrame` -/
def encodeConsoleHistoryFrame (input : ConsoleBatchInput) (end_ : Nat) : Option EncodedConsoleBatch :=
  let history := { input with type := .history }
  encodeNewestBatch history (batchEnvelope history) end_ relayBrowserMaxFrameBytes

/-! ## Reading history -/

/-- A page, and the end it was asked for with. -/
structure ConsolePage where
  end_ : Nat
  batch : EncodedConsoleBatch
  deriving DecidableEq

/-- Where the next page is to end, and the pages there are, oldest first. -/
structure ConsoleHistory where
  position : Nat
  pages : List ConsolePage
  deriving DecidableEq

inductive HistoryEvent where
  | page

/-- `#sendHistory`'s next page -/
def ConsoleHistory.next (input : ConsoleBatchInput) (s : ConsoleHistory) : HistoryEvent → Option ConsoleHistory
  | .page =>
      if 0 < s.position then
        (encodeConsoleHistoryFrame input s.position).map fun batch =>
          { position := batch.start, pages := { end_ := s.position, batch } :: s.pages }
      else none

/-- History read from any end. -/
def consoleHistorySystem (input : ConsoleBatchInput) : System ConsoleHistory HistoryEvent :=
  .ofFunction (fun s => s.position ≤ input.lines.length ∧ s.pages = []) (ConsoleHistory.next input)

end Kiln.Relay
