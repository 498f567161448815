import MapHighlight.Action
import MapHighlight.CommandLine.Buffer
import MapHighlight.ReadError
import MapHighlight.Registry

/-!
# Output devices

Output reaches its device through a channel that holds part of it back. A device that takes no
output is therefore noticed when the channel first asks it to take something: in the middle of the
work, at its end, or never. What the channel holds back for good is lost without notice.
-/

namespace MapHighlight.CommandLine

/-- Where output goes. -/
inductive Device where
  /-- A device that takes all output. -/
  | working
  /-- A device that has no space left. -/
  | full
deriving DecidableEq, Repr

/-- Why the program could not do what it was asked. -/
inductive Failure where
  /-- There is no lexer for the source. -/
  | lookup (error : LookupError)
  /-- The source cannot be read as a text. -/
  | read (error : ReadError)
  /-- The output cannot be written. -/
  | output (error : SystemError)
deriving DecidableEq, Repr

namespace Failure

/-- The wording of a failure. -/
def message : Failure → Text
  | lookup error => error.message
  | read error => error.message
  | output error => ("failed to write output: " : Text) ++ error.message

/-- The exit code of a failure: a lexer that does not exist is a mistake of the caller. -/
def exitCode : Failure → Nat
  | lookup _ => 2
  | read _ | output _ => 1

end Failure

/-- What the program does to write its output, and the failure that stopped it from doing more. -/
structure Writing where
  /-- The events to report and the pieces to write. -/
  actions : List (Action Text)
  /-- The failure, if there was one. -/
  failure : Option Failure := none
deriving DecidableEq, Repr

namespace Writing

/-- The pieces to write. -/
def pieces (writing : Writing) : List Text :=
  Action.values writing.actions

/-- The text to write. -/
def text (writing : Writing) : Text :=
  writing.pieces.flatten

/-- The events to report. -/
def events (writing : Writing) : List Event :=
  Action.events writing.actions

/-- The writing that reports an event before anything else. -/
def behindReport (event : Event) (writing : Writing) : Writing :=
  { writing with actions := .report event :: writing.actions }

/-- The writing that writes pieces before anything else. -/
def behindPieces (pieces : List Text) (writing : Writing) : Writing :=
  { writing with actions := pieces.map .yield ++ writing.actions }

@[simp] theorem pieces_behindReport (event : Event) (writing : Writing) :
    (writing.behindReport event).pieces = writing.pieces := rfl

@[simp] theorem events_behindReport (event : Event) (writing : Writing) :
    (writing.behindReport event).events = event :: writing.events := rfl

@[simp] theorem pieces_behindPieces (pieces : List Text) (writing : Writing) :
    (writing.behindPieces pieces).pieces = pieces ++ writing.pieces := by
  rw [Writing.pieces, behindPieces, Action.values_append, Action.values_map_yield]
  rfl

@[simp] theorem events_behindPieces (pieces : List Text) (writing : Writing) :
    (writing.behindPieces pieces).events = writing.events := by
  rw [events, behindPieces, Action.events_append, Action.events_map_yield]
  rfl

end Writing

/-- What a run of the program leaves behind, its log aside. -/
structure Outcome where
  /-- The exit code. -/
  code : Nat
  /-- What was written to standard output. -/
  output : Text
  /-- What was written to standard error, without lines of the log. -/
  errors : Text
deriving DecidableEq, Repr

/-- The outcome of a failure, or of none, after some output. -/
def Outcome.ofFailure (output : Text) : Option Failure → Outcome
  | none => ⟨0, output, []⟩
  | some failure =>
    ⟨failure.exitCode, output, ("error: " : Text) ++ failure.message ++ ['\n']⟩

namespace Device

/-- Why a device does not take what it is asked to take, if it does not. A request for no text is no
request. -/
def refusal (requests : List Text) : Device → Option SystemError
  | working => none
  | full => if requests.all List.isEmpty then none else some .noSpaceLeft

/-- What a device has taken of what it was asked to take. -/
def taken (requests : List Text) : Device → Text
  | working => requests.flatten
  | full => []

/-- Writes to a device through a channel, and reports the first failure that comes up. The program
stops at the first piece that it cannot write. Whether the device takes what is handed on last is
noticed only if the program itself has it handed on, which it does unless it has failed before. -/
def deliver (channel : Channel) (writing : Writing) (device : Device) : Outcome :=
  let output := device.taken (channel.flushed writing.pieces)
  match device.refusal (channel.requests writing.pieces), writing.failure with
  | some error, _ => .ofFailure output (some (.output error))
  | none, some failure => .ofFailure output (some failure)
  | none, none =>
    let last := if channel.flushes then device.refusal (channel.flushed writing.pieces) else none
    .ofFailure output (last.map .output)

/-- The events that are reported on a full device behind pieces that were written already, up to the
first piece whose writing is refused. -/
def heard (channel : Channel) (written : List Text) : List (Action Text) → List Event
  | [] => []
  | .report event :: actions => event :: heard channel written actions
  | .yield piece :: actions =>
    let written := written ++ [piece]
    match full.refusal (channel.requests written) with
    | none => heard channel written actions
    | some _ => []

/-- The events that are reported while something is written to a device. A full device stops the
program at the first piece that the channel cannot hold back. -/
def reported (channel : Channel) (writing : Writing) : Device → List Event
  | working => writing.events
  | full => heard channel [] writing.actions

/-- Writes to a device, whether or not that succeeds. -/
def announce (text : Text) : Device → Outcome
  | working => ⟨0, text, []⟩
  | full => ⟨0, [], []⟩

end Device

end MapHighlight.CommandLine
