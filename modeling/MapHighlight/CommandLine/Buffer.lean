import MapHighlight.Text

/-!
# Output buffers

Output is written piece by piece, and not every piece reaches the device at once. A block buffer
holds pieces back until the next one does not fit. A line buffer does so only with what follows the
last line feed. A channel leads through such layers to the device; what it still holds when the
program is done is handed on last.
-/

namespace MapHighlight.CommandLine

/-- What a buffer holds back. -/
structure Buffer where
  /-- The pieces, the last one first. -/
  pieces : List Text := []
  /-- The number of bytes in them. -/
  bytes : Nat := 0
  /-- The bytes are those of the pieces. -/
  bytes_eq : bytes = Text.byteLength pieces.flatten := by rfl

namespace Buffer

/-- The text that a buffer holds. -/
def text (buffer : Buffer) : Text :=
  buffer.pieces.reverse.flatten

/-- The buffer that holds one more piece. -/
def hold (buffer : Buffer) (piece : Text) : Buffer where
  pieces := piece :: buffer.pieces
  bytes := piece.byteLength + buffer.bytes
  bytes_eq := by rw [List.flatten_cons, Text.byteLength_append, buffer.bytes_eq]

/-- Writes a piece through a buffer of some capacity: the texts that it hands on, and what it holds
then. A piece that does not fit makes the buffer hand on what it holds, and a piece that fills the
whole buffer is not held at all. -/
def write (capacity : Nat) (buffer : Buffer) (piece : Text) : List Text × Buffer :=
  if capacity ≤ piece.byteLength then ([buffer.text, piece], {})
  else if capacity < buffer.bytes + piece.byteLength then ([buffer.text], hold {} piece)
  else ([], buffer.hold piece)

/-- A piece cut behind its last line feed. -/
def cutLines (piece : Text) : Text × Text :=
  ((piece.reverse.dropWhile (· != '\n')).reverse, (piece.reverse.takeWhile (· != '\n')).reverse)

/-- Writes a piece through a buffer that hands on each line as soon as it is complete. -/
def writeLines (capacity : Nat) (buffer : Buffer) (piece : Text) : List Text × Buffer :=
  match cutLines piece with
  | ([], rest) => buffer.write capacity rest
  | (lines, rest) =>
    let (passed, held) := write capacity {} rest
    (buffer.text :: lines :: passed, held)

end Buffer

/-- A layer of buffering. -/
inductive Layer where
  /-- Holds pieces back until the next one does not fit. -/
  | block (capacity : Nat)
  /-- Holds back what follows the last line feed until the next piece does not fit. -/
  | line (capacity : Nat)
deriving DecidableEq, Repr

namespace Layer

/-- Writes a piece through a layer. -/
def write : Layer → Buffer → Text → List Text × Buffer
  | block capacity => Buffer.write capacity
  | line capacity => Buffer.writeLines capacity

/-- Writes pieces through a layer, behind others that it has handed on: all that it has handed on,
and what it holds then. -/
def writeOnto (layer : Layer) (written : List Text × Buffer) (pieces : List Text) :
    List Text × Buffer :=
  pieces.foldl (fun (passed, held) piece =>
    let (more, held) := layer.write held piece
    (passed ++ more, held)) written

/-- Writes pieces through a layer that holds nothing yet. -/
def writeAll (layer : Layer) (pieces : List Text) : List Text × Buffer :=
  layer.writeOnto ([], {}) pieces

end Layer

/-- A way from the program to the device that its output goes to. -/
structure Channel where
  /-- The layers of buffering, the one that the program writes to first. -/
  layers : List Layer
  /-- Whether the program itself has everything handed on when it is done, and so learns of it if
  that fails. -/
  flushes : Bool
deriving DecidableEq, Repr

namespace Channel

/-- What the layers ask the device to take while pieces are written. -/
def requestsThrough : List Layer → List Text → List Text
  | [], pieces => pieces
  | layer :: below, pieces => requestsThrough below (layer.writeAll pieces).1

/-- What the layers ask the device to take if everything is handed on once the pieces are
written. -/
def flushedThrough : List Layer → List Text → List Text
  | [], pieces => pieces
  | layer :: below, pieces =>
    let (passed, held) := layer.writeAll pieces
    flushedThrough below (passed ++ [held.text])

/-- What the device is asked to take while pieces are written. -/
def requests (channel : Channel) (pieces : List Text) : List Text :=
  requestsThrough channel.layers pieces

/-- What the device is asked to take until everything is handed on. -/
def flushed (channel : Channel) (pieces : List Text) : List Text :=
  flushedThrough channel.layers pieces

/-- The channel for lines: every process has one of these. -/
def lineByLine : Channel :=
  ⟨[.line 1024], false⟩

/-- The channel for much output, with a larger buffer in front of the one for lines. -/
def inBlocks : Channel :=
  ⟨[.block 8192, .line 1024], true⟩

end Channel

end MapHighlight.CommandLine
