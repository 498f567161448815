import MapHighlight.Text

/-!
# Reading texts from bytes

Bytes are read as UTF-8 one scalar value at a time. `decodePrefix` splits bytes into the text of
their longest well-formed prefix and the bytes that follow it, so a byte sequence is UTF-8 exactly
if nothing is left over. `decodeLossy` reads any bytes, with one replacement character for each
malformed stretch.
-/

namespace MapHighlight.Utf8

/-- The bytes of a text. -/
def encode (text : Text) : List UInt8 :=
  text.flatMap String.utf8EncodeChar

/-- A text stands for its bytes where bytes are asked for. -/
instance : Coe Text (List UInt8) := ⟨encode⟩

/-- The scalar value whose encoding stands at the start of the bytes, if one does. -/
def first? (bytes : List UInt8) : Option Char :=
  (bytes.take 4).toByteArray.utf8DecodeChar? 0

theorem first?_nil : first? [] = none := by
  decide +kernel

private theorem length_sub_first_lt {bytes : List UInt8} {c : Char}
    (h : first? bytes = some c) : bytes.length - c.utf8Size < bytes.length := by
  have hpos := c.utf8Size_pos
  cases bytes with
  | nil => simp [first?_nil] at h
  | cons b rest => simp only [List.length_cons]; omega

/-- The text of the longest well-formed prefix, put behind the reversed text read so far, and the
bytes that follow that prefix. -/
def decodeOnto (reversed : Text) (bytes : List UInt8) : Text × List UInt8 :=
  match h : first? bytes with
  | none => (reversed.reverse, bytes)
  | some c =>
    have := length_sub_first_lt h
    decodeOnto (c :: reversed) (bytes.drop c.utf8Size)
termination_by bytes.length

/-- The text of the longest prefix of the bytes that is well-formed UTF-8, and the bytes that
follow that prefix. -/
def decodePrefix (bytes : List UInt8) : Text × List UInt8 :=
  decodeOnto [] bytes

/-- The text of well-formed bytes, or else the length of their longest well-formed prefix, which
is the offset of the first malformed byte. -/
def decode (bytes : List UInt8) : Except Nat Text :=
  match decodePrefix bytes with
  | (text, []) => .ok text
  | (text, _ :: _) => .error text.byteLength

/-- The character that stands for a malformed stretch of bytes. -/
def replacement : Char :=
  '\uFFFD'

/-- Whether the bytes are the start of some scalar value's encoding and lack its end. -/
def isTruncated (bytes : List UInt8) : Bool :=
  (first? (bytes ++ [0x80])).isSome || (first? (bytes ++ [0x80, 0x80])).isSome

/-- The length of the malformed stretch at the start of bytes that start with no scalar value: the
longest start of some encoding, or one byte if there is none. -/
def malformedLength (bytes : List UInt8) : Nat :=
  if isTruncated (bytes.take 3) then min bytes.length 3
  else if isTruncated (bytes.take 2) then min bytes.length 2
  else 1

/-- The text of any bytes, each malformed stretch read as the replacement character. -/
def decodeLossy (bytes : List UInt8) : Text :=
  match bytes with
  | [] => []
  | b :: rest =>
    match h : first? (b :: rest) with
    | some c =>
      have := length_sub_first_lt h
      c :: decodeLossy ((b :: rest).drop c.utf8Size)
    | none => replacement :: decodeLossy (rest.drop (malformedLength (b :: rest) - 1))
termination_by bytes.length
decreasing_by
  · simpa only [List.length_drop] using this
  · simp only [List.length_drop, List.length_cons]; omega

end MapHighlight.Utf8
