import MapHighlight.Text

/-!
# Reading errors

Lexing a text cannot fail, but getting the text can: the reader may report a failure, or the bytes
it delivers may not be UTF-8.
-/

namespace MapHighlight

/-- The kinds of failure that a reader tells apart. -/
inductive FailureKind where
  /-- A failure of no particular kind. -/
  | other
  /-- The request was interrupted and may be repeated. -/
  | interrupted
  /-- The input ended too early. -/
  | unexpectedEof
  /-- Reading is not allowed. -/
  | permissionDenied
  /-- The data cannot be made sense of. -/
  | invalidData
deriving DecidableEq, Repr

namespace FailureKind

/-- Every kind of failure. -/
def all : List FailureKind :=
  [other, interrupted, unexpectedEof, permissionDenied, invalidData]

/-- The name of a kind of failure. -/
def name : FailureKind → Text
  | other => "Other"
  | interrupted => "Interrupted"
  | unexpectedEof => "UnexpectedEof"
  | permissionDenied => "PermissionDenied"
  | invalidData => "InvalidData"

/-- The kind of failure that has a name, if one does. -/
def ofName? (text : Text) : Option FailureKind :=
  all.find? fun kind => kind.name = text

theorem ofName?_name (kind : FailureKind) : ofName? kind.name = some kind := by
  cases kind <;> rfl

end FailureKind

/-- The errors of the operating system that files and devices run into. -/
inductive SystemError where
  /-- A path leads nowhere. -/
  | noSuchFile
  /-- A path goes through something that is not a directory. -/
  | notADirectory
  /-- A directory was to be read as a file. -/
  | isADirectory
  /-- A device takes no more output. -/
  | noSpaceLeft
deriving DecidableEq, Repr

namespace SystemError

/-- The number of an error. -/
def code : SystemError → Nat
  | noSuchFile => 2
  | notADirectory => 20
  | isADirectory => 21
  | noSpaceLeft => 28

/-- The description of an error. -/
def description : SystemError → Text
  | noSuchFile => "No such file or directory"
  | notADirectory => "Not a directory"
  | isADirectory => "Is a directory"
  | noSpaceLeft => "No space left on device"

/-- The wording of an error: its description and its number. -/
def message (error : SystemError) : Text :=
  error.description ++ " (os error " ++ Text.ofNat error.code ++ [')']

end SystemError

/-- A failure to get bytes. -/
inductive InputError where
  /-- The operating system refused. -/
  | system (error : SystemError)
  /-- A reader reports a failure of its own. -/
  | reported (kind : FailureKind) (message : Text)
deriving DecidableEq, Repr

namespace InputError

/-- Whether the request that failed may simply be repeated. -/
def isInterruption : InputError → Bool
  | reported .interrupted _ => true
  | _ => false

/-- The wording of a failure. -/
def message : InputError → Text
  | system error => error.message
  | reported _ message => message

end InputError

/-- Why a source could not be read as a text. -/
inductive ReadError where
  /-- Its bytes could not be had. -/
  | input (error : InputError)
  /-- Its bytes are not UTF-8; the first malformed byte has the given offset. -/
  | invalidUtf8 (offset : Nat)
deriving DecidableEq, Repr

/-- The wording of a reading error. -/
def ReadError.message : ReadError → Text
  | input error => ("failed to read IFM source: " : Text) ++ error.message
  | invalidUtf8 offset =>
    ("IFM source is not valid UTF-8 at byte " : Text) ++ Text.ofNat offset

end MapHighlight
