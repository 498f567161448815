import MapHighlight.Glob
import MapHighlight.Text.Quoted
import MapHighlight.Text.Utf8
import MapHighlight.UnixPath

/-!
# The registry

A highlighting host picks a lexer by one of its aliases, by the name of the file it shows or by
the MIME type of the text. The registry lists the lexers with what they answer to; it holds one
lexer, the one for interactive fiction maps.
-/

namespace MapHighlight

/-- What a lexer is called and what it answers to. -/
structure Registration where
  /-- The name for people to read. -/
  name : Text
  /-- The short names. -/
  aliases : List Text
  /-- The globs of file names. -/
  filenames : List Text
  /-- The MIME types. -/
  mimetypes : List Text
deriving DecidableEq, Repr

namespace Registration

/-- The registration of the lexer for interactive fiction maps. -/
def ifm : Registration where
  name := "Interactive Fiction Mapper"
  aliases := ["ifm", "IFM"]
  filenames := ["*.ifm"]
  mimetypes := ["text/x-ifm", "application/x-ifm"]

/-- Whether an alias names the lexer. ASCII letters count alike in upper and lower case. -/
def hasAlias (registration : Registration) (name : Text) : Bool :=
  registration.aliases.any fun candidate => candidate.asciiLower == name.asciiLower

/-- Whether a glob of the lexer matches a file name. -/
def matchesFilename (registration : Registration) (filename : Text) : Bool :=
  registration.filenames.any fun glob => Glob.accepts glob filename

/-- Whether the lexer serves a MIME type. -/
def hasMimetype (registration : Registration) (mimetype : Text) : Bool :=
  registration.mimetypes.contains mimetype

end Registration

/-- Why no lexer was found. -/
inductive LookupError where
  /-- No lexer has the alias. -/
  | unknownAlias (name : Text)
  /-- No glob matches the file name of the path. -/
  | unknownFilename (path : Text)
  /-- No lexer serves the MIME type. -/
  | unknownMimetype (mimetype : Text)
deriving DecidableEq, Repr

namespace LookupError

/-- What was looked up in vain. -/
def query : LookupError → Text
  | unknownAlias text | unknownFilename text | unknownMimetype text => text

/-- The wording of an error. -/
def message : LookupError → Text
  | unknownAlias name => ("no lexer for alias " : Text) ++ name.quoted
  | unknownFilename path => ("no lexer for filename " : Text) ++ path.quoted
  | unknownMimetype mimetype => ("no lexer for mimetype " : Text) ++ mimetype.quoted

end LookupError

namespace Registry

/-- All registered lexers. -/
def all : List Registration :=
  [.ifm]

/-- The first lexer that satisfies a condition, or the error to report. -/
def find (condition : Registration → Bool) (error : LookupError) :
    Except LookupError Registration :=
  match all.find? condition with
  | some registration => .ok registration
  | none => .error error

/-- The lexer that has an alias. -/
def findByAlias (name : Text) : Except LookupError Registration :=
  find (·.hasAlias name) (.unknownAlias name)

/-- The name by which globs know the file at a path. A path without a file name, or with one that
is not UTF-8, goes by the empty name. -/
def globName (path : List UInt8) : Text :=
  match (UnixPath.fileName path).map Utf8.decode with
  | some (.ok name) => name
  | _ => []

/-- The lexer for the file at a path. -/
def findByFilename (path : List UInt8) : Except LookupError Registration :=
  find (·.matchesFilename (globName path)) (.unknownFilename (Utf8.decodeLossy path))

/-- The lexer that serves a MIME type. -/
def findByMimetype (mimetype : Text) : Except LookupError Registration :=
  find (·.hasMimetype mimetype) (.unknownMimetype mimetype)

end Registry

end MapHighlight
