import MapHighlight.BatchLexer
import MapHighlight.FileTree

/-!
# Lexing files in batches

A file is opened when its batch lexer is made and read only as items are asked for, so a directory
fails at the first item and a missing file at once.
-/

namespace MapHighlight.BatchLexer

/-- A batch lexer for the file at a path, with what is reported of opening it. -/
def ofFile (files : List UInt8 → Opened) (path : List UInt8) (config : BatchConfig) :
    Except ReadError (Event × BatchLexer) :=
  match (files path).reader with
  | .ok reader => .ok (.fileOpened path, ofReader reader config)
  | .error error => .error (.input error)

end MapHighlight.BatchLexer
