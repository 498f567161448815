import MapHighlight.Location
import MapHighlight.Rule
import MapHighlight.Text.Quoted
import MapHighlight.Text.Utf8

/-!
# Events

What the lexer and the program around it report of their work, for those who watch it. An event is
what happened; its level, its wording and the part of the program that reports it are given here
once. That a rule matched no text would be reported too, but no rule does, so there is no event for
it.
-/

namespace MapHighlight

/-- How much detail a report belongs to. -/
inductive Level where
  /-- What may have gone wrong. -/
  | warn
  /-- What was decided. -/
  | info
  /-- Stages of the work. -/
  | debug
  /-- Single tokens. -/
  | trace
deriving DecidableEq, Repr

namespace Level

/-- The name of a level. -/
def name : Level → Text
  | warn => "WARN"
  | info => "INFO"
  | debug => "DEBUG"
  | trace => "TRACE"

/-- How fine the detail of a level is. -/
def detail : Level → Nat
  | warn => 0
  | info => 1
  | debug => 2
  | trace => 3

/-- Whether a watcher who asks for the first level sees reports of the second. -/
def shows (watched level : Level) : Bool :=
  level.detail ≤ watched.detail

/-- The level to watch if it was asked so many times to report more of the work. -/
def ofVerbosity : Nat → Level
  | 0 => warn
  | 1 => info
  | 2 => debug
  | _ => trace

end Level

/-- Something that is reported. -/
inductive Event where
  /-- A whole source of so many bytes is about to be lexed. -/
  | sourceGiven (bytes : Nat)
  /-- A rule matched so many bytes at a place. -/
  | matched (location : Location) (rule : Rule) (bytes : Nat)
  /-- No rule matched the character at a place. -/
  | unmatched (location : Location) (c : Char)
  /-- A double quote at a place has no closing quote in the text read so far. -/
  | quoteHeld (location : Location)
  /-- A batch was lexed: so many tokens are handed on, so many bytes wait. -/
  | batchLexed (emitted heldBytes : Nat)
  /-- A file was opened to be lexed in batches. -/
  | fileOpened (path : List UInt8)
  /-- A lexer was chosen for a source. -/
  | lexerChosen (name : Text)
  /-- A source of so many bytes was read as a text. -/
  | sourceRead (bytes : Nat)
deriving DecidableEq, Repr

namespace Event

/-- The level of an event. -/
def level : Event → Level
  | lexerChosen .. => .info
  | matched .. | unmatched .. => .trace
  | _ => .debug

/-- The part of the program that reports an event. -/
def target : Event → Text
  | sourceGiven .. | matched .. | unmatched .. => "ifm_lexer::lexer"
  | quoteHeld .. | batchLexed .. | fileOpened .. => "ifm_lexer::chunked_lexer"
  | lexerChosen .. | sourceRead .. => "ifmlex"

/-- The wording of an event. -/
def message : Event → Text
  | sourceGiven bytes => ("tokenizing " : Text) ++ Text.ofNat bytes ++ " bytes of IFM source"
  | matched location rule bytes =>
    location.display ++ ": rule `" ++ rule.name ++ "` matched " ++ Text.ofNat bytes ++ " bytes"
  | unmatched location c => location.display ++ ": no rule matched " ++ Text.quotedChar c
  | quoteHeld location =>
    location.display ++ ": quote without a closing match, reading ahead"
  | batchLexed emitted heldBytes =>
    ("chunk lexed: " : Text) ++ Text.ofNat emitted ++ " tokens emitted, " ++
      Text.ofNat heldBytes ++ " bytes held back"
  | fileOpened path => ("opened " : Text) ++ Utf8.decodeLossy path ++ " for chunked lexing"
  | lexerChosen name => ("using lexer " : Text) ++ name.quoted
  | sourceRead bytes => ("read " : Text) ++ Text.ofNat bytes ++ " bytes"

end Event

end MapHighlight
