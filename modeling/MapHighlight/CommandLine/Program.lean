import MapHighlight.BatchLexer.File
import MapHighlight.CommandLine.Arguments
import MapHighlight.CommandLine.Log
import MapHighlight.Json.Forms

/-!
# The program

The program prints the tokens of a file or of standard input, or lists the registered lexers. All
that it sees of its surroundings is what opening a file leads to, the bytes of standard input and
the device that its output goes to. What it reports meanwhile goes to a log, which a logger lays out;
the surroundings choose the logger, and a run does not depend on it.

The full explanation of the arguments and the wording of usage errors belong to the library that
reads arguments, and are short here. So is the choice of colours for the log.
-/

namespace MapHighlight.CommandLine

/-- What surrounds a run of the program. -/
structure World where
  /-- What opening a path leads to. -/
  files : List UInt8 → Opened
  /-- The bytes of standard input. -/
  input : List UInt8
  /-- Where output goes. -/
  device : Device

/-- The name and version of the program. -/
def versionLine : Text :=
  "ifmlex 0.1.0\n"

/-- How the program is called. -/
def helpText : Text :=
  ("Tokenize IFM map sources for syntax highlighting\n\n" : Text) ++
    "Usage: ifmlex [-v]... tokens [-l NAME] [--format text|json] [--no-whitespace]\n" ++
    "                             [--no-comments] [--chunked] [FILE]\n" ++
    "       ifmlex [-v]... lexers [--format text|json]\n" ++
    "       ifmlex --version\n"

namespace Settings

/-- The lexer for a source: an alias decides before the file name does, and standard input without
an alias holds a map. -/
def registration (settings : Settings) : Except LookupError Registration :=
  match settings.lexer, settings.input with
  | some name, _ => Registry.findByAlias name
  | none, some path => Registry.findByFilename path
  | none, none => .ok .ifm

/-- Which trivia is printed. -/
def lexerConfig (settings : Settings) : LexerConfig :=
  ⟨!settings.noWhitespace, !settings.noComments⟩

/-- A reader for the source. -/
def reader (settings : Settings) (world : World) : Except ReadError Reader :=
  match settings.input with
  | none => .ok (.ofBytes world.input)
  | some path => (world.files path).reader.mapError .input

end Settings

/-- The text that a reader holds, read to its end. -/
def readSource (reader : Reader) : Except ReadError Text :=
  match reader.readAll with
  | .error error => .error (.input error)
  | .ok bytes => (Utf8.decode bytes).mapError .invalidUtf8

/-- What is done to find the tokens to print, up to the error that ends them. -/
def tokenActions (settings : Settings) (world : World) : List (Action BatchLexer.Item) :=
  match settings.reader world with
  | .error error => [.yield (.error error)]
  | .ok reader =>
    if settings.chunked then
      (BatchLexer.ofReader reader { lexer := settings.lexerConfig }).actions
    else
      match readSource reader with
      | .error error => [.yield (.error error)]
      | .ok source =>
        .report (.sourceRead source.byteLength) ::
          (Lexer.ofSource source settings.lexerConfig).actions.map (.map .ok)

/-- Tokens as lines, which are written as the tokens are found, up to an error. -/
def lines : List (Action BatchLexer.Item) → Writing
  | [] => ⟨[], none⟩
  | .report event :: actions => (lines actions).behindReport event
  | .yield (.error error) :: _ => ⟨[], some (.read error)⟩
  | .yield (.ok token) :: actions => (lines actions).behindPieces token.linePieces

/-- Finds all tokens up to an error: the events reported meanwhile, and the tokens or the error. -/
def collect : List (Action BatchLexer.Item) → List Event × Except ReadError (List Token)
  | [] => ([], .ok [])
  | .report event :: actions =>
    let (events, tokens) := collect actions
    (event :: events, tokens)
  | .yield (.error error) :: _ => ([], .error error)
  | .yield (.ok token) :: actions =>
    let (events, tokens) := collect actions
    (events, tokens.map (token :: ·))

/-- Tokens as a JSON document, which is written only if no error ends them. -/
def jsonDocument (actions : List (Action BatchLexer.Item)) : Writing :=
  let (events, tokens) := collect actions
  match tokens with
  | .error error => ⟨events.map .report, some (.read error)⟩
  | .ok tokens =>
    let document := (Json.array (tokens.map Token.json)).documentPieces
    ⟨events.map .report ++ document.map .yield, none⟩

/-- What the subcommand that prints tokens does. -/
def writeTokens (settings : Settings) (world : World) : Writing :=
  match settings.registration with
  | .error error => ⟨[], some (.lookup error)⟩
  | .ok registration =>
    let actions := tokenActions settings world
    let writing := match settings.format.getD .text with
      | .text => lines actions
      | .json => jsonDocument actions
    writing.behindReport (.lexerChosen registration.name)

/-- The pieces in which a registration is written as a paragraph. -/
def paragraphPieces (registration : Registration) : List Text :=
  let row (label : Text) (texts : List Text) : List Text :=
    ['\n' :: label, List.intercalate ", ".toList texts]
  [registration.name] ++ row "  aliases:   " registration.aliases ++
    row "  filenames: " registration.filenames ++ row "  mimetypes: " registration.mimetypes ++
    [['\n']]

/-- What the subcommand that lists lexers does, which reports nothing. -/
def writeLexers (format : Format) : Writing :=
  let pieces := match format with
    | .text => Registry.all.flatMap paragraphPieces
    | .json => (Json.array (Registry.all.map Registration.json)).documentPieces
  ⟨pieces.map .yield, none⟩

/-- Carries out a command. -/
def perform (world : World) (command : Command) : Run :=
  let watched := Level.ofVerbosity command.verbosity
  match command with
  | .tokens settings => .ofWriting watched .inBlocks world.device (writeTokens settings world)
  | .lexers format _ => .ofWriting watched .lineByLine world.device (writeLexers format)
  | .version => ⟨world.device.announce versionLine, watched, []⟩
  | .help => ⟨world.device.announce helpText, watched, []⟩

/-- A run of the program on its arguments. -/
def run (arguments : List Argument) (world : World) : Except UsageError Run :=
  (parse arguments).map (perform world)

end MapHighlight.CommandLine
