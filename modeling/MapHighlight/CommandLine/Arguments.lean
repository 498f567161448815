import MapHighlight.Text.Utf8

/-!
# Command-line arguments

The program takes a subcommand with options and, for one of them, a file. Arguments are read from
left to right and the first mistake ends the reading; a request for the version or for help is
answered as soon as it is met. Options have long names after two hyphens and some have a letter
after one; letters may be run together. A value follows its option as the next argument, after an
equals sign, or directly after a letter.

Arguments are bytes. A file may have any bytes in its name; the names and letters of options are
texts, and so are their values.
-/

namespace MapHighlight.CommandLine

/-- An argument is the list of its bytes. -/
abbrev Argument := List UInt8

/-- Arguments that are texts stand for their bytes. -/
instance : Coe (List Text) (List Argument) := ⟨List.map Utf8.encode⟩

/-- How output is laid out. -/
inductive Format where
  /-- One token a line, for people to read. -/
  | text
  /-- A JSON document. -/
  | json
deriving DecidableEq, Repr, Inhabited

/-- The format with a name, if one has it. -/
def Format.ofName? (name : Text) : Option Format :=
  if name = "text" then some .text
  else if name = "json" then some .json
  else none

/-- What the options and the file that were given come to. -/
structure Settings where
  /-- The file to read; standard input if there is none. -/
  input : Option (List UInt8) := none
  /-- The alias of the lexer to use. -/
  lexer : Option Text := none
  /-- The layout of the output. -/
  format : Option Format := none
  /-- Whether white space is left out. -/
  noWhitespace : Bool := false
  /-- Whether comments are left out. -/
  noComments : Bool := false
  /-- Whether the input is lexed as it is read. -/
  chunked : Bool := false
  /-- How often the part of the command line that is read has asked to report more of the work. -/
  verbose : Nat := 0
  /-- How often the arguments before the subcommand have asked for that. -/
  verboseBefore : Nat := 0
deriving DecidableEq, Repr, Inhabited

namespace Settings

/-- How often it was asked to report more of the work. What the arguments of the subcommand say about
it counts, and what stands before the subcommand only if they say nothing. -/
def verbosity (settings : Settings) : Nat :=
  if settings.verbose = 0 then settings.verboseBefore else settings.verbose

/-- The settings with which the arguments of a subcommand are read. -/
def atSubcommand (settings : Settings) : Settings :=
  { settings with verbose := 0, verboseBefore := settings.verbose }

end Settings

/-- What the program is asked to do. -/
inductive Command where
  /-- Print the tokens of a source. -/
  | tokens (settings : Settings)
  /-- List the registered lexers. -/
  | lexers (format : Format) (verbosity : Nat)
  /-- Print the version. -/
  | version
  /-- Explain the arguments. -/
  | help
deriving DecidableEq, Repr

/-- How often a command asks to report more of the work. -/
def Command.verbosity : Command → Nat
  | tokens settings => settings.verbosity
  | lexers _ verbosity => verbosity
  | version | help => 0

/-- Why arguments cannot be made sense of. -/
inductive UsageError where
  /-- There is no subcommand. -/
  | missingCommand
  /-- An argument is not expected where it stands. -/
  | unexpected (argument : Text)
  /-- An option lacks its value. -/
  | missingValue (option : Text)
  /-- An option that takes no value was given one. -/
  | needlessValue (option : Text)
  /-- A value is not one of those that the option takes. -/
  | badValue (option value : Text)
  /-- An option that may occur once was given again. -/
  | repeated (option : Text)
deriving DecidableEq, Repr

/-- The wording of a usage error. -/
def UsageError.message : UsageError → Text
  | missingCommand => "a subcommand is required"
  | unexpected argument => ("unexpected argument " : Text) ++ argument
  | missingValue option => ("a value is required for " : Text) ++ option
  | needlessValue option => ("no value is expected for " : Text) ++ option
  | badValue option value => ("invalid value " : Text) ++ value ++ " for " ++ option
  | repeated option => option ++ " cannot be used more than once"

/-- The byte that options begin with. -/
def hyphen : UInt8 :=
  45

/-- The byte between an option and its value. -/
def equalsSign : UInt8 :=
  61

/-- An argument by its shape. -/
inductive Shape where
  /-- Two hyphens by themselves: what follows are no options. -/
  | separator
  /-- A long name after two hyphens, with the value after an equals sign if there is one. -/
  | long (name : List UInt8) (value : Option (List UInt8))
  /-- Letters after one hyphen, as far as the bytes are a text, and the bytes behind them. -/
  | short (letters : Text) (others : List UInt8)
  /-- Anything else, a single hyphen included. -/
  | plain (argument : Argument)
deriving DecidableEq, Repr

/-- The shape of a long option, by the bytes after its two hyphens. -/
def Shape.ofLong (bytes : List UInt8) : Shape :=
  let name := bytes.takeWhile (· != equalsSign)
  match bytes.dropWhile (· != equalsSign) with
  | [] => .long name none
  | _ :: value => .long name (some value)

/-- The shape of an argument. -/
def Shape.ofArgument (argument : Argument) : Shape :=
  match argument with
  | [] => .plain argument
  | [_] => .plain argument
  | first :: second :: others =>
    if first ≠ hyphen then .plain argument
    else if second ≠ hyphen then
      let (letters, others) := Utf8.decodePrefix (second :: others)
      .short letters others
    else if others.isEmpty then .separator
    else .ofLong others

/-- The options. -/
inductive Opt where
  /-- Report more of the work. -/
  | verbose
  /-- Explain the arguments. -/
  | help
  /-- Print the version. -/
  | version
  /-- Choose the lexer by an alias. -/
  | lexer
  /-- Choose the layout of the output. -/
  | format
  /-- Leave out white space. -/
  | noWhitespace
  /-- Leave out comments. -/
  | noComments
  /-- Lex the input as it is read. -/
  | chunked
deriving DecidableEq, Repr

namespace Opt

/-- The long name of an option. -/
def name : Opt → Text
  | verbose => "verbose"
  | help => "help"
  | version => "version"
  | lexer => "lexer"
  | format => "format"
  | noWhitespace => "no-whitespace"
  | noComments => "no-comments"
  | chunked => "chunked"

/-- The letter of an option, if it has one. -/
def letter? : Opt → Option Char
  | verbose => some 'v'
  | help => some 'h'
  | version => some 'V'
  | lexer => some 'l'
  | _ => none

/-- Whether an option takes a value. -/
def takesValue : Opt → Bool
  | lexer | format => true
  | _ => false

end Opt

/-- A part of the command line, which knows some of the options. -/
inductive Section where
  /-- The arguments up to the subcommand. -/
  | top
  /-- The arguments of the subcommand that prints tokens. -/
  | tokens
  /-- The arguments of the subcommand that lists lexers. -/
  | lexers
deriving DecidableEq, Repr

namespace Section

/-- The options that a part of the command line knows. -/
def options : Section → List Opt
  | top => [.verbose, .help, .version]
  | tokens => [.verbose, .help, .lexer, .format, .noWhitespace, .noComments, .chunked]
  | lexers => [.verbose, .help, .format]

/-- The part of the command line that a subcommand opens. -/
def ofSubcommand? (name : Argument) : Option Section :=
  if name = ("tokens" : Text) then some tokens
  else if name = ("lexers" : Text) then some lexers
  else none

/-- The command that the arguments of a subcommand ask for. -/
def command (settings : Settings) : Section → Except UsageError Command
  | top => .error .missingCommand
  | tokens => .ok (.tokens settings)
  | lexers => .ok (.lexers (settings.format.getD .text) settings.verbosity)

end Section

namespace Settings

/-- The settings once a value is given to an option. -/
def withValue (settings : Settings) (option : Opt) (value : Text) :
    Except UsageError Settings :=
  match option with
  | .lexer =>
    if settings.lexer.isSome then .error (.repeated option.name)
    else .ok { settings with lexer := some value }
  | .format =>
    match Format.ofName? value with
    | none => .error (.badValue option.name value)
    | some format =>
      if settings.format.isSome then .error (.repeated option.name)
      else .ok { settings with format := some format }
  | _ => .error (.needlessValue option.name)

/-- The settings once an option is given the value that bytes stand for, which must be a text. -/
def withBytes (settings : Settings) (option : Opt) (value : List UInt8) :
    Except UsageError Settings :=
  match Utf8.decode value with
  | .ok value => settings.withValue option value
  | .error _ => .error (.badValue option.name (Utf8.decodeLossy value))

/-- The settings once an option that takes no value is given. -/
def withFlag (settings : Settings) (option : Opt) : Except UsageError Settings :=
  match option with
  | .noWhitespace =>
    if settings.noWhitespace then .error (.repeated option.name)
    else .ok { settings with noWhitespace := true }
  | .noComments =>
    if settings.noComments then .error (.repeated option.name)
    else .ok { settings with noComments := true }
  | .chunked =>
    if settings.chunked then .error (.repeated option.name)
    else .ok { settings with chunked := true }
  | .verbose => .ok { settings with verbose := settings.verbose + 1 }
  | _ => .ok settings

/-- The settings once a file is given. A file has a name. -/
def withFile (settings : Settings) (part : Section) (file : Argument) :
    Except UsageError Settings :=
  if part = .tokens ∧ settings.input.isNone then
    if file.isEmpty then .error (.badValue "file" [])
    else .ok { settings with input := some file }
  else .error (.unexpected (Utf8.decodeLossy file))

end Settings

/-- How far the options in one argument have brought the reading. -/
inductive Progress where
  /-- The next argument is read with these settings. -/
  | going (settings : Settings)
  /-- The next argument is the value of an option. -/
  | awaiting (option : Opt) (settings : Settings)
  /-- The command is settled, whatever follows. -/
  | settled (command : Command)

namespace Progress

/-- The progress that an option without a value makes. -/
def ofFlag (settings : Settings) : Opt → Except UsageError Progress
  | .help => .ok (.settled .help)
  | .version => .ok (.settled .version)
  | option => (settings.withFlag option).map .going

/-- The progress that a long option makes. -/
def ofLong (part : Section) (settings : Settings) (name : List UInt8)
    (value : Option (List UInt8)) : Except UsageError Progress :=
  match part.options.find? (Utf8.encode ·.name = name), value with
  | none, _ => .error (.unexpected ("--".toList ++ Utf8.decodeLossy name))
  | some option, none =>
    if option.takesValue then .ok (.awaiting option settings) else ofFlag settings option
  | some option, some value =>
    if option.takesValue then (settings.withBytes option value).map .going
    else .error (.needlessValue option.name)

/-- The progress that letters run together make, with further bytes behind them. What follows a
letter that takes a value is that value; an equals sign before it does not belong to it. -/
def ofLetters (part : Section) (settings : Settings) (others : List UInt8) :
    Text → Except UsageError Progress
  | [] =>
    if others.isEmpty then .ok (.going settings)
    else .error (.unexpected ('-' :: Utf8.decodeLossy others))
  | letter :: letters =>
    match part.options.find? (·.letter? = some letter) with
    | none => .error (.unexpected ['-', letter])
    | some option =>
      if option.takesValue then
        match Utf8.encode letters ++ others with
        | [] => .ok (.awaiting option settings)
        | first :: value =>
          let value := if first = equalsSign then value else first :: value
          (settings.withBytes option value).map .going
      else
        match ofFlag settings option with
        | .ok (.going settings) => ofLetters part settings others letters
        | other => other

end Progress

/-- Reads arguments that are no options. -/
def readFiles (part : Section) (settings : Settings) : List Argument → Except UsageError Command
  | [] => part.command settings
  | file :: others =>
    match settings.withFile part file with
    | .ok settings => readFiles part settings others
    | .error error => .error error

/-- Reads the value of an option and goes on, or goes on without a value. -/
def readFrom (part : Section) (progress : Except UsageError Progress) :
    List Argument → Except UsageError Command
  | [] =>
    match progress with
    | .error error => .error error
    | .ok (.settled command) => .ok command
    | .ok (.awaiting option _) => .error (.missingValue option.name)
    | .ok (.going settings) => part.command settings
  | argument :: others =>
    match progress with
    | .error error => .error error
    | .ok (.settled command) => .ok command
    | .ok (.awaiting option settings) =>
      match Shape.ofArgument argument with
      | .plain value => readFrom part ((settings.withBytes option value).map .going) others
      | _ => .error (.missingValue option.name)
    | .ok (.going settings) =>
      match part, Section.ofSubcommand? argument with
      | .top, some part => readFrom part (.ok (.going settings.atSubcommand)) others
      | part, _ =>
        match Shape.ofArgument argument with
        | .separator => readFiles part settings others
        | .long name value => readFrom part (Progress.ofLong part settings name value) others
        | .short letters bytes =>
          readFrom part (Progress.ofLetters part settings bytes letters) others
        | .plain file =>
          if part = .top ∧ file = ("help" : Text) then .ok .help
          else readFrom part ((settings.withFile part file).map .going) others

/-- The command that arguments ask for. -/
def parse (arguments : List Argument) : Except UsageError Command :=
  readFrom .top (.ok (.going {})) arguments

end MapHighlight.CommandLine
