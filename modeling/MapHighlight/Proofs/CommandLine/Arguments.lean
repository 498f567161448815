import MapHighlight.CommandLine.Arguments
import Mathlib.Data.List.TakeWhile

/-!
# One flag among the arguments

Arguments are read one after another. Whether the input is to be lexed as it is read is noted in the
settings, and of the arguments only the option for it looks at that note. A command line that is
accepted without this option is therefore accepted with it and asks for the same otherwise. A file
can be named whatever its bytes are.
-/

namespace MapHighlight.CommandLine

/-- The settings with another choice of whether the input is lexed as it is read. -/
def Settings.setChunked (chunked : Bool) (settings : Settings) : Settings :=
  { settings with chunked }

@[simp] theorem Settings.chunked_setChunked (chunked : Bool) (settings : Settings) :
    (settings.setChunked chunked).chunked = chunked := rfl

@[simp] theorem Settings.setChunked_setChunked (first second : Bool) (settings : Settings) :
    (settings.setChunked first).setChunked second = settings.setChunked second := rfl

/-- The choice that was made may be made again. -/
theorem Settings.setChunked_of_eq {chunked : Bool} {settings : Settings}
    (h : settings.chunked = chunked) : settings.setChunked chunked = settings := by
  rw [← h]
  rfl

/-- The command with another choice of whether the input is lexed as it is read. -/
def Command.setChunked (chunked : Bool) : Command → Command
  | tokens settings => tokens (settings.setChunked chunked)
  | command => command

/-- The progress with another choice of whether the input is lexed as it is read. -/
def Progress.setChunked (chunked : Bool) : Progress → Progress
  | going settings => going (settings.setChunked chunked)
  | awaiting option settings => awaiting option (settings.setChunked chunked)
  | settled command => settled (command.setChunked chunked)

/-- How the arguments that are still to come are read. -/
inductive Reading where
  /-- As subcommands, options and files, after some progress. -/
  | arguments (part : Section) (progress : Except UsageError Progress)
  /-- As files only. -/
  | files (part : Section) (settings : Settings)

namespace Reading

/-- The part of the command line that is read. -/
def part : Reading → Section
  | arguments part _ => part
  | files part _ => part

/-- The reading with another choice of whether the input is lexed as it is read. -/
def setChunked (chunked : Bool) : Reading → Reading
  | arguments part progress => arguments part (progress.map (Progress.setChunked chunked))
  | files part settings => files part (settings.setChunked chunked)

/-- The command that a reading comes to with the arguments that are still to come. -/
def command : Reading → List Argument → Except UsageError Command
  | arguments part progress, others => readFrom part progress others
  | files part settings, others => readFiles part settings others

/-- The reading after an argument that is no subcommand. -/
def ofArgument (part : Section) (settings : Settings) (argument : Argument) : Reading :=
  match Shape.ofArgument argument with
  | .separator => files part settings
  | .long name value => arguments part (Progress.ofLong part settings name value)
  | .short letters bytes => arguments part (Progress.ofLetters part settings bytes letters)
  | .plain file =>
    arguments part (if part = .top ∧ file = ("help" : Text) then .ok (.settled .help)
      else (settings.withFile part file).map .going)

/-- The reading after one more argument. -/
def next (argument : Argument) : Reading → Reading
  | arguments part (.ok (.going settings)) =>
    match part, Section.ofSubcommand? argument with
    | .top, some part => arguments part (.ok (.going settings.atSubcommand))
    | part, _ => ofArgument part settings argument
  | arguments part (.ok (.awaiting option settings)) =>
    match Shape.ofArgument argument with
    | .plain value => arguments part ((settings.withBytes option value).map .going)
    | _ => arguments part (.error (.missingValue option.name))
  | arguments part progress => arguments part progress
  | files part settings =>
    match settings.withFile part argument with
    | .ok settings => files part settings
    | .error error => arguments part (.error error)

end Reading

theorem readFrom_error (part : Section) (error : UsageError) (others : List Argument) :
    readFrom part (.error error) others = .error error := by
  cases others <;> rfl

theorem readFrom_settled (part : Section) (command : Command) (others : List Argument) :
    readFrom part (.ok (.settled command)) others = .ok command := by
  cases others <;> rfl

namespace Reading

variable {reading : Reading}

/-- An option or a file is read, and then the arguments behind it. -/
theorem readFrom_cons_of_option {part : Section} {argument : Argument}
    (h : part ≠ .top ∨ Section.ofSubcommand? argument = none) (settings : Settings)
    (others : List Argument) :
    readFrom part (.ok (.going settings)) (argument :: others) =
      (ofArgument part settings argument).command others := by
  rw [ofArgument]
  cases part with
  | top =>
    have hnone := h.resolve_left fun hne => hne rfl
    cases hshape : Shape.ofArgument argument with
    | separator | long | short => simp only [readFrom, hnone, hshape, command]
    | plain file =>
      simp only [readFrom, hnone, hshape, command]
      split
      · rw [readFrom_settled]
      · rfl
  | tokens | lexers =>
    cases hshape : Shape.ofArgument argument <;> simp [readFrom, hshape, command]

/-- A reading can be followed argument by argument. -/
theorem command_cons (reading : Reading) (argument : Argument) (others : List Argument) :
    reading.command (argument :: others) = (reading.next argument).command others := by
  cases reading with
  | files part settings =>
    simp only [command, readFiles, next]
    cases settings.withFile part argument with
    | ok settings => rfl
    | error error => exact (readFrom_error part error others).symm
  | arguments part progress =>
    rcases progress with error | (settings | ⟨option, settings⟩ | settled)
    · exact (readFrom_error part error others).symm
    · cases part with
      | tokens | lexers =>
        simp only [command, next]
        exact readFrom_cons_of_option (.inl (by decide)) settings others
      | top =>
        cases hsub : Section.ofSubcommand? argument with
        | some part => simp only [command, readFrom, next, hsub]
        | none =>
          simp only [next, hsub]
          exact readFrom_cons_of_option (.inr hsub) settings others
    · simp only [command, readFrom, next]
      cases Shape.ofArgument argument with
      | plain value => rfl
      | separator | long | short => exact (readFrom_error part _ others).symm
    · exact (readFrom_settled part settled others).symm

end Reading

section Choice

variable (chunked : Bool) (part : Section) (settings : Settings)

theorem Section.command_setChunked :
    part.command (settings.setChunked chunked) =
      (part.command settings).map (Command.setChunked chunked) := by
  cases part <;> rfl

theorem Settings.withValue_setChunked (option : Opt) (value : Text) :
    (settings.setChunked chunked).withValue option value =
      (settings.withValue option value).map (setChunked chunked) := by
  obtain ⟨_, lexer, format, _⟩ := settings
  cases option with
  | lexer => cases lexer <;> rfl
  | format =>
    simp only [withValue]
    cases Format.ofName? value with
    | none => rfl
    | some found => cases format <;> rfl
  | _ => rfl

theorem Settings.withBytes_setChunked (option : Opt) (value : List UInt8) :
    (settings.setChunked chunked).withBytes option value =
      (settings.withBytes option value).map (setChunked chunked) := by
  unfold withBytes
  cases Utf8.decode value with
  | ok value => exact withValue_setChunked chunked settings option value
  | error _ => rfl

theorem Settings.withFile_setChunked (file : Argument) :
    (settings.setChunked chunked).withFile part file =
      (settings.withFile part file).map (setChunked chunked) := by
  obtain ⟨input, _⟩ := settings
  cases part with
  | tokens =>
    cases input with
    | none => cases file <;> rfl
    | some other => rfl
  | top | lexers => rfl

/-- Every flag but one is read in the same way whatever the choice is. -/
theorem Progress.ofFlag_setChunked {option : Opt} (h : option ≠ .chunked) :
    ofFlag (settings.setChunked chunked) option =
      (ofFlag settings option).map (setChunked chunked) := by
  obtain ⟨_, _, _, noWhitespace, noComments, _, _, _⟩ := settings
  cases option with
  | chunked => contradiction
  | noWhitespace => cases noWhitespace <;> rfl
  | noComments => cases noComments <;> rfl
  | _ => rfl

theorem Progress.map_going_setChunked (result : Except UsageError Settings) :
    (result.map (Settings.setChunked chunked)).map going =
      (result.map going).map (setChunked chunked) := by
  cases result <;> rfl

/-- No letter stands for the flag, so letters are read in the same way whatever the choice is. -/
theorem Progress.ofLetters_setChunked (others : List UInt8) (letters : Text) :
    ofLetters part (settings.setChunked chunked) others letters =
      (ofLetters part settings others letters).map (setChunked chunked) := by
  induction letters generalizing settings with
  | nil =>
    simp only [ofLetters]
    split <;> rfl
  | cons letter letters ih =>
    simp only [ofLetters]
    cases hfind : part.options.find? (·.letter? = some letter) with
    | none => rfl
    | some option =>
      have hne : option ≠ .chunked := by
        rintro rfl
        simpa [Opt.letter?] using List.find?_some hfind
      simp only
      split
      · split
        · rfl
        · rw [Settings.withBytes_setChunked, map_going_setChunked]
      · rw [ofFlag_setChunked chunked settings hne]
        cases ofFlag settings option with
        | error error => rfl
        | ok progress =>
          cases progress with
          | going settings => exact ih settings
          | awaiting option settings => rfl
          | settled command => rfl

/-- A long option other than the flag is read in the same way whatever the choice is. -/
theorem Progress.ofLong_setChunked {name : List UInt8} {value : Option (List UInt8)}
    (h : part = .tokens → name = Utf8.encode Opt.chunked.name → value ≠ none) :
    ofLong part (settings.setChunked chunked) name value =
      (ofLong part settings name value).map (setChunked chunked) := by
  simp only [ofLong]
  cases hfind : part.options.find? (Utf8.encode ·.name = name) with
  | none => rfl
  | some option =>
    cases value with
    | some value =>
      simp only
      split
      · rw [Settings.withBytes_setChunked, map_going_setChunked]
      · rfl
    | none =>
      have hne : option ≠ .chunked := by
        rintro rfl
        have hname : Utf8.encode Opt.chunked.name = name := by simpa using List.find?_some hfind
        have hmem := List.mem_of_find?_eq_some hfind
        refine h ?_ hname.symm rfl
        cases part <;> simp_all [Section.options]
      simp only
      split
      · rfl
      · exact ofFlag_setChunked chunked settings hne

end Choice

/-- A long option without a value is two hyphens and its name. -/
theorem Shape.eq_of_ofArgument {argument : Argument} {name : List UInt8}
    (h : ofArgument argument = .long name none) : argument = hyphen :: hyphen :: name := by
  unfold ofArgument at h
  split at h
  · contradiction
  · contradiction
  · rename_i first second others
    split at h
    · contradiction
    · rename_i hfirst
      split at h
      · contradiction
      · rename_i hsecond
        rw [not_not] at hfirst hsecond
        split at h
        · contradiction
        · simp only [ofLong] at h
          split at h
          · rename_i hrest
            cases h
            have hall := List.dropWhile_eq_nil_iff.mp hrest
            rw [hfirst, hsecond, List.takeWhile_eq_self_iff.mpr hall]
          · cases h

/-- The argument that asks for the input to be lexed as it is read. -/
def chunkedFlag : Argument :=
  hyphen :: hyphen :: Utf8.encode Opt.chunked.name

namespace Reading

variable {reading : Reading} {argument : Argument}

theorem ofArgument_setChunked (chunked : Bool) (part : Section) (settings : Settings)
    (h : part = .tokens → argument ≠ chunkedFlag) :
    ofArgument part (settings.setChunked chunked) argument =
      (ofArgument part settings argument).setChunked chunked := by
  unfold ofArgument
  cases hshape : Shape.ofArgument argument with
  | separator => rfl
  | long name value =>
    have hname : part = .tokens → name = Utf8.encode Opt.chunked.name → value ≠ none := by
      rintro hpart rfl rfl
      exact h hpart (Shape.eq_of_ofArgument hshape)
    simp only [setChunked, Progress.ofLong_setChunked chunked part settings hname]
  | short letters others => simp only [setChunked, Progress.ofLetters_setChunked]
  | plain file =>
    simp only [setChunked]
    split
    · rfl
    · rw [Settings.withFile_setChunked, Progress.map_going_setChunked]

/-- One more argument is read in the same way whatever the choice is, unless it makes the choice. -/
theorem next_setChunked (reading : Reading) (argument : Argument) :
    (∀ chunked, (reading.setChunked chunked).next argument =
      (reading.next argument).setChunked chunked) ∨
    argument = chunkedFlag ∧
      ∃ settings, reading = arguments .tokens (.ok (.going settings)) := by
  match reading with
  | files part settings =>
    refine .inl fun chunked => ?_
    simp only [setChunked, next, Settings.withFile_setChunked]
    cases settings.withFile part argument with
    | ok settings => rfl
    | error error => rfl
  | arguments part (.error error) => exact .inl fun _ => rfl
  | arguments part (.ok (.settled command)) => exact .inl fun _ => rfl
  | arguments part (.ok (.awaiting option settings)) =>
    refine .inl fun chunked => ?_
    change (arguments part (.ok (.awaiting option (settings.setChunked chunked)))).next argument = _
    simp only [next]
    cases Shape.ofArgument argument with
    | plain value =>
      simp only [setChunked, Settings.withBytes_setChunked, Progress.map_going_setChunked]
    | separator | long | short => rfl
  | arguments part (.ok (.going settings)) =>
    by_cases hflag : part = .tokens ∧ argument = chunkedFlag
    · obtain ⟨rfl, rfl⟩ := hflag
      exact .inr ⟨rfl, settings, rfl⟩
    · rw [not_and] at hflag
      refine .inl fun chunked => ?_
      have hargument := ofArgument_setChunked chunked part settings hflag
      cases part with
      | tokens | lexers => exact hargument
      | top =>
        simp only [setChunked, Except.map, Progress.setChunked, next]
        cases Section.ofSubcommand? argument with
        | some part => rfl
        | none => exact hargument

/-- Where an option of the subcommand may stand, the flag makes the choice once. -/
theorem next_chunkedFlag (settings : Settings) :
    (arguments .tokens (.ok (.going settings))).next chunkedFlag =
      arguments .tokens (if settings.chunked then .error (.repeated Opt.chunked.name)
        else .ok (.going (settings.setChunked true))) := by
  obtain ⟨_, _, _, _, _, chunked, _, _⟩ := settings
  cases chunked <;> rfl

theorem command_nil_setChunked (chunked : Bool) (reading : Reading) :
    (reading.setChunked chunked).command [] =
      (reading.command []).map (Command.setChunked chunked) := by
  match reading with
  | files part settings => exact Section.command_setChunked chunked part settings
  | arguments part (.error error) => rfl
  | arguments part (.ok (.settled command)) => rfl
  | arguments part (.ok (.awaiting option settings)) => rfl
  | arguments part (.ok (.going settings)) =>
    exact Section.command_setChunked chunked part settings

/-- What is accepted after the choice was made is what is accepted otherwise and does not make it. -/
theorem command_setChunked_iff (reading : Reading) (others : List Argument) (streamed : Settings) :
    (reading.setChunked true).command others = .ok (.tokens streamed) ↔
      ∃ settings, (reading.setChunked false).command others = .ok (.tokens settings) ∧
        settings.chunked = false ∧ streamed = settings.setChunked true := by
  induction others generalizing reading streamed with
  | nil =>
    rw [command_nil_setChunked, command_nil_setChunked]
    match reading.command [] with
    | .error error => simp [Except.map]
    | .ok (.tokens settings) =>
      constructor
      · intro h
        cases h
        exact ⟨_, rfl, rfl, rfl⟩
      · rintro ⟨_, h, -, rfl⟩
        cases h
        rfl
    | .ok (.lexers format verbosity) | .ok .version | .ok .help =>
      simp [Except.map, Command.setChunked]
  | cons argument others ih =>
    rw [command_cons, command_cons]
    rcases next_setChunked reading argument with hnext | ⟨rfl, settings, rfl⟩
    · rw [hnext, hnext]
      exact ih _ _
    · -- The flag makes the choice a second time on the left, and then on the right for good.
      have htrue : ((arguments .tokens (.ok (.going settings))).setChunked true).next chunkedFlag =
          arguments .tokens (.error (.repeated Opt.chunked.name)) := next_chunkedFlag _
      have hfalse : ((arguments .tokens (.ok (.going settings))).setChunked false).next chunkedFlag =
          (arguments .tokens (.ok (.going settings))).setChunked true := next_chunkedFlag _
      rw [htrue, hfalse]
      constructor
      · intro h
        simp [command, readFrom_error] at h
      · rintro ⟨last, hlast, hchunked, -⟩
        obtain ⟨_, -, -, rfl⟩ := (ih _ _).mp hlast
        simp at hchunked

/-- Behind these arguments an option of the subcommand that prints tokens may stand, and none of
them makes the choice. -/
def TakesFlag (reading : Reading) (before : List Argument) : Prop :=
  ∃ settings : Settings, settings.chunked = false ∧ ∀ more,
    reading.command (before ++ more) = (arguments .tokens (.ok (.going settings))).command more

theorem TakesFlag.cons {before : List Argument} (h : (reading.next argument).TakesFlag before) :
    reading.TakesFlag (argument :: before) := by
  obtain ⟨settings, hchunked, hcommand⟩ := h
  refine ⟨settings, hchunked, fun more => ?_⟩
  rw [List.cons_append, command_cons, hcommand]

/-- If the choice is made in the end, the flag stands where it may. -/
theorem exists_takesFlag_of_chunked (reading : Reading) {others : List Argument}
    {settings : Settings}
    (h : (reading.setChunked false).command others = .ok (.tokens settings))
    (hchunked : settings.chunked = true) :
    ∃ before after, others = before ++ chunkedFlag :: after ∧
      (reading.setChunked false).TakesFlag before := by
  induction others generalizing reading with
  | nil =>
    rw [command_nil_setChunked] at h
    match hcommand : reading.command [] with
    | .error error => simp [hcommand, Except.map] at h
    | .ok (.tokens last) =>
      rw [hcommand] at h
      cases h
      simp at hchunked
    | .ok (.lexers format verbosity) | .ok .version | .ok .help =>
      simp [hcommand, Except.map, Command.setChunked] at h
  | cons argument others ih =>
    rcases next_setChunked reading argument with hnext | ⟨rfl, place, rfl⟩
    · rw [command_cons, hnext] at h
      obtain ⟨before, after, rfl, htakes⟩ := ih _ h
      refine ⟨argument :: before, after, rfl, TakesFlag.cons ?_⟩
      rwa [hnext]
    · exact ⟨[], others, rfl, place.setChunked false, rfl, fun _ => rfl⟩

end Reading

/-- Whether a result settles anything but the tokens to print, if it settles anything. -/
def Progress.IsOpen : Except UsageError Progress → Prop
  | .ok (.settled (.tokens _)) => False
  | _ => True

theorem Progress.isOpen_map_going (result : Except UsageError Settings) :
    IsOpen (result.map going) := by
  cases result <;> trivial

theorem Progress.isOpen_ofFlag (settings : Settings) (option : Opt) :
    IsOpen (ofFlag settings option) := by
  cases option with
  | noWhitespace | noComments | chunked => exact isOpen_map_going _
  | _ => trivial

theorem Progress.isOpen_ofLong (part : Section) (settings : Settings) (name : List UInt8)
    (value : Option (List UInt8)) : IsOpen (ofLong part settings name value) := by
  unfold ofLong
  split
  · trivial
  · split
    · trivial
    · exact isOpen_ofFlag _ _
  · split
    · exact isOpen_map_going _
    · trivial

theorem Progress.isOpen_ofLetters (part : Section) (settings : Settings) (others : List UInt8)
    (letters : Text) : IsOpen (ofLetters part settings others letters) := by
  induction letters generalizing settings with
  | nil =>
    simp only [ofLetters]
    split <;> trivial
  | cons letter letters ih =>
    simp only [ofLetters]
    split
    · trivial
    · split
      · split
        · trivial
        · exact isOpen_map_going _
      · split
        · exact ih _
        · exact isOpen_ofFlag _ _

namespace Reading

variable {reading : Reading}

/-- Whether a reading settles anything but the tokens to print, if it settles anything. -/
def IsOpen : Reading → Prop
  | arguments _ progress => Progress.IsOpen progress
  | files _ _ => True

theorem isOpen_ofArgument (part : Section) (settings : Settings) (argument : Argument) :
    (ofArgument part settings argument).IsOpen := by
  unfold ofArgument
  split
  · trivial
  · exact Progress.isOpen_ofLong part settings _ _
  · exact Progress.isOpen_ofLetters part settings _ _
  · simp only [IsOpen]
    split
    · trivial
    · exact Progress.isOpen_map_going _

theorem part_ofArgument (part : Section) (settings : Settings) (argument : Argument) :
    (ofArgument part settings argument).part = part := by
  unfold ofArgument
  split <;> rfl

/-- No argument settles which tokens to print before the arguments have ended. -/
theorem IsOpen.next (h : reading.IsOpen) (argument : Argument) : (reading.next argument).IsOpen := by
  match reading with
  | files part settings =>
    simp only [Reading.next]
    split <;> trivial
  | arguments part (.error error) => trivial
  | arguments part (.ok (.settled command)) => exact h
  | arguments part (.ok (.awaiting option settings)) =>
    simp only [Reading.next]
    split
    · exact Progress.isOpen_map_going _
    · trivial
  | arguments part (.ok (.going settings)) =>
    simp only [Reading.next]
    split
    · trivial
    · exact isOpen_ofArgument _ _ _

/-- Only a subcommand leads from one part of the command line to another. -/
theorem part_next (reading : Reading) (argument : Argument) :
    (reading.next argument).part = reading.part ∨
      ∃ part settings, reading.next argument = arguments part (.ok (.going settings)) := by
  match reading with
  | files part settings =>
    simp only [next]
    split <;> exact .inl rfl
  | arguments part (.error error) => exact .inl rfl
  | arguments part (.ok (.settled command)) => exact .inl rfl
  | arguments part (.ok (.awaiting option settings)) =>
    simp only [next]
    split <;> exact .inl rfl
  | arguments part (.ok (.going settings)) =>
    simp only [next]
    split
    · exact .inr ⟨_, settings.atSubcommand, rfl⟩
    · exact .inl (part_ofArgument _ _ _)

/-- Tokens are printed only if the subcommand for that was met, and its options may stand right
behind it. -/
theorem exists_takesFlag_of_tokens {others : List Argument} {settings : Settings}
    (hopen : reading.IsOpen) (hpart : reading.part ≠ .tokens)
    (h : (reading.setChunked false).command others = .ok (.tokens settings)) :
    ∃ before after, others = before ++ after ∧ (reading.setChunked false).TakesFlag before := by
  induction others generalizing reading with
  | nil =>
    exfalso
    rw [command_nil_setChunked] at h
    match reading with
    | files .top settings | files .lexers settings => cases h
    | arguments part (.error error) => cases h
    | arguments part (.ok (.settled (.lexers _ _)))
    | arguments part (.ok (.settled .help))
    | arguments part (.ok (.settled .version)) => cases h
    | arguments part (.ok (.awaiting option settings)) => cases h
    | arguments .top (.ok (.going settings))
    | arguments .lexers (.ok (.going settings)) => cases h
  | cons argument others ih =>
    rcases next_setChunked reading argument with hnext | ⟨-, place, rfl⟩
    · by_cases htokens : (reading.next argument).part = .tokens
      · rcases part_next reading argument with hsame | ⟨part, place, hplace⟩
        · exact absurd (hsame.symm.trans htokens) hpart
        · refine ⟨[argument], others, rfl, TakesFlag.cons ?_⟩
          rw [hplace] at htokens
          obtain rfl : part = .tokens := htokens
          rw [hnext, hplace]
          exact ⟨place.setChunked false, rfl, fun _ => rfl⟩
      · rw [command_cons, hnext] at h
        obtain ⟨before, after, rfl, htakes⟩ := ih (hopen.next argument) htokens h
        refine ⟨argument :: before, after, rfl, TakesFlag.cons ?_⟩
        rwa [hnext]
    · exact absurd rfl hpart

end Reading

/-- Behind these arguments an option of the subcommand that prints tokens may stand, and none of
them asks for the input to be lexed as it is read. -/
def TakesChunkedFlag (before : List Argument) : Prop :=
  ∃ settings : Settings, settings.chunked = false ∧ ∀ more,
    parse (before ++ more) = readFrom .tokens (.ok (.going settings)) more

/-- A command line that is accepted has a place for the flag, and the flag stands there if it is
given. -/
theorem exists_takesChunkedFlag {arguments : List Argument} {settings : Settings}
    (h : parse arguments = .ok (.tokens settings)) :
    ∃ before after, TakesChunkedFlag before ∧
      arguments = before ++ if settings.chunked then chunkedFlag :: after else after := by
  let start : Reading := .arguments .top (.ok (.going {}))
  cases hchunked : settings.chunked with
  | true =>
    obtain ⟨before, after, harguments, htakes⟩ :=
      start.exists_takesFlag_of_chunked h hchunked
    exact ⟨before, after, htakes, harguments⟩
  | false =>
    have hopen : start.IsOpen := trivial
    have hpart : start.part ≠ .tokens := by decide
    obtain ⟨before, after, harguments, htakes⟩ :=
      Reading.exists_takesFlag_of_tokens hopen hpart h
    exact ⟨before, after, htakes, harguments⟩

/-- With the flag a command line is accepted that is accepted without it and does not have it, and
it asks for the same otherwise. -/
theorem parse_chunkedFlag_iff {before : List Argument} (h : TakesChunkedFlag before)
    (after : List Argument) (streamed : Settings) :
    parse (before ++ chunkedFlag :: after) = .ok (.tokens streamed) ↔
      ∃ settings, parse (before ++ after) = .ok (.tokens settings) ∧ settings.chunked = false ∧
        streamed = settings.setChunked true := by
  obtain ⟨place, hchunked, hparse⟩ := h
  have hplace := Settings.setChunked_of_eq hchunked
  have hflag : readFrom .tokens (.ok (.going place)) (chunkedFlag :: after) =
      readFrom .tokens (.ok (.going (place.setChunked true))) after := by
    have hcons := Reading.command_cons (.arguments .tokens (.ok (.going place))) chunkedFlag after
    rwa [Reading.next_chunkedFlag, hchunked] at hcons
  have hiff := Reading.command_setChunked_iff (.arguments .tokens (.ok (.going place))) after
    streamed
  rw [hparse, hparse, hflag]
  simp only [Reading.setChunked, Except.map, Progress.setChunked, hplace] at hiff
  exact hiff

/-- A command line with a place for the flag is accepted without the flag and with it. -/
theorem parse_setChunked {before after : List Argument} {settings : Settings}
    (htakes : TakesChunkedFlag before)
    (h : parse (before ++ if settings.chunked then chunkedFlag :: after else after) =
      .ok (.tokens settings)) :
    parse (before ++ after) = .ok (.tokens (settings.setChunked false)) ∧
      parse (before ++ chunkedFlag :: after) = .ok (.tokens (settings.setChunked true)) := by
  have hiff := parse_chunkedFlag_iff htakes after
  by_cases hchunked : settings.chunked = true
  · rw [if_pos hchunked] at h
    obtain ⟨plain, hplain, hfalse, rfl⟩ := (hiff settings).mp h
    rw [Settings.setChunked_setChunked, Settings.setChunked_setChunked,
      Settings.setChunked_of_eq hfalse]
    exact ⟨hplain, h⟩
  · rw [if_neg hchunked] at h
    rw [Bool.not_eq_true] at hchunked
    rw [Settings.setChunked_of_eq hchunked]
    exact ⟨h, (hiff _).mpr ⟨settings, h, hchunked, rfl⟩⟩

/-- Every file with a name can be given, whatever bytes its name has. -/
theorem parse_separator_file {file : Argument} (h : file ≠ []) :
    parse ["tokens", "--", file] = .ok (.tokens { input := some file }) := by
  have hsubcommand : Section.ofSubcommand? (Utf8.encode "tokens".toList) = some .tokens := by
    decide
  have hseparator : Shape.ofArgument (Utf8.encode "--".toList) = .separator := by decide +kernel
  have hfile : Settings.withFile {} .tokens file = .ok { input := some file } := by
    simp [Settings.withFile, h]
  have hplace : Settings.atSubcommand {} = {} := rfl
  simp only [parse, readFrom, hsubcommand, hseparator, readFiles, hplace, hfile]
  rfl

end MapHighlight.CommandLine
