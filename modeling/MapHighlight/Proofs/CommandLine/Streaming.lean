import MapHighlight.Proofs.BatchLexer.Actions
import MapHighlight.Proofs.BatchLexer.Malformed
import MapHighlight.Proofs.CommandLine.Arguments
import MapHighlight.Proofs.CommandLine.Buffers
import MapHighlight.Proofs.Text.Pieces

/-!
# Printing tokens as they are read

The program prints the tokens of a source that was read at once, or lexes the source as it is read.
Both ways come upon the same failure, if there is one, and hand out the same tokens otherwise. Only
the text layout shows a difference: lexing as it is read has then printed some tokens before the
failure.
-/

namespace MapHighlight.CommandLine

open BatchLexer (Item)

/-- What the source is read from. -/
def Settings.source (settings : Settings) (world : World) : Opened :=
  match settings.input with
  | none => .file world.input
  | some path => world.files path

theorem Settings.reader_eq (settings : Settings) (world : World) :
    settings.reader world = (settings.source world).reader.mapError .input := by
  unfold reader source
  cases settings.input with
  | none => rfl
  | some path => rfl

@[simp] theorem Settings.reader_setChunked (chunked : Bool) (settings : Settings) (world : World) :
    (settings.setChunked chunked).reader world = settings.reader world := rfl

@[simp] theorem Settings.registration_setChunked (chunked : Bool) (settings : Settings) :
    (settings.setChunked chunked).registration = settings.registration := rfl

/-- Whether these may be the tokens handed out of a source that cannot be read to its end: the first
tokens of the longest text that the bytes of a file begin with, and none of anything else. -/
def Settings.MayBegin (settings : Settings) (world : World) (tokens : List Token) : Prop :=
  match settings.source world with
  | .file bytes => ∃ text, Utf8.IsLongestText bytes text ∧
      tokens <+: settings.lexerConfig.select (tokenize text)
  | _ => tokens = []

/-- How the items of a source that is read at once compare with those of the source lexed as it is
read: they are the same, or both end in the same error. -/
inductive ItemsAgree (settings : Settings) (world : World) : List Item → List Item → Prop
  | complete (tokens : List Token) : ItemsAgree settings world (tokens.map .ok) (tokens.map .ok)
  | failing {tokens : List Token} (error : ReadError) : settings.MayBegin world tokens →
      ItemsAgree settings world [.error error] (tokens.map .ok ++ [.error error])

variable {settings : Settings} {world : World}

/-- The tokens to print, up to the error that ends them. -/
def tokenItems (settings : Settings) (world : World) : List Item :=
  Action.values (tokenActions settings world)

/-- The items of a source that can be opened, in both ways of reading it. -/
theorem tokenItems_of_reader {reader : Reader} (h : settings.reader world = .ok reader) :
    tokenItems (settings.setChunked false) world =
      (match readSource reader with
      | .error error => [.error error]
      | .ok text => (settings.lexerConfig.select (tokenize text)).map .ok) ∧
    tokenItems (settings.setChunked true) world =
      (BatchLexer.ofReader reader { lexer := settings.lexerConfig }).items := by
  constructor
  · simp only [tokenItems, tokenActions, Settings.reader_setChunked, h,
      Settings.chunked_setChunked, Bool.false_eq_true, if_false]
    cases readSource reader with
    | error error => rfl
    | ok text =>
      simp only [Action.values_cons_report, Action.values_map_map, Lexer.values_actions]
      rfl
  · simp only [tokenItems, tokenActions, Settings.reader_setChunked, h,
      Settings.chunked_setChunked, if_true]
    exact BatchLexer.values_actions _

/-- Bytes that are no text end both ways of reading with the same error. -/
theorem itemsAgree_of_file {bytes : List UInt8} (h : settings.source world = .file bytes) :
    ItemsAgree settings world (tokenItems (settings.setChunked false) world)
      (tokenItems (settings.setChunked true) world) := by
  have hserves := Reader.serves_ofBytes bytes
  have hbytes := Reader.flatMap_ofBytes bytes
  have hreader : settings.reader world = .ok ⟨(Reader.ofBytes bytes).fills, 0⟩ := by
    rw [Settings.reader_eq, h]
    rfl
  obtain ⟨hwhole, hstreamed⟩ := tokenItems_of_reader hreader
  rw [hwhole, hstreamed, readSource_of_serves hserves, hbytes]
  cases hdecode : Utf8.decode bytes with
  | ok text =>
    rw [← hbytes] at hdecode
    rw [BatchLexer.items_ofReader_of_decode hserves hdecode]
    exact .complete _
  | error n =>
    obtain ⟨text, hlongest, -⟩ := Utf8.exists_isLongestText_of_decode hdecode
    rw [← hbytes] at hdecode
    obtain ⟨batches, hlines, hprefix, hitems⟩ := BatchLexer.exists_items_of_decode_error hserves
      hdecode { lexer := settings.lexerConfig }
    rw [hbytes] at hprefix
    obtain ⟨more, rfl⟩ := hlongest.isPrefix_of_encode hprefix
    rw [hitems]
    refine .failing _ ?_
    rw [Settings.MayBegin, h]
    exact ⟨_, hlongest, (BatchLexer.prefix_tokenize_append hlines more).filter _⟩

/-- Both ways of reading come to the same items or to the same error. -/
theorem itemsAgree_tokenItems (settings : Settings) (world : World) :
    ItemsAgree settings world (tokenItems (settings.setChunked false) world)
      (tokenItems (settings.setChunked true) world) := by
  have hnone (h : ∀ bytes, settings.source world ≠ .file bytes) :
      settings.MayBegin world [] := by
    unfold Settings.MayBegin
    split
    · rename_i bytes hfile
      exact absurd hfile (h bytes)
    · rfl
  cases hsource : settings.source world with
  | file bytes => exact itemsAgree_of_file hsource
  | directory =>
    have hreader : settings.reader world =
        .ok ⟨[.failure (.system .isADirectory)], 0⟩ := by
      rw [Settings.reader_eq, hsource]
      rfl
    obtain ⟨hwhole, hstreamed⟩ := tokenItems_of_reader hreader
    rw [hwhole, hstreamed, BatchLexer.items_ofReader_of_readLine rfl]
    exact .failing _ (hnone (by simp [hsource]))
  | failed error =>
    have hreader : settings.reader world = .error (.input error) := by
      rw [Settings.reader_eq, hsource]
      rfl
    simp only [tokenItems, tokenActions, Settings.reader_setChunked, hreader]
    exact .failing _ (hnone (by simp [hsource]))

section Layouts

variable {actions : List (Action Item)} {tokens : List Token} {ending : Option ReadError}

/-- Actions that yield tokens, and then an error if one ends them, can be followed one by one up to
that error. -/
theorem values_induction {motive : List (Action Item) → List Token → Prop}
    (finished : ending = none → motive [] [])
    (failed : ∀ error others, ending = some error → motive (.yield (.error error) :: others) [])
    (reported : ∀ event actions tokens, motive actions tokens →
      motive (.report event :: actions) tokens)
    (found : ∀ token actions tokens, motive actions tokens →
      motive (.yield (.ok token) :: actions) (token :: tokens))
    (h : Action.values actions = tokens.map .ok ++ (ending.map .error).toList) :
    motive actions tokens := by
  induction actions generalizing tokens with
  | nil =>
    obtain ⟨htokens, hending⟩ := List.nil_eq_append_iff.mp h
    obtain rfl := List.map_eq_nil_iff.mp htokens
    cases ending with
    | none => exact finished rfl
    | some error => contradiction
  | cons action actions ih =>
    cases action with
    | report event => exact reported event actions tokens (ih h)
    | yield item =>
      cases tokens with
      | nil =>
        cases ending with
        | none => contradiction
        | some error =>
          obtain ⟨rfl, -⟩ := List.cons_eq_cons.mp h
          exact failed error actions rfl
      | cons token tokens =>
        obtain ⟨rfl, hothers⟩ := List.cons_eq_cons.mp h
        exact found token actions tokens (ih hothers)

/-- Tokens are written as lines up to an error, whatever is reported in between. -/
theorem lines_of_values (h : Action.values actions = tokens.map .ok ++ (ending.map .error).toList) :
    (lines actions).pieces = tokens.flatMap Token.linePieces ∧
      (lines actions).failure = ending.map .read := by
  refine values_induction (motive := fun actions tokens =>
    (lines actions).pieces = tokens.flatMap Token.linePieces ∧
      (lines actions).failure = ending.map .read) ?_ ?_ ?_ ?_ h
  · rintro rfl
    exact ⟨rfl, rfl⟩
  · rintro error others rfl
    exact ⟨rfl, rfl⟩
  · exact fun _ _ _ ih => ih
  · intro token actions tokens ih
    refine ⟨?_, ih.2⟩
    rw [lines, Writing.pieces_behindPieces, ih.1, List.flatMap_cons]

/-- Tokens are collected unless an error comes behind them. -/
theorem collect_of_values
    (h : Action.values actions = tokens.map .ok ++ (ending.map .error).toList) :
    (collect actions).2 = ending.elim (.ok tokens) .error := by
  refine values_induction (motive := fun actions tokens =>
    (collect actions).2 = ending.elim (.ok tokens) .error) ?_ ?_ ?_ ?_ h
  · rintro rfl
    rfl
  · rintro error others rfl
    rfl
  · exact fun _ _ _ ih => ih
  · intro token actions tokens ih
    simp only [collect, ih]
    cases ending <;> rfl

/-- Tokens make a document unless an error comes behind them. -/
theorem jsonDocument_of_values
    (h : Action.values actions = tokens.map .ok ++ (ending.map .error).toList) :
    (jsonDocument actions).pieces =
        ending.elim (Json.array (tokens.map Token.json)).documentPieces (fun _ => []) ∧
      (jsonDocument actions).failure = ending.map .read := by
  simp only [jsonDocument, collect_of_values h, Writing.pieces]
  cases ending with
  | none =>
    refine ⟨?_, rfl⟩
    rw [Option.elim, Option.elim, Action.values_append, Action.values_map_report,
      Action.values_map_yield, List.nil_append]
  | some error => exact ⟨Action.values_map_report _, rfl⟩

end Layouts

/-- How the outcome of lexing a source as it is read compares with that of reading it at once. -/
structure OutcomesAgree (settings : Settings) (world : World) (whole streamed : Outcome) : Prop where
  /-- The exit code is the same. -/
  code_eq : streamed.code = whole.code
  /-- The errors reported are the same. -/
  errors_eq : streamed.errors = whole.errors
  /-- The output is the same unless reading fails amid lines of text. -/
  output_eq : whole.code = 0 ∨ whole.code = 2 ∨ settings.format = some .json →
    streamed.output = whole.output
  /-- Reading at once prints nothing if it fails. -/
  output_whole : whole.code = 1 → whole.output = []
  /-- Neither does a document that is not complete. -/
  output_json : whole.code = 1 → settings.format = some .json → streamed.output = []
  /-- Lines of text are those of the first tokens that the source may begin with. -/
  output_text : whole.code = 1 → settings.format ≠ some .json →
    ∃ tokens, settings.MayBegin world tokens ∧ streamed.output = tokens.flatMap Token.line

/-- What is printed of tokens and of the error that ends them, if one does. -/
def Settings.printed (settings : Settings) (tokens : List Token) (ending : Option ReadError) :
    Text :=
  match settings.format.getD .text with
  | .text => tokens.flatMap Token.line
  | .json => (ending.elim (Json.array (tokens.map Token.json)).documentPieces fun _ => []).flatten

/-- What a device that takes all output is left with. -/
theorem perform_tokens (hdevice : world.device = .working) (settings : Settings) :
    (perform world (.tokens settings)).toOutcome =
      .ofFailure (writeTokens settings world).text (writeTokens settings world).failure := by
  rw [perform, hdevice]
  exact Device.deliver_working .inBlocks _

/-- Nothing is printed if there is no lexer for the source. -/
theorem perform_of_lookup (settings : Settings) {error : LookupError}
    (hdevice : world.device = .working) (h : settings.registration = .error error) :
    (perform world (.tokens settings)).toOutcome = .ofFailure [] (some (.lookup error)) := by
  rw [perform_tokens hdevice, writeTokens, h]
  rfl

variable {registration : Registration} {tokens : List Token}

/-- Otherwise the tokens are printed, and the error that ends them is reported. -/
theorem perform_of_items (settings : Settings) (ending : Option ReadError)
    (hdevice : world.device = .working) (hregistration : settings.registration = .ok registration)
    (h : tokenItems settings world = tokens.map .ok ++ (ending.map .error).toList) :
    (perform world (.tokens settings)).toOutcome =
      .ofFailure (settings.printed tokens ending) (ending.map .read) := by
  rw [perform_tokens hdevice, writeTokens, hregistration, Settings.printed]
  cases settings.format.getD .text with
  | text =>
    obtain ⟨hpieces, hfailure⟩ := lines_of_values h
    exact congrArg₂ _ ((congrArg List.flatten hpieces).trans
      (Token.flatten_flatMap_linePieces tokens)) hfailure
  | json =>
    obtain ⟨hpieces, hfailure⟩ := jsonDocument_of_values h
    exact congrArg₂ _ (congrArg List.flatten hpieces) hfailure

/-- Output without a failure is the same in both ways of reading. -/
theorem outcomesAgree_of_success (output : Text) :
    OutcomesAgree settings world (.ofFailure output none) (.ofFailure output none) := by
  constructor <;> simp [Outcome.ofFailure]

/-- A failure of reading is reported in the same way behind what was printed until then. -/
theorem outcomesAgree_of_failure (error : ReadError) (hbegin : settings.MayBegin world tokens) :
    OutcomesAgree settings world (.ofFailure [] (some (.read error)))
      (.ofFailure (settings.printed tokens (some error)) (some (.read error))) := by
  have hjson (h : settings.format = some .json) : settings.printed tokens (some error) = [] := by
    rw [Settings.printed, h]
    rfl
  constructor
  · rfl
  · rfl
  · rintro (hzero | htwo | hformat)
    · simp [Outcome.ofFailure, Failure.exitCode] at hzero
    · simp [Outcome.ofFailure, Failure.exitCode] at htwo
    · exact hjson hformat
  · exact fun _ => rfl
  · exact fun _ => hjson
  · intro _ hformat
    refine ⟨tokens, hbegin, ?_⟩
    match h : settings.format with
    | none | some .text => simp only [Outcome.ofFailure, Settings.printed, h, Option.getD]
    | some .json => exact absurd h hformat

/-- Whether a source is read at once or lexed as it is read shows in the output only, and there only
in lines of text before a failure. -/
theorem outcomesAgree_perform (hdevice : world.device = .working) (settings : Settings) :
    OutcomesAgree settings world (perform world (.tokens (settings.setChunked false)))
      (perform world (.tokens (settings.setChunked true))) := by
  cases hregistration : settings.registration with
  | error error =>
    rw [perform_of_lookup (settings.setChunked false) hdevice hregistration,
      perform_of_lookup (settings.setChunked true) hdevice hregistration]
    constructor <;> simp [Outcome.ofFailure, Failure.exitCode]
  | ok registration =>
    have hperform (chunked : Bool) (tokens : List Token) (ending : Option ReadError)
        (h : tokenItems (settings.setChunked chunked) world =
          tokens.map .ok ++ (ending.map .error).toList) :
        (perform world (.tokens (settings.setChunked chunked))).toOutcome =
          .ofFailure (settings.printed tokens ending) (ending.map .read) :=
      perform_of_items (settings.setChunked chunked) ending hdevice hregistration h
    have hsame := itemsAgree_tokenItems settings world
    generalize hwhole : tokenItems (settings.setChunked false) world = whole at hsame
    generalize hstreamed : tokenItems (settings.setChunked true) world = streamed at hsame
    cases hsame with
    | complete tokens =>
      rw [← List.append_nil (List.map ..)] at hwhole hstreamed
      rw [hperform false tokens none hwhole, hperform true tokens none hstreamed]
      exact outcomesAgree_of_success _
    | @failing tokens error hbegin =>
      have hnothing : settings.printed [] (some error) = [] := by
        rw [Settings.printed]
        split <;> rfl
      rw [hperform false [] (some error) hwhole, hperform true tokens (some error) hstreamed,
        hnothing]
      exact outcomesAgree_of_failure error hbegin

/-- A command line that prints tokens has a place for the flag that asks for the source to be lexed
as it is read. At each such place the command line is accepted without the flag and with it, and the
two runs have the same outcome, but for lines of text that the flag lets appear before a failure. -/
theorem run_chunkedFlag {arguments : List Argument} {settings : Settings} {world : World}
    (haccepted : parse arguments = .ok (.tokens settings)) (hdevice : world.device = .working) :
    (∃ before after, TakesChunkedFlag before ∧
      arguments = before ++ if settings.chunked then chunkedFlag :: after else after) ∧
    ∀ before after, TakesChunkedFlag before →
      arguments = (before ++ if settings.chunked then chunkedFlag :: after else after) →
      ∃ whole streamed, run (before ++ after) world = .ok whole ∧
        run (before ++ chunkedFlag :: after) world = .ok streamed ∧
        OutcomesAgree settings world whole streamed := by
  refine ⟨exists_takesChunkedFlag haccepted, ?_⟩
  rintro before after htakes rfl
  obtain ⟨hwithout, hwith⟩ := parse_setChunked htakes haccepted
  refine ⟨_, _, ?_, ?_, outcomesAgree_perform hdevice settings⟩
  · rw [run, hwithout]
    rfl
  · rw [run, hwith]
    rfl

/-- Bytes of standard input that are no text are reported as such with the flag and without it. -/
theorem run_chunkedFlag_of_malformed_input :
    parse ["tokens"] = .ok (.tokens {}) ∧
    ∃ whole streamed,
      run ["tokens"] ⟨fun _ => .directory, [97, 10, 0xFF], .working⟩ = .ok whole ∧
      run ["tokens", chunkedFlag] ⟨fun _ => .directory, [97, 10, 0xFF], .working⟩ = .ok streamed ∧
      whole.code = 1 ∧ whole.output = [] ∧ streamed.errors = whole.errors := by
  have haccepted : parse ["tokens"] = .ok (.tokens {}) := by decide +kernel
  have htakes : TakesChunkedFlag ["tokens"] := ⟨{}, rfl, fun _ => rfl⟩
  have hdevice : (World.mk (fun _ => .directory) [97, 10, 0xFF] .working).device = .working := rfl
  obtain ⟨whole, streamed, hwhole, hstreamed, hsame⟩ :=
    (run_chunkedFlag haccepted hdevice).2 ["tokens"] [] htakes rfl
  have hcode : (run ["tokens"] ⟨fun _ => .directory, [97, 10, 0xFF], .working⟩).toOption.map
      Outcome.code = some 1 := by decide +kernel
  have hone : whole.code = 1 := by
    rw [List.append_nil] at hwhole
    rw [hwhole] at hcode
    exact Option.some.inj hcode
  exact ⟨haccepted, whole, streamed, hwhole, hstreamed, hone, hsame.output_whole hone,
    hsame.errors_eq⟩

end MapHighlight.CommandLine
