import MapHighlight.Proofs.CommandLine.Log
import MapHighlight.Proofs.CommandLine.Streaming
import MapHighlight.Proofs.Cursor.Coverage

/-!
# Printing the tokens of a text

A source that is a text is printed in full: each token that the settings keep is printed in its
turn, whether the source is read at once or lexed as it is read. What is reported meanwhile is either
each step through the text or each pass over what was read of it.
-/

namespace MapHighlight.CommandLine

/-- A run that prints the tokens of a text in a format, on a device that takes all output. -/
structure Prints (arguments : List Argument) (world : World) (settings : Settings) (format : Format)
    (text : Text) : Prop where
  /-- The arguments ask for the tokens of a source. -/
  accepted : parse arguments = .ok (.tokens settings)
  /-- They ask for the format, or leave it at that. -/
  format_eq : settings.format.getD .text = format
  /-- There is a lexer for the source. -/
  registered : ∃ registration, settings.registration = .ok registration
  /-- The source is the text. -/
  source_eq : settings.source world = .file (Utf8.encode text)
  /-- The device takes all output. -/
  device_eq : world.device = .working

/-- The tokens of a text that the settings keep. -/
def Settings.kept (settings : Settings) (text : Text) : List Token :=
  settings.lexerConfig.select (tokenize text)

/-- Whether no token of a text is left out. -/
def Settings.KeepsAll (settings : Settings) : Prop :=
  settings.noWhitespace = false ∧ settings.noComments = false

/-- If no token is left out, the tokens of the text are kept. -/
theorem Settings.KeepsAll.kept_eq {settings : Settings} (h : settings.KeepsAll) (text : Text) :
    settings.kept text = tokenize text := by
  have hconfig : settings.lexerConfig = {} := by
    rw [lexerConfig, h.1, h.2]
    rfl
  rw [kept, hconfig, LexerConfig.select_default]

/-- The lexemes of a text make up the text. -/
theorem flatMap_lexeme_tokenize (text : Text) : (tokenize text).flatMap Token.lexeme = text :=
  (Cursor.cover_steps (Cursor.isPlaced_ofSource text)).flatMap_lexeme

namespace Prints

variable {arguments : List Argument} {world : World} {settings : Settings} {format : Format}
  {text : Text}

/-- The source is read from its bytes. -/
theorem reader_eq (h : Prints arguments world settings format text) :
    settings.reader world = .ok ⟨(Reader.ofBytes (Utf8.encode text)).fills, 0⟩ := by
  rw [Settings.reader_eq, h.source_eq]
  rfl

/-- The tokens to print are those of the text that the settings keep. -/
theorem tokenItems_eq (h : Prints arguments world settings format text) :
    tokenItems settings world = (settings.kept text).map .ok := by
  have hserves := Reader.serves_ofBytes (Utf8.encode text)
  have hdecode : Utf8.decode ((Reader.ofBytes (Utf8.encode text)).fills.flatMap Fill.bytes) =
      .ok text := by
    rw [Reader.flatMap_ofBytes, Utf8.decode_encode]
  obtain ⟨hwhole, hstreamed⟩ := tokenItems_of_reader h.reader_eq
  cases hchunked : settings.chunked with
  | false =>
    rw [← Settings.setChunked_of_eq hchunked, hwhole, readSource_of_serves hserves, hdecode]
    rfl
  | true =>
    rw [← Settings.setChunked_of_eq hchunked, hstreamed,
      BatchLexer.items_ofReader_of_decode hserves hdecode]
    rfl

/-- The run carries out the command, which prints the tokens that are kept. -/
theorem run_eq (h : Prints arguments world settings format text) :
    ∃ done, run arguments world = .ok done ∧
      done.toOutcome = ⟨0, settings.printed (settings.kept text) none, []⟩ := by
  obtain ⟨registration, hregistration⟩ := h.registered
  refine ⟨perform world (.tokens settings), ?_, ?_⟩
  · rw [run, h.accepted]
    rfl
  · have hitems := h.tokenItems_eq
    rw [← List.append_nil (List.map ..)] at hitems
    exact perform_of_items settings none h.device_eq hregistration hitems

/-- As lines, the tokens that are kept follow one another. -/
theorem run_text (h : Prints arguments world settings .text text) :
    ∃ done, run arguments world = .ok done ∧
      done.toOutcome = ⟨0, (settings.kept text).flatMap Token.line, []⟩ := by
  obtain ⟨done, hrun, houtcome⟩ := h.run_eq
  rw [Settings.printed, h.format_eq] at houtcome
  exact ⟨done, hrun, houtcome⟩

/-- As a document, the tokens that are kept are the items of an array. -/
theorem run_json (h : Prints arguments world settings .json text) :
    ∃ done, run arguments world = .ok done ∧ done.toOutcome =
      ⟨0, (Json.array ((settings.kept text).map Token.json)).documentPieces.flatten, []⟩ := by
  obtain ⟨done, hrun, houtcome⟩ := h.run_eq
  rw [Settings.printed, h.format_eq] at houtcome
  exact ⟨done, hrun, houtcome⟩

/-- Of a source that is read at once, its length and each step through it are reported. -/
theorem events_tokenActions_of_whole (h : Prints arguments world settings format text)
    (hwhole : settings.chunked = false) :
    Action.events (tokenActions settings world) =
      .sourceRead text.byteLength :: (Cursor.ofSource text).steps.map Step.event := by
  have hsource : readSource ⟨(Reader.ofBytes (Utf8.encode text)).fills, 0⟩ = .ok text := by
    rw [readSource_of_serves (Reader.serves_ofBytes _), Reader.flatMap_ofBytes,
      Utf8.decode_encode]
    rfl
  simp only [tokenActions, h.reader_eq, hwhole, hsource, Bool.false_eq_true, if_false,
    Action.events_cons_report, Action.events_map_map, Lexer.events_actions]
  rfl

/-- Of a source that is lexed as it is read, the passes of the whole run are reported. -/
theorem exists_events_tokenActions_of_chunked (h : Prints arguments world settings format text)
    (hchunked : settings.chunked = true) :
    ∃ passes last,
      (BatchLexer.ofText text { lexer := settings.lexerConfig }).Reaches passes last ∧
      last.IsOver ∧ Action.events (tokenActions settings world) = passes.flatMap Pass.events := by
  obtain ⟨passes, hreaches, hevents⟩ := BatchLexer.exists_reaches_of_actions
    (BatchLexer.ofText text { lexer := settings.lexerConfig })
  refine ⟨passes, _, hreaches, BatchLexer.isOver_after (Nat.le_refl _), ?_⟩
  simp only [tokenActions, h.reader_eq, hchunked, if_true]
  exact hevents

/-- The choice of the lexer is reported. Then it is the length of the text and each step through it,
or the passes over what is read of the text, to the end of the run. -/
theorem run_events (h : Prints arguments world settings format text) :
    ∃ done registration events, run arguments world = .ok done ∧
      settings.registration = .ok registration ∧
      done.events = .lexerChosen registration.name :: events ∧
      (settings.chunked = false →
        events = .sourceRead text.byteLength :: (Cursor.ofSource text).steps.map Step.event) ∧
      (settings.chunked = true → ∃ passes last,
        (BatchLexer.ofText text { lexer := settings.lexerConfig }).Reaches passes last ∧
        last.IsOver ∧ events = passes.flatMap Pass.events) := by
  obtain ⟨registration, hregistration⟩ := h.registered
  refine ⟨perform world (.tokens settings), registration,
    Action.events (tokenActions settings world), ?_, hregistration, ?_,
    h.events_tokenActions_of_whole, h.exists_events_tokenActions_of_chunked⟩
  · rw [run, h.accepted]
    rfl
  · have hok : ∀ error, .error error ∉ Action.values (tokenActions settings world) := by
      have hitems : Action.values (tokenActions settings world) =
          (settings.kept text).map .ok := h.tokenItems_eq
      simp [hitems]
    rw [perform, h.device_eq]
    exact (events_writeTokens hregistration world).trans
      (congrArg (.lexerChosen registration.name :: ·) (events_collect hok))

end Prints

end MapHighlight.CommandLine
