import MapHighlight.Proofs.BatchLexer.Boundaries
import MapHighlight.Proofs.BatchLexer.Reading
import MapHighlight.Proofs.Reader.Scripts

/-!
# Runs that fail

A run that fails hands out the tokens of the whole batches before the failure, up to a double quote
that these batches leave open, and then the error. A quote that is held when reading fails is never
lexed, and nothing that was read for the last batch is, because more text could change them.
-/

namespace MapHighlight.BatchLexer

/-- What is pending between two batches: nothing, or a held quote that nothing closes. -/
structure IsSettled (lexer : BatchLexer) : Prop where
  /-- A held quote is the only one in the pending text and starts it. -/
  rest_of_held : lexer.quoteHeld = true →
    ∃ rest, lexer.pending.rest = '"' :: rest ∧ '"' ∉ rest
  /-- Without a held quote nothing is pending. -/
  rest_of_clear : lexer.quoteHeld = false → lexer.pending.rest = []

variable {lexer : BatchLexer} {lines : List Text} {error : ReadError} {last : Reader}

/-- Nothing is pending at the start of a run. -/
theorem isSettled_ofReader (reader : Reader) (config : BatchConfig) :
    (ofReader reader config).IsSettled :=
  ⟨fun hheld => by simp [ofReader] at hheld, fun _ => rfl⟩

/-- Skipping a pass keeps the held quote open. -/
theorem IsSettled.fed (h : lexer.IsSettled) (hheld : lexer.quoteHeld = true)
    (hquote : '"' ∉ lexer.gather.text) : lexer.fed.IsSettled := by
  constructor
  · intro _
    obtain ⟨rest, hrest, hmem⟩ := h.rest_of_held hheld
    refine ⟨rest ++ lexer.gather.text, ?_, ?_⟩
    · rw [pending_fed, Cursor.extend, hrest]
      rfl
    · rw [List.mem_append, not_or]
      exact ⟨hmem, hquote⟩
  · intro hclear
    have hsame : lexer.fed.quoteHeld = lexer.quoteHeld := rfl
    rw [hsame, hheld] at hclear
    contradiction

/-- A pass leaves nothing but a held quote. -/
theorem isSettled_afterPass (hopen : lexer.ended = false) :
    (lexer.afterPass lexer.pass).IsSettled := by
  obtain ⟨-, hpending⟩ := afterPass_of_open hopen
  have hheld : (lexer.afterPass lexer.pass).quoteHeld =
      (lexer.pending.scanUntil Token.isOpenQuote).left.isSome := by
    simp [afterPass, pass, hopen]
  constructor
  · intro hsome
    rw [hheld, Option.isSome_iff_exists] at hsome
    obtain ⟨step, hleft⟩ := hsome
    rw [hpending]
    exact Cursor.rest_of_left_isOpenQuote hleft
  · intro hnone
    rw [hheld, Option.isSome_eq_false_iff, Option.isNone_iff_eq_none] at hnone
    rw [hpending]
    exact Cursor.rest_of_left_eq_none _ hnone

/-- The tokens to be handed out if this is the text to come and nothing is known of the text behind
it. -/
def certain (lexer : BatchLexer) (more : Text) : List Token :=
  lexer.queue ++ lexer.config.lexer.select
    (Token.beforeOpenQuote ((lexer.pending.extend more).steps.map Step.token))

/-- Reading moves text from what is to come to what is pending. -/
theorem certain_fed (lexer : BatchLexer) (more : Text) :
    lexer.fed.certain more = lexer.certain (lexer.gather.text ++ more) := by
  rw [certain, pending_fed, Cursor.extend_extend]
  rfl

/-- A pass over whole lines changes no token that is certain. -/
theorem certain_afterPass (hopen : lexer.ended = false)
    (hlines : lexer.pending.rest.IsWholeLines) (more : Text) :
    (lexer.afterPass lexer.pass).certain more = lexer.certain more := by
  obtain ⟨hqueue, hpending⟩ := afterPass_of_open hopen
  have htokens := Cursor.beforeOpenQuote_extend lexer.pending fun _ : more ≠ [] => hlines
  rw [certain, certain, hqueue, hpending, htokens, LexerConfig.select_append, List.append_assoc]
  rfl

/-- No pending token is certain before more is read. -/
theorem IsSettled.certain_nil (h : lexer.IsSettled) : lexer.certain [] = lexer.queue := by
  have hpending : Token.beforeOpenQuote (lexer.pending.steps.map Step.token) = [] := by
    cases hheld : lexer.quoteHeld with
    | true =>
      obtain ⟨rest, hrest, hmem⟩ := h.rest_of_held hheld
      exact Cursor.beforeOpenQuote_of_rest hrest hmem
    | false =>
      rw [Cursor.steps_of_rest_eq_nil (h.rest_of_clear hheld)]
      rfl
  rw [certain, Cursor.extend_nil, hpending]
  exact List.append_nil lexer.queue

/-- A run that will fail hands out the tokens before the first open quote of the pending text with
the whole batches behind it, and then the error. -/
theorem items_of_awaits_failure (hawaits : lexer.Awaits lines (some error) last)
    (hlines : ∀ line ∈ lines, line.IsWholeLines) (hpending : lexer.pending.rest.IsWholeLines)
    (hsettled : lexer.IsSettled) :
    lexer.items = (lexer.certain (wholeBatches lexer.config.size lines)).map .ok ++
      [.error error] := by
  induction lexer using run_induction generalizing lines with
  | handOut lexer token queue hqueue hround ih =>
    have hitems := ih (hawaits.handOut queue) hlines hpending
      ⟨hsettled.rest_of_held, hsettled.rest_of_clear⟩
    rw [items_of_handOut hround, hitems, certain, certain, hqueue]
    rfl
  | exhausted lexer hover => exact absurd hover hawaits.not_isOver
  | lastPass lexer hqueue hfailed hended hround ih =>
    have hnone := (hawaits.finished hended).2.1
    contradiction
  | failure lexer found hreading herror hround =>
    rcases hawaits.exists_fed_or_error hreading with ⟨hfound, hbatch⟩ | ⟨hnone, -⟩
    · rw [hfound] at herror
      cases herror
      -- What was gathered for this batch is dropped, so only the settled text counts.
      have hover : lexer.fed.fail.IsOver := isOver_fail hreading.queue_eq
      rw [items_of_handOut hround, hover.items_eq, wholeBatches_of_none hbatch,
        hsettled.certain_nil, hreading.queue_eq]
      rfl
    · rw [hnone] at herror
      contradiction
  | skip lexer hreading herror hheld hquote hopen hround ih =>
    rcases hawaits.exists_fed_or_error hreading with ⟨hfound, -⟩ | ⟨-, -, rest, hbatch, hfed⟩
    · rw [hfound] at herror
      contradiction
    · obtain ⟨htext, hrest⟩ := isWholeLines_of_nextBatch hlines hbatch
      rw [items_of_again hround,
        ih hfed hrest (hpending.append htext) (hsettled.fed hheld hquote), certain_fed,
        wholeBatches_of_some hbatch]
      rfl
  | pass lexer hreading herror hround ih =>
    rcases hawaits.exists_fed_or_error hreading with ⟨hfound, -⟩ | ⟨-, hended, rest, hbatch, hfed⟩
    · rw [hfound] at herror
      contradiction
    · obtain ⟨htext, hrest⟩ := isWholeLines_of_nextBatch hlines hbatch
      have hopen : lexer.fed.ended = false := hended
      have hwhole : lexer.fed.pending.rest.IsWholeLines := hpending.append htext
      have hleft : (lexer.fed.afterPass lexer.fed.pass).pending.rest.IsWholeLines := by
        obtain ⟨before, hbefore⟩ := rest_afterPass_suffix lexer.fed
        rw [← hbefore] at hwhole
        exact hwhole.of_append_right
      rw [items_of_again hround,
        ih (hfed.afterPass _) hrest hleft (isSettled_afterPass hopen),
        certain_afterPass hopen hwhole, certain_fed, wholeBatches_of_some hbatch]
      rfl

/-- A reader whose first request for a line fails leads to that failure alone. -/
theorem items_ofReader_of_readLine {reader next : Reader} {error : InputError}
    (h : reader.readLine = (.error error, next)) (config : BatchConfig) :
    (ofReader reader config).items = [.error (.input error)] := by
  have hsettled := isSettled_ofReader reader config
  have hitems := items_of_awaits_failure (awaits_ofReader (.failed h) config) (by simp)
    Text.isWholeLines_nil hsettled
  have hsize : 0 < max config.size 1 := Nat.lt_of_lt_of_le Nat.one_pos (Nat.le_max_right _ _)
  have hbatches : wholeBatches (ofReader reader config).config.size [] = [] :=
    wholeBatches_of_none (nextBatch_nil_of_pos hsize)
  rw [hbatches, hsettled.certain_nil] at hitems
  exact hitems

/-- The tokens before the first open quote of whole lines stay whatever follows the lines. -/
theorem prefix_tokenize_append {batches : Text} (hlines : batches.IsWholeLines) (more : Text) :
    Token.beforeOpenQuote (tokenize batches) <+: tokenize (batches ++ more) := by
  have hsteps := Cursor.steps_extend (.ofSource batches) fun _ : more ≠ [] => hlines
  have hbefore := Cursor.tokens_scanUntil Token.isOpenQuote (.ofSource batches)
  have htokens := congrArg (List.map Step.token) hsteps
  rw [List.map_append, hbefore] at htokens
  exact ⟨_, htokens.symm⟩

/-- A run fails if its reader does or if a line is not UTF-8. It hands out the tokens of the batches
that were complete before the first failure, up to a double quote that they leave open, then the
error, and nothing after it. More text behind these batches would have left those tokens as they
are. -/
theorem items_ofReader_of_failure {served : List Fill} {stop : Reader.Stop}
    (hserves : ∀ fill ∈ served, fill.serves = true) (hfinal : stop.IsFinal)
    (hfails : stop = .endOfInput →
      ∃ line ∈ linesOf Reader.lineFeed (served.flatMap Fill.bytes),
        ∃ valid, Utf8.decode line = .error valid)
    (config : BatchConfig) :
    (∃ valid error batches,
      Reader.FirstFailure 0 (served.flatMap Fill.bytes) stop valid error ∧
      ReachesLastEnd config.size (served.flatMap Fill.bytes) valid.flatten batches) ∧
    ∀ valid error batches,
      Reader.FirstFailure 0 (served.flatMap Fill.bytes) stop valid error →
      ReachesLastEnd config.size (served.flatMap Fill.bytes) valid.flatten batches →
      let kept := config.lexer.select (Token.beforeOpenQuote (tokenize batches))
      (ofReader ⟨served ++ stop.fills, 0⟩ config).items = kept.map .ok ++ [.error error] ∧
      (∀ n, ((ofReader ⟨served ++ stop.fills, 0⟩ config).after n).next.item =
        (kept.map .ok ++ [.error error])[n]?) ∧
      ∀ more, kept <+: config.lexer.select (tokenize (batches ++ more)) := by
  cases Reader.deliversBytes_of_serves hserves hfinal 0 0 with
  | complete hstop hlines _ =>
    exfalso
    obtain ⟨line, hmem, n, hdecode⟩ := hfails hstop
    rw [hlines] at hmem
    obtain ⟨text, -, rfl⟩ := List.mem_map.mp hmem
    rw [Utf8.decode_encode] at hdecode
    contradiction
  | @failing valid error last hfirst hdelivers =>
    obtain ⟨hvalid, tail, hbytes⟩ := hfirst.isLine_and_bytes_eq
    have hlast := reachesLastEnd_wholeBatches config.size hvalid tail
    rw [← hbytes] at hlast
    constructor
    · exact ⟨valid, error, _, hfirst, hlast⟩
    · intro valid' error' batches hfirst' hbatches
      obtain ⟨rfl, rfl⟩ := hfirst.unique hfirst'
      obtain rfl := hlast.unique hbatches
      have hwhole : ∀ line ∈ valid, line.IsWholeLines := fun line hline =>
        (hvalid line hline).isWholeLines
      have hitems : (ofReader ⟨served ++ stop.fills, 0⟩ config).items =
          (config.lexer.select (Token.beforeOpenQuote
            (tokenize (wholeBatches config.size valid)))).map .ok ++ [.error error] :=
        items_of_awaits_failure (awaits_ofReader hdelivers config) hwhole Text.isWholeLines_nil
          (isSettled_ofReader _ config)
      refine ⟨hitems, fun n => ?_, fun more => ?_⟩
      · rw [item_after, hitems]
      · have hlines := isWholeLines_wholeBatches config.size hwhole
        exact (prefix_tokenize_append hlines more).filter _

/-- A byte that is not UTF-8 ends a run, also behind the last line feed. -/
theorem items_ofReader_of_malformed_ending :
    (∀ fill ∈ [Fill.buffer [97, 10, 0xFF]], fill.serves = true) ∧
    Reader.Stop.endOfInput.IsFinal ∧
    (∃ line ∈ linesOf Reader.lineFeed ([Fill.buffer [97, 10, 0xFF]].flatMap Fill.bytes),
      ∃ valid, Utf8.decode line = .error valid) ∧
    (ofReader ⟨[.buffer [97, 10, 0xFF]], 0⟩ ⟨1, {}⟩).items =
      [.ok ⟨.identifier, ['a'], .start⟩, .ok ⟨.whitespace, ['\n'], ⟨1, 2, 1⟩⟩,
        .error (.invalidUtf8 2)] := by
  have hserves : ∀ fill ∈ [Fill.buffer [97, 10, 0xFF]], fill.serves = true := by decide
  have hdecode : Utf8.decode [0xFF] = .error 0 := by decide +kernel
  have hfails : ∃ line ∈ linesOf Reader.lineFeed ([Fill.buffer [97, 10, 0xFF]].flatMap Fill.bytes),
      ∃ valid, Utf8.decode line = .error valid := ⟨[0xFF], by decide, 0, hdecode⟩
  have hfinal : Reader.Stop.endOfInput.IsFinal := trivial
  have hline : Text.IsLine ['a', '\n'] := ⟨['a'], by decide, rfl⟩
  have hlines : ∀ line ∈ [['a', '\n']], Text.IsLine line := by simpa using hline
  have hfirst : Reader.FirstFailure 0 ([Fill.buffer [97, 10, 0xFF]].flatMap Fill.bytes)
      .endOfInput [['a', '\n']] (.invalidUtf8 2) :=
    .malformed rfl hlines (.inr rfl) hdecode
  have hlast := reachesLastEnd_wholeBatches 1 hlines [0xFF]
  have hbatches : wholeBatches 1 [['a', '\n']] = ['a', '\n'] := by decide +kernel
  have hitems := ((items_ofReader_of_failure hserves hfinal (fun _ => hfails) ⟨1, {}⟩).2
    _ _ _ hfirst hlast).1
  rw [hbatches] at hitems
  have htokens : LexerConfig.select {} (Token.beforeOpenQuote (tokenize ['a', '\n'])) =
      [⟨.identifier, ['a'], .start⟩, ⟨.whitespace, ['\n'], ⟨1, 2, 1⟩⟩] := by decide +kernel
  rw [htokens] at hitems
  exact ⟨hserves, hfinal, hfails, hitems⟩

end MapHighlight.BatchLexer
