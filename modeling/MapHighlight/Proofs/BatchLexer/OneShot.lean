import MapHighlight.Proofs.BatchLexer.Reading
import MapHighlight.Proofs.Reader.Scripts

/-!
# Lexing in batches and at once

Each pass leaves what later text could change, so what a run hands out does not depend on where its
batches end. Following the rounds of a run that does not fail, the tokens handed out and those of
the text behind them are always the tokens of one text.
-/

namespace MapHighlight.BatchLexer

/-- The tokens to be handed out if this is the text to come and nothing goes wrong. -/
def ahead (lexer : BatchLexer) (more : Text) : List Token :=
  lexer.queue ++ lexer.config.lexer.select ((lexer.pending.extend more).steps.map Step.token)

variable {lexer : BatchLexer} {more : Text}

/-- Reading moves text from what is to come to what is pending. -/
theorem ahead_fed (lexer : BatchLexer) (more : Text) :
    lexer.fed.ahead more = lexer.ahead (lexer.gather.text ++ more) := by
  rw [ahead, pending_fed, Cursor.extend_extend]
  rfl

/-- A pass before the end of the input changes no token, because the pending text is made of whole
lines unless nothing follows it. -/
theorem ahead_afterPass_of_open (hopen : lexer.ended = false)
    (hlines : more ≠ [] → lexer.pending.rest.IsWholeLines) :
    (lexer.afterPass lexer.pass).ahead more = lexer.ahead more := by
  obtain ⟨hqueue, hpending⟩ := afterPass_of_open hopen
  have hsteps := Cursor.steps_extend lexer.pending hlines
  rw [ahead, ahead, hqueue, hpending, hsteps, List.map_append, LexerConfig.select_append,
    List.append_assoc]
  rfl

/-- A pass after the end of the input changes no token. -/
theorem ahead_afterPass_of_ended (hended : lexer.ended = true) :
    (lexer.afterPass lexer.pass).ahead [] = lexer.ahead [] := by
  obtain ⟨hqueue, hrest⟩ := afterPass_of_ended hended
  rw [ahead, ahead, hqueue, Cursor.extend_nil, Cursor.extend_nil,
    Cursor.steps_of_rest_eq_nil hrest]
  simp [LexerConfig.select]

/-- A run that will not fail hands out the tokens of the pending text with all lines that are yet
to be read behind it. -/
theorem items_of_awaits {lines : List Text} {last : Reader}
    (hawaits : lexer.Awaits lines none last) (hlines : AreLines (lexer.pending.rest :: lines)) :
    lexer.items = (lexer.ahead lines.flatten).map .ok := by
  induction lexer using run_induction generalizing lines with
  | handOut lexer token queue hqueue hround ih =>
    rw [items_of_handOut hround, ih (hawaits.handOut queue) hlines, ahead, ahead, hqueue]
    rfl
  | exhausted lexer hover =>
    rcases hover.failed_or_ended with hfailed | ⟨hended, hrest⟩
    · rw [hawaits.failed_eq] at hfailed
      contradiction
    · obtain ⟨rfl, -⟩ := hawaits.finished hended
      rw [hover.items_eq, ahead, hover.queue_eq, List.flatten_nil, Cursor.extend_nil,
        Cursor.steps_of_rest_eq_nil hrest]
      rfl
  | lastPass lexer hqueue hfailed hended hround ih =>
    obtain ⟨rfl, -⟩ := hawaits.finished hended
    have hleft := hlines.of_suffix (rest_afterPass_suffix lexer)
    rw [items_of_again hround, ih (hawaits.afterPass _) hleft, List.flatten_nil,
      ahead_afterPass_of_ended hended]
  | failure lexer error hreading herror hround =>
    rw [(hawaits.exists_fed hreading).1] at herror
    contradiction
  | skip lexer hreading herror hheld hquote hopen hround ih =>
    obtain ⟨-, taken, rest, rfl, htext, hfed⟩ := hawaits.exists_fed hreading
    have hrest := hlines.append_flatten
    rw [← htext] at hrest
    rw [items_of_again hround, ih hfed hrest, ahead_fed, htext, List.flatten_append]
  | pass lexer hreading herror hround ih =>
    obtain ⟨-, taken, rest, rfl, htext, hfed⟩ := hawaits.exists_fed hreading
    have hrest := hlines.append_flatten
    rw [← htext] at hrest
    have hleft := hrest.of_suffix (rest_afterPass_suffix lexer.fed)
    have hpass : (lexer.fed.afterPass lexer.fed.pass).ahead rest.flatten =
        lexer.fed.ahead rest.flatten := by
      -- The text is made of whole lines or the input has ended, and then nothing follows the text.
      cases hended : lexer.fed.ended with
      | true =>
        obtain ⟨rfl, -⟩ := hfed.finished hended
        exact ahead_afterPass_of_ended hended
      | false =>
        apply ahead_afterPass_of_open hended
        intro hne
        apply hrest.1
        rintro rfl
        exact hne rfl
    rw [items_of_again hround, ih (hfed.afterPass _) hleft, hpass, ahead_fed, htext,
      List.flatten_append]

/-- However a reader cuts the bytes of a text, and however large the batches are, the items are the
tokens of the text that the configuration keeps, and after them nothing is handed out. -/
theorem items_ofReader_eq_tokenize {served : List Fill} {text : Text}
    (hserves : ∀ fill ∈ served, fill.serves = true)
    (hbytes : served.flatMap Fill.bytes = Utf8.encode text) (config : BatchConfig) :
    (ofReader ⟨served, 0⟩ config).items = (config.lexer.select (tokenize text)).map .ok ∧
    ∀ n, ((ofReader ⟨served, 0⟩ config).after n).next.item =
      ((config.lexer.select (tokenize text)).map .ok)[n]? := by
  obtain ⟨last, hdelivers⟩ := Reader.exists_delivers_of_encode hserves hbytes 0 0
  have hlines : AreLines ([] :: linesOf '\n' text) :=
    ⟨fun _ => Text.isWholeLines_nil, areLines_linesOf text⟩
  have hitems := items_of_awaits (awaits_ofReader hdelivers config) hlines
  rw [flatten_linesOf] at hitems
  have hitems : (ofReader ⟨served, 0⟩ config).items =
      (config.lexer.select (tokenize text)).map .ok := hitems
  constructor
  · exact hitems
  · intro n
    rw [item_after, hitems]

/-- The cut may fall within a character, and the reader may ask to be asked again there. -/
theorem items_ofReader_of_cut_within_character :
    (∀ fill ∈ [Fill.buffer [0xC3], .failure (.reported .interrupted []), .buffer [0xA9, 10]],
      fill.serves = true) ∧
    [Fill.buffer [0xC3], .failure (.reported .interrupted []), .buffer [0xA9, 10]].flatMap
      Fill.bytes = Utf8.encode "é\n".toList ∧
    (ofReader ⟨[.buffer [0xC3], .failure (.reported .interrupted []), .buffer [0xA9, 10]], 0⟩
        ⟨0, ⟨false, true⟩⟩).items = [.ok ⟨.error, "é".toList, .start⟩] := by
  have hserves : ∀ fill ∈ [Fill.buffer [0xC3], .failure (.reported .interrupted []),
      .buffer [0xA9, 10]], fill.serves = true := by decide
  have hbytes : [Fill.buffer [0xC3], .failure (.reported .interrupted []),
      .buffer [0xA9, 10]].flatMap Fill.bytes = Utf8.encode "é\n".toList := by decide
  have hitems := (items_ofReader_eq_tokenize hserves hbytes ⟨0, ⟨false, true⟩⟩).1
  have htokens : (LexerConfig.mk false true).select (tokenize "é\n".toList) =
      [⟨.error, "é".toList, .start⟩] := by decide +kernel
  rw [htokens] at hitems
  exact ⟨hserves, hbytes, hitems⟩

end MapHighlight.BatchLexer
