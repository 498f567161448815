import MapHighlight.Proofs.BatchLexer.AnyReader
import MapHighlight.Proofs.BatchLexer.Cuts
import MapHighlight.Proofs.BatchLexer.Malformed
import MapHighlight.Proofs.BatchLexer.States
import Mathlib.Order.Bounds.Defs

/-!
# Reading ahead

When a token is handed out, a batch lexer has read up to the first cut at which the token is
complete, and no further. Only from a double quote on that the whole text leaves open is all of the
text read, because a second quote might have come to the very end.
-/

namespace MapHighlight

/-- So many bytes are read of a text by the time a token is handed out that comes behind these
others. -/
structure IsReadFor (size : Nat) (text : Text) (before : List Token) (token : Token)
    (taken : Nat) : Prop where
  /-- From an open quote on, the whole text is read. -/
  eq_of_open : (∃ quote ∈ before ++ [token], quote.isOpenQuote = true) → taken = text.byteLength
  /-- Otherwise the text is read up to the first cut at which the token is complete. -/
  isLeast_of_closed : (∀ earlier ∈ before ++ [token], earlier.isOpenQuote = false) →
    IsLeast {cut | IsBatchCut size (Utf8.encode text) cut ∧ token.finish.offset ≤ cut} taken

/-- Closed tokens before the others make no difference. -/
theorem IsReadFor.of_closed {size taken : Nat} {text : Text} {closed before : List Token}
    {token : Token} (hclosed : ∀ earlier ∈ closed, earlier.isOpenQuote = false)
    (h : IsReadFor size text before token taken) :
    IsReadFor size text (closed ++ before) token taken := by
  constructor
  · rintro ⟨quote, hmem, hopen⟩
    rw [List.append_assoc, List.mem_append] at hmem
    rcases hmem with hearlier | hmem
    · rw [hclosed quote hearlier] at hopen
      contradiction
    · exact h.eq_of_open ⟨quote, hmem, hopen⟩
  · intro hall
    rw [List.append_assoc] at hall
    exact h.isLeast_of_closed fun earlier hmem => hall earlier (List.mem_append_right closed hmem)

namespace BatchLexer

variable {lexer : BatchLexer} {text lexed unread : Text} {last : Reader} {before after : List Token}
  {token : Token}

/-- Nothing is read for tokens that wait. -/
theorem reader_after_of_le {n : Nat} (h : n ≤ lexer.queue.length) :
    (lexer.after n).reader = lexer.reader := by
  induction n generalizing lexer with
  | zero => rfl
  | succ n ih =>
    cases hqueue : lexer.queue with
    | nil =>
      rw [hqueue] at h
      contradiction
    | cons token queue =>
      have hround : lexer.round = .answer (some (.ok token)) { lexer with queue } := by
        rw [round, hqueue]
      rw [hqueue] at h
      rw [after_of_answer hround, ih (Nat.le_of_succ_le_succ h)]

/-- A batch lexer amid a run over a text: this much is yet to be read, and what was read ends at a
cut. -/
structure IsAmid (text : Text) (last : Reader) (lexed unread : Text) (lexer : BatchLexer) : Prop
    extends lexer.IsBehind lexed where
  /-- The lines of the rest are awaited. -/
  awaits : lexer.Awaits (linesOf '\n' unread) none last
  /-- The pending text is made of whole lines unless nothing is left to read. -/
  areLines : AreLines (lexer.pending.rest :: linesOf '\n' unread)
  /-- What was lexed, what is pending and what is yet to be read make up the text. -/
  text_eq : lexed ++ lexer.pending.rest ++ unread = text
  /-- The bytes read are those before a cut. -/
  isBatchCut : IsBatchCut lexer.config.size (Utf8.encode text) lexer.bytesRead

theorem isAmid_ofReader {reader : Reader}
    (h : Reader.Delivers 0 reader (linesOf '\n' text) none last) (config : BatchConfig) :
    (ofReader reader config).IsAmid text last [] text :=
  ⟨isBehind_ofReader reader config, awaits_ofReader h config,
    ⟨fun _ => Text.isWholeLines_nil, areLines_linesOf text⟩, rfl, .start⟩

/-- The bytes read are those of the text lexed and of the pending text. -/
theorem IsBehind.bytesRead_eq_byteLength (h : lexer.IsBehind lexed) :
    lexer.bytesRead = (lexed ++ lexer.pending.rest).byteLength := by
  rw [h.bytesRead_eq, h.location_eq, Location.offset_advance, Text.byteLength_append]
  simp [Location.start]

namespace IsAmid

/-- Once the end of the input was seen, nothing is left to read. -/
theorem unread_eq_nil (h : lexer.IsAmid text last lexed unread) (hended : lexer.ended = true) :
    unread = [] := by
  have hlines := (h.awaits.finished hended).1
  rw [← flatten_linesOf '\n' unread, hlines]
  rfl

/-- The bytes taken from the reader are the bytes read. -/
theorem taken_eq (h : lexer.IsAmid text last lexed unread)
    (hlast : last.taken = text.byteLength) : lexer.reader.taken = lexer.bytesRead := by
  have hbytes := h.bytesRead_eq_byteLength
  have htext := congrArg Text.byteLength h.text_eq
  rw [Text.byteLength_append] at htext
  cases hended : lexer.ended with
  | true =>
    have hunread := h.unread_eq_nil hended
    rw [(h.awaits.finished hended).2.2, hlast, ← htext, hbytes, hunread]
    rfl
  | false =>
    have htaken := (h.awaits.delivers hended).taken_last
    rw [flatten_linesOf] at htaken
    omega

/-- Reading goes on up to the next cut. -/
theorem isNextCut_fed (h : lexer.IsAmid text last lexed unread) (hreading : lexer.IsReading) :
    IsNextCut lexer.config.size (Utf8.encode text) lexer.bytesRead lexer.fed.bytesRead := by
  have hread := h.bytesRead_eq_byteLength
  have hfed : lexer.fed.bytesRead =
      (lexed ++ lexer.pending.rest ++ lexer.gather.text).byteLength := by
    rw [h.toIsBehind.fed.bytesRead_eq_byteLength, List.append_assoc]
    rfl
  rw [← h.text_eq, hread, hfed]
  cases hbatch : nextBatch (max lexer.config.size 1) (linesOf '\n' unread) with
  | none =>
    rw [(h.awaits.isRemainder_gather hreading hbatch).text_eq, flatten_linesOf]
    exact isNextCut_of_nextBatch_eq_none hbatch _
  | some batch =>
    obtain ⟨batch, rest⟩ := batch
    rw [(h.awaits.isBatch_gather hreading hbatch).text_eq]
    exact isNextCut_of_nextBatch hbatch _

/-- Reading moves text from what is yet to be read to what is pending. -/
theorem fed (h : lexer.IsAmid text last lexed unread) (hreading : lexer.IsReading) :
    ∃ more, unread = lexer.gather.text ++ more ∧ lexer.fed.IsAmid text last lexed more := by
  obtain ⟨-, taken, rest, hlines, htext, hawaits⟩ := h.awaits.exists_fed hreading
  have hunread : unread = lexer.gather.text ++ rest.flatten := by
    rw [htext, ← List.flatten_append, ← hlines, flatten_linesOf]
  have hareLines := h.areLines
  rw [hlines] at hareLines
  have hpending := hareLines.append_flatten
  rw [← htext] at hpending
  have hrest := linesOf_flatten_of_append hlines
  refine ⟨rest.flatten, hunread, h.toIsBehind.fed, ?_, ?_, ?_,
    h.isBatchCut.next (h.isNextCut_fed hreading)⟩
  · rwa [hrest]
  · rwa [hrest]
  · rw [← h.text_eq, hunread, pending_fed, Cursor.extend]
    simp only [List.append_assoc]

/-- A pass moves text from what is pending to what was lexed. -/
theorem afterPass (h : lexer.IsAmid text last lexed unread) :
    (lexer.afterPass lexer.pass).IsAmid text last (lexed ++ lexer.pass.text) unread := by
  refine ⟨h.toIsBehind.afterPass, h.awaits.afterPass _,
    h.areLines.of_suffix (rest_afterPass_suffix lexer), ?_, h.isBatchCut⟩
  have hrest : lexer.pass.text ++ (lexer.afterPass lexer.pass).pending.rest =
      lexer.pending.rest := (covers_pass h.isPlaced).append_rest
  rw [← h.text_eq, ← hrest]
  simp only [List.append_assoc]

/-- Handing out a token does not move anything. -/
theorem handOut (h : lexer.IsAmid text last lexed unread) (queue : List Token) :
    { lexer with queue }.IsAmid text last lexed unread :=
  ⟨⟨h.location_eq, h.isPlaced, h.bytesRead_eq⟩, h.awaits.handOut queue, h.areLines, h.text_eq,
    h.isBatchCut⟩

end IsAmid

/-- A closed token at the start of the pending text ends in the new text: a held quote is closed
there, and without one nothing else is pending. -/
theorem IsSettled.byteLength_lt_of_step? {more : Text} {step : Step} {next : Cursor}
    (hsettled : lexer.IsSettled) (hstep : (lexer.pending.extend more).step? = some (step, next))
    (hclosed : step.token.isOpenQuote = false) :
    lexer.pending.rest.byteLength < step.token.lexeme.byteLength := by
  cases hheld : lexer.quoteHeld with
  | false =>
    obtain ⟨c, lexeme, hlexeme⟩ :=
      List.exists_cons_of_ne_nil (Cursor.takes_of_step? hstep).lexeme_ne_nil
    have hpos := c.utf8Size_pos
    rw [hsettled.rest_of_clear hheld, hlexeme, Text.byteLength_cons, Text.byteLength_nil]
    omega
  | true =>
    obtain ⟨rest, hrest, hmem⟩ := hsettled.rest_of_held hheld
    have hextend : (lexer.pending.extend more).rest = '"' :: (rest ++ more) := by
      rw [Cursor.extend, hrest]
      rfl
    have hquote : '"' ∈ more := by
      by_contra hmore
      have hopen := (Cursor.isOpenQuote_iff hstep).mpr
        ⟨rest ++ more, hextend, by simp [hmem, hmore]⟩
      rw [hclosed] at hopen
      contradiction
    obtain ⟨lexeme, _, hclosing, hlt⟩ := hsettled.exists_step?_of_quote hheld hquote
    rw [hstep] at hclosing
    cases hclosing
    exact hlt

/-- As long as the tokens are closed, all of them end in the new text. -/
theorem IsSettled.byteLength_lt_of_tokens {more : Text} (hsettled : lexer.IsSettled)
    (htokens : (lexer.pending.extend more).steps.map Step.token = before ++ token :: after)
    (hclosed : ∀ earlier ∈ before ++ [token], earlier.isOpenQuote = false) :
    lexer.pending.rest.byteLength <
      Text.byteLength ((before ++ [token]).flatMap Token.lexeme) := by
  cases hstep : (lexer.pending.extend more).step? with
  | none => simp [Cursor.steps_of_step?_eq_none hstep] at htokens
  | some found =>
    obtain ⟨step, next⟩ := found
    have hfirst : step.token ∈ (before ++ [token]).head? := by
      rw [Cursor.steps_of_step? hstep, List.map_cons] at htokens
      cases before with
      | nil => simp [(List.cons.inj htokens).1]
      | cons first before => simp [(List.cons.inj htokens).1]
    obtain ⟨others, hothers⟩ := List.head?_eq_some_iff.mp hfirst
    have hlt := hsettled.byteLength_lt_of_step? hstep (hclosed _ (List.mem_of_head? hfirst))
    rw [hothers, List.flatMap_cons, Text.byteLength_append]
    omega

/-- Before the end of the input is seen, a pass takes no open quote. -/
theorem isOpenQuote_of_mem_pass (hopen : lexer.ended = false)
    (hmem : token ∈ lexer.pass.scan.steps.map Step.token) : token.isOpenQuote = false := by
  have htake : lexer.pass.scan.steps.map Step.token =
      (lexer.pending.steps.map Step.token).takeWhile
        fun token => !(token.isOpenQuote && !lexer.ended) := Cursor.tokens_scanUntil _ _
  rw [htake] at hmem
  simpa [hopen] using List.mem_takeWhile_imp hmem

/-- A pass takes the first of the steps through the pending text. -/
theorem steps_pass (lexer : BatchLexer) :
    lexer.pending.steps =
      lexer.pass.scan.steps ++ (lexer.afterPass lexer.pass).pending.steps :=
  Cursor.steps_scanUntil _ _

/-- A token of a pass ends behind the tokens of the pass before it. -/
theorem IsBehind.finish_of_pass (h : lexer.IsBehind lexed)
    (hpass : lexer.pass.scan.steps.map Step.token = before ++ token :: after) :
    token.finish.offset = lexer.pending.location.offset +
      Text.byteLength ((before ++ [token]).flatMap Token.lexeme) := by
  have hcover := (covers_pass h.isPlaced).cover
  rw [hpass] at hcover
  rw [hcover.finish_eq, Location.offset_advance]

/-- A token of a pass ends in the text that was read. -/
theorem IsBehind.finish_le_of_pass (h : lexer.IsBehind lexed)
    (hpass : lexer.pass.scan.steps.map Step.token = before ++ token :: after) :
    token.finish.offset ≤ lexer.bytesRead := by
  have hcovers := covers_pass h.isPlaced
  have hrest := congrArg Text.byteLength hcovers.append_rest
  have hlexemes := congrArg Text.byteLength hcovers.cover.flatMap_lexeme
  rw [Text.byteLength_append] at hrest
  rw [hpass, List.append_cons, List.flatMap_append, Text.byteLength_append] at hlexemes
  rw [h.finish_of_pass hpass, h.bytesRead_eq, ← hrest]
  omega

/-- The tokens of a pass after reading are handed out with just as much read as they need. -/
theorem IsAmid.isReadFor_pass (h : lexer.IsAmid text last lexed unread)
    (hsettled : lexer.IsSettled) (hreading : lexer.IsReading)
    (hlast : last.taken = text.byteLength)
    (hpass : lexer.fed.pass.scan.steps.map Step.token = before ++ token :: after) :
    IsReadFor lexer.config.size text before token lexer.fed.reader.taken := by
  obtain ⟨more, -, hfed⟩ := h.fed hreading
  constructor
  · rintro ⟨quote, hmem, hopen⟩
    have hquote : quote ∈ lexer.fed.pass.scan.steps.map Step.token := by
      rw [hpass, List.append_cons]
      exact List.mem_append_left after hmem
    cases hended : lexer.fed.ended with
    | false =>
      rw [isOpenQuote_of_mem_pass hended hquote] at hopen
      contradiction
    | true => rw [(hfed.awaits.finished hended).2.2, hlast]
  · intro hclosed
    rw [hfed.taken_eq hlast]
    refine ⟨⟨hfed.isBatchCut, hfed.finish_le_of_pass hpass⟩, ?_⟩
    rintro cut ⟨hcut, hle⟩
    have hsteps := congrArg (List.map Step.token) lexer.fed.steps_pass
    rw [List.map_append, hpass, List.append_assoc, List.cons_append, pending_fed] at hsteps
    have hfar := hsettled.byteLength_lt_of_tokens hsteps hclosed
    have hplace : lexer.fed.pending.location = lexer.pending.location := rfl
    rw [hfed.finish_of_pass hpass, hplace] at hle
    have hbytes := h.bytesRead_eq
    -- The token is not complete at the cut before, so no cut before the next one will do.
    rcases h.isBatchCut.le_or_le (h.isNextCut_fed hreading) hcut with hbefore | hbehind
    · omega
    · exact hbehind

/-- A pass takes the first of the steps through all the text that is to come. -/
theorem IsAmid.steps_extend (h : lexer.IsAmid text last lexed unread) :
    (lexer.pending.extend unread).steps = lexer.pass.scan.steps ++
      ((lexer.afterPass lexer.pass).pending.extend unread).steps := by
  cases hended : lexer.ended with
  | true =>
    rw [h.unread_eq_nil hended, Cursor.extend_nil, Cursor.extend_nil]
    exact lexer.steps_pass
  | false =>
    have hscan : lexer.pass.scan = lexer.pending.scanUntil Token.isOpenQuote := by
      simp only [pass, hended, Bool.not_false, Bool.and_true]
    have hpending : (lexer.afterPass lexer.pass).pending = lexer.pass.scan.cursor := rfl
    rw [hpending, hscan]
    apply Cursor.steps_extend
    intro hne
    apply h.areLines.1
    intro hnil
    apply hne
    rw [← flatten_linesOf '\n' unread, hnil]
    rfl

/-- An element of two lists in a row stands in the one or in the other. -/
private theorem split_of_append_eq {α : Type} {left right before after : List α} {a : α}
    (h : left ++ right = before ++ a :: after) :
    (∃ later, before = left ++ later ∧ right = later ++ a :: after) ∨
      ∃ inner, left = before ++ a :: inner := by
  rcases List.append_eq_append_iff.mp h with ⟨later, hbefore, hright⟩ | ⟨inner, hleft, hafter⟩
  · exact .inl ⟨later, hbefore, hright⟩
  · rcases List.cons_eq_append_iff.mp hafter with ⟨rfl, hright⟩ | ⟨more, rfl, -⟩
    · exact .inl ⟨[], by simpa using hleft.symm, hright⟩
    · exact .inr ⟨more, hleft⟩

/-- Once the end of the input was seen, no token is to come between rounds. -/
theorem IsAmid.steps_eq_nil (h : lexer.IsAmid text last lexed unread)
    (hcoherent : lexer.IsCoherent lexed) (hended : lexer.ended = true) :
    (lexer.pending.extend unread).steps = [] := by
  rw [h.unread_eq_nil hended, Cursor.extend_nil]
  exact Cursor.steps_of_rest_eq_nil (hcoherent.rest_eq_nil hended)

/-- After reading, the tokens that wait are those of the pass. -/
theorem IsReading.queue_afterPass (h : lexer.IsReading) :
    (lexer.fed.afterPass lexer.fed.pass).queue =
      lexer.config.lexer.select (lexer.fed.pass.scan.steps.map Step.token) := by
  have happend : (lexer.fed.afterPass lexer.fed.pass).queue =
      lexer.queue ++ lexer.fed.pass.emitted := rfl
  rw [happend, h.queue_eq]
  rfl

/-- A token of the pass waits after the pass, and nothing more is read for it. -/
theorem IsReading.reader_after_pass (h : lexer.IsReading)
    (hpass : lexer.fed.pass.scan.steps.map Step.token = before ++ token :: after)
    (hkeeps : lexer.config.lexer.keeps token.category = true) :
    ((lexer.fed.afterPass lexer.fed.pass).after
      ((lexer.config.lexer.select before).length + 1)).reader = lexer.fed.reader := by
  apply reader_after_of_le
  rw [h.queue_afterPass, hpass, LexerConfig.select_append,
    LexerConfig.select_cons_of_keeps hkeeps, List.length_append, List.length_cons]
  omega

/-- Every token that the configuration keeps is handed out with just as much read as it needs. -/
theorem isReadFor_after (h : lexer.IsAmid text last lexed unread)
    (hcoherent : lexer.IsCoherent lexed) (hlast : last.taken = text.byteLength)
    (htokens : (lexer.pending.extend unread).steps.map Step.token = before ++ token :: after)
    (hkeeps : lexer.config.lexer.keeps token.category = true) :
    IsReadFor lexer.config.size text before token (lexer.after
      (lexer.queue.length + (lexer.config.lexer.select before).length + 1)).reader.taken := by
  induction lexer using run_induction generalizing lexed unread before with
  | handOut lexer first queue hqueue hround ih =>
    have hindex : (first :: queue).length + (lexer.config.lexer.select before).length + 1 =
        queue.length + (lexer.config.lexer.select before).length + 1 + 1 := by
      rw [List.length_cons]
      omega
    rw [hqueue, hindex, after_of_answer hround]
    exact ih (h.handOut queue) (hcoherent.handOut queue) htokens hkeeps
  | exhausted lexer hover =>
    rcases hover.failed_or_ended with hfailed | ⟨hended, -⟩
    · rw [h.awaits.failed_eq] at hfailed
      contradiction
    · simp [h.steps_eq_nil hcoherent hended] at htokens
  | lastPass lexer hqueue hfailed hended hround ih =>
    simp [h.steps_eq_nil hcoherent hended] at htokens
  | failure lexer error hreading herror hround =>
    rw [(h.awaits.exists_fed hreading).1] at herror
    contradiction
  | skip lexer hreading herror hheld hquote hopen hround ih =>
    obtain ⟨more, rfl, hfed⟩ := h.fed hreading
    rw [← Cursor.extend_extend] at htokens
    rw [after_of_again hround]
    exact ih hfed (hcoherent.fed_of_skip hheld hquote hopen) htokens hkeeps
  | pass lexer hreading herror hround ih =>
    obtain ⟨more, rfl, hfed⟩ := h.fed hreading
    rw [← Cursor.extend_extend, ← pending_fed, hfed.steps_extend, List.map_append] at htokens
    have hafter := hfed.toIsBehind.isCoherent_afterPass
    rw [after_of_again hround, hreading.queue_eq, List.length_nil, Nat.zero_add]
    rcases split_of_append_eq htokens with ⟨later, rfl, hrest⟩ | ⟨inner, hpass⟩
    · -- The token is left to later passes, so the end of the input was not seen yet.
      have hopen : lexer.fed.ended = false := by
        by_contra hended
        rw [Bool.not_eq_false] at hended
        simp [hfed.afterPass.steps_eq_nil hafter hended] at hrest
      have hread := ih hfed.afterPass hafter hrest hkeeps
      rw [hreading.queue_afterPass, ← List.length_append] at hread
      rw [LexerConfig.select_append]
      exact hread.of_closed fun _ => isOpenQuote_of_mem_pass hopen
    · rw [hreading.reader_after_pass hpass hkeeps]
      exact h.isReadFor_pass hcoherent.toIsSettled hreading hlast hpass

/-- However a reader cuts the bytes of a text, when a token is handed out, no more of the text has
been read than up to the first cut at which the token is complete, unless the token stands at or
behind a double quote that the whole text leaves open. Then, and when nothing is left to be handed
out, all of the text has been read. -/
theorem taken_after_item {served : List Fill} {text : Text}
    (hserves : ∀ fill ∈ served, fill.serves = true)
    (hbytes : served.flatMap Fill.bytes = Utf8.encode text) (config : BatchConfig) :
    (∀ before token after, tokenize text = before ++ token :: after →
      config.lexer.keeps token.category = true →
      let n := (config.lexer.select before).length
      ((ofReader ⟨served, 0⟩ config).after n).next.item = some (.ok token) ∧
      IsReadFor config.size text before token
        ((ofReader ⟨served, 0⟩ config).after (n + 1)).reader.taken) ∧
    ∀ n, (config.lexer.select (tokenize text)).length ≤ n →
      ((ofReader ⟨served, 0⟩ config).after n).next.item = none ∧
      ((ofReader ⟨served, 0⟩ config).after (n + 1)).reader.taken = text.byteLength := by
  obtain ⟨last, hdelivers⟩ := Reader.exists_delivers_of_encode hserves hbytes 0 0
  have hlast : last.taken = text.byteLength := by
    rw [hdelivers.taken_last, flatten_linesOf, Nat.zero_add]
  have hdecode : Utf8.decode (served.flatMap Fill.bytes) = .ok text := by
    rw [hbytes, Utf8.decode_encode]
  have hitems := items_ofReader_of_decode hserves hdecode config
  constructor
  · intro before token after htokens hkeeps
    constructor
    · rw [item_after, hitems, htokens, LexerConfig.select_append,
        LexerConfig.select_cons_of_keeps hkeeps]
      simp
    · have hread := isReadFor_after (isAmid_ofReader hdelivers config)
        (isCoherent_ofReader _ config) hlast htokens hkeeps
      have hqueue : (ofReader ⟨served, 0⟩ config).queue.length = 0 := rfl
      rw [hqueue, Nat.zero_add] at hread
      exact hread
  · intro n hn
    have hlength : (ofReader ⟨served, 0⟩ config).items.length ≤ n := by
      rwa [hitems, List.length_map]
    constructor
    · rw [item_after]
      exact List.getElem?_eq_none hlength
    · rw [reader_after (awaits_ofReader hdelivers config) hlength, hlast]

/-- A quote that is closed on the next line is handed out once that line was read to its end. -/
theorem taken_after_item_of_quote_across_lines :
    (∀ fill ∈ [Fill.buffer (Utf8.encode "a\n\"b\nc\" d\ne\n".toList)], fill.serves = true) ∧
    LexerConfig.keeps ⟨false, true⟩ .stringLiteral = true ∧
    ((ofReader ⟨[.buffer (Utf8.encode "a\n\"b\nc\" d\ne\n".toList)], 0⟩
      ⟨0, ⟨false, true⟩⟩).after 1).next.item =
        some (.ok ⟨.stringLiteral, "\"b\nc\"".toList, ⟨2, 1, 2⟩⟩) ∧
    IsLeast {cut | IsBatchCut 0 (Utf8.encode "a\n\"b\nc\" d\ne\n".toList) cut ∧ 7 ≤ cut}
      ((ofReader ⟨[.buffer (Utf8.encode "a\n\"b\nc\" d\ne\n".toList)], 0⟩
        ⟨0, ⟨false, true⟩⟩).after 2).reader.taken := by
  have hserves : ∀ fill ∈ [Fill.buffer (Utf8.encode "a\n\"b\nc\" d\ne\n".toList)],
      fill.serves = true := by decide
  have hbytes : [Fill.buffer (Utf8.encode "a\n\"b\nc\" d\ne\n".toList)].flatMap Fill.bytes =
      Utf8.encode "a\n\"b\nc\" d\ne\n".toList := by decide
  have htokens : tokenize "a\n\"b\nc\" d\ne\n".toList =
      [⟨.identifier, ['a'], .start⟩, ⟨.whitespace, ['\n'], ⟨1, 2, 1⟩⟩] ++
        ⟨.stringLiteral, "\"b\nc\"".toList, ⟨2, 1, 2⟩⟩ ::
        (tokenize "a\n\"b\nc\" d\ne\n".toList).drop 3 := by decide +kernel
  obtain ⟨hitem, hread⟩ := (taken_after_item hserves hbytes ⟨0, ⟨false, true⟩⟩).1 _ _ _ htokens rfl
  exact ⟨hserves, rfl, hitem, hread.isLeast_of_closed (by decide)⟩

end BatchLexer

end MapHighlight
