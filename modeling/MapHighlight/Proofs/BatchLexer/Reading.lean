import MapHighlight.Proofs.BatchLexer.Batches
import MapHighlight.Proofs.BatchLexer.Rounds
import MapHighlight.Proofs.Cursor.OpenQuote
import MapHighlight.Proofs.Lexer.Requests

/-!
# What a batch lexer awaits

At every point of a run that has not failed, a batch lexer has some lines yet to read, and an ending
behind them. A round either takes a whole batch off these lines or takes all of them with their
ending, and a pass over the pending text changes nothing about what is yet to be read.
-/

namespace MapHighlight.BatchLexer

variable {lexer : BatchLexer} {lines rest : List Text} {text : Text} {error : Option ReadError}
  {last : Reader}

/-- The lines that a batch lexer has yet to read, with what ends them and the reader in the end. -/
structure Awaits (lexer : BatchLexer) (lines : List Text) (error : Option ReadError)
    (last : Reader) : Prop where
  /-- Reading has not failed. -/
  failed_eq : lexer.failed = false
  /-- Before the end of the input is seen, the reader delivers the lines. -/
  delivers : lexer.ended = false →
    Reader.Delivers lexer.bytesRead lexer.reader lines error last
  /-- After the end of the input was seen, there are no lines, and nothing goes wrong. -/
  finished : lexer.ended = true → lines = [] ∧ error = none ∧ lexer.reader = last

theorem awaits_ofReader {reader : Reader} (h : reader.Delivers 0 lines error last)
    (config : BatchConfig) : (ofReader reader config).Awaits lines error last :=
  ⟨rfl, fun _ => h, fun hended => by simp [ofReader] at hended⟩

namespace Awaits

/-- A batch is gathered whenever there are lines enough for one. -/
theorem isBatch_gather (h : lexer.Awaits lines error last) (hreading : lexer.IsReading)
    (hbatch : nextBatch (max lexer.config.size 1) lines = some (text, rest)) :
    lexer.gather.IsBatch text rest error last := by
  refine Gathered.isBatch_ofReader (h.delivers hreading.ended_eq) ?_
  rwa [target, Nat.add_sub_cancel_left]

/-- All lines are gathered if they are too few for a batch. -/
theorem isRemainder_gather (h : lexer.Awaits lines error last) (hreading : lexer.IsReading)
    (hbatch : nextBatch (max lexer.config.size 1) lines = none) :
    lexer.gather.IsRemainder lines error last := by
  refine Gathered.isRemainder_ofReader (h.delivers hreading.ended_eq) ?_
  rwa [target, Nat.add_sub_cancel_left]

/-- After a batch, the lines behind it are awaited. -/
theorem fed_of_isBatch (h : lexer.Awaits lines error last)
    (hgather : lexer.gather.IsBatch text rest error last) : lexer.fed.Awaits rest error last :=
  ⟨h.failed_eq, fun _ => hgather.delivers, fun hended => by
    have hopen : lexer.fed.ended = false := hgather.ended_eq
    rw [hopen] at hended
    contradiction⟩

/-- After the last lines, nothing is awaited. -/
theorem fed_of_isRemainder (h : lexer.Awaits lines none last)
    (hgather : lexer.gather.IsRemainder lines none last) : lexer.fed.Awaits [] none last :=
  ⟨h.failed_eq, fun hopen => by
    have hended : lexer.fed.ended = true := hgather.ended_eq
    rw [hended] at hopen
    contradiction, fun _ => ⟨rfl, rfl, hgather.reader_eq⟩⟩

/-- If nothing goes wrong in the end, nothing goes wrong now, and the first lines were gathered. -/
theorem exists_fed (h : lexer.Awaits lines none last) (hreading : lexer.IsReading) :
    lexer.gather.error = none ∧ ∃ taken rest, lines = taken ++ rest ∧
      lexer.gather.text = taken.flatten ∧ lexer.fed.Awaits rest none last := by
  cases hbatch : nextBatch (max lexer.config.size 1) lines with
  | none =>
    have hgather := h.isRemainder_gather hreading hbatch
    exact ⟨hgather.error_eq, lines, [], by simp, hgather.text_eq, h.fed_of_isRemainder hgather⟩
  | some batch =>
    obtain ⟨text, rest⟩ := batch
    have hgather := h.isBatch_gather hreading hbatch
    obtain ⟨taken, rfl, rfl⟩ := eq_append_of_nextBatch hbatch
    exact ⟨hgather.error_eq, taken, rest, rfl, hgather.text_eq, h.fed_of_isBatch hgather⟩

/-- If reading fails in the end, it fails now or there is a batch before that. -/
theorem exists_fed_or_error {failure : ReadError} (h : lexer.Awaits lines (some failure) last)
    (hreading : lexer.IsReading) :
    lexer.gather.error = some failure ∧ nextBatch (max lexer.config.size 1) lines = none ∨
      lexer.gather.error = none ∧ lexer.gather.ended = false ∧ ∃ rest,
        nextBatch (max lexer.config.size 1) lines = some (lexer.gather.text, rest) ∧
        lexer.fed.Awaits rest (some failure) last := by
  cases hbatch : nextBatch (max lexer.config.size 1) lines with
  | none => exact .inl ⟨(h.isRemainder_gather hreading hbatch).error_eq, rfl⟩
  | some batch =>
    obtain ⟨text, rest⟩ := batch
    have hgather := h.isBatch_gather hreading hbatch
    refine .inr ⟨hgather.error_eq, hgather.ended_eq, rest, ?_, h.fed_of_isBatch hgather⟩
    rw [hgather.text_eq]

/-- If nothing goes wrong now, the first of the text was gathered, and the rest is awaited. -/
theorem exists_fed_of_error_eq_none (h : lexer.Awaits lines error last)
    (hreading : lexer.IsReading) (herror : lexer.gather.error = none) :
    ∃ rest, lexer.gather.text ++ rest.flatten = lines.flatten ∧
      lexer.fed.Awaits rest error last := by
  cases hbatch : nextBatch (max lexer.config.size 1) lines with
  | none =>
    have hgather := h.isRemainder_gather hreading hbatch
    obtain rfl : error = none := hgather.error_eq.symm.trans herror
    refine ⟨[], ?_, h.fed_of_isRemainder hgather⟩
    rw [hgather.text_eq, List.flatten_nil, List.append_nil]
  | some batch =>
    obtain ⟨text, rest⟩ := batch
    have hgather := h.isBatch_gather hreading hbatch
    refine ⟨rest, ?_, h.fed_of_isBatch hgather⟩
    rw [hgather.text_eq, append_flatten_of_nextBatch hbatch]

/-- If something goes wrong now, that is what was awaited in the end. -/
theorem of_gather_error {failure : ReadError} (h : lexer.Awaits lines error last)
    (hreading : lexer.IsReading) (herror : lexer.gather.error = some failure) :
    error = some failure ∧ lexer.gather.reader = last := by
  cases hbatch : nextBatch (max lexer.config.size 1) lines with
  | none =>
    have hgather := h.isRemainder_gather hreading hbatch
    exact ⟨hgather.error_eq.symm.trans herror, hgather.reader_eq⟩
  | some batch =>
    obtain ⟨text, rest⟩ := batch
    rw [(h.isBatch_gather hreading hbatch).error_eq] at herror
    contradiction

/-- A pass over the pending text does not read. -/
theorem afterPass (h : lexer.Awaits lines error last) (pass : Pass) :
    (lexer.afterPass pass).Awaits lines error last :=
  ⟨h.failed_eq, h.delivers, h.finished⟩

/-- Handing out a token does not read. -/
theorem handOut (h : lexer.Awaits lines error last) (queue : List Token) :
    { lexer with queue }.Awaits lines error last :=
  ⟨h.failed_eq, h.delivers, h.finished⟩

/-- Reading that fails in the end is never over before that. -/
theorem not_isOver {failure : ReadError} (h : lexer.Awaits lines (some failure) last) :
    ¬ lexer.IsOver := by
  intro hover
  rcases hover.failed_or_ended with hfailed | ⟨hended, _⟩
  · rw [h.failed_eq] at hfailed
    contradiction
  · have := (h.finished hended).2.1
    contradiction

end Awaits

/-- The pending text of a fed batch lexer has the new text behind it. -/
theorem pending_fed (lexer : BatchLexer) :
    lexer.fed.pending = lexer.pending.extend lexer.gather.text := rfl

/-- What a pass leaves is the end of the pending text. -/
theorem rest_afterPass_suffix (lexer : BatchLexer) :
    (lexer.afterPass lexer.pass).pending.rest <:+ lexer.pending.rest :=
  Cursor.rest_scanUntil_suffix _ _

/-- Unless the input has ended, a pass takes the steps up to the first open quote. -/
theorem afterPass_of_open (h : lexer.ended = false) :
    (lexer.afterPass lexer.pass).queue = lexer.queue ++ lexer.config.lexer.select
        ((lexer.pending.scanUntil Token.isOpenQuote).steps.map Step.token) ∧
      (lexer.afterPass lexer.pass).pending =
        (lexer.pending.scanUntil Token.isOpenQuote).cursor := by
  have hscan : lexer.pass.scan = lexer.pending.scanUntil Token.isOpenQuote := by
    simp only [pass, h, Bool.not_false, Bool.and_true]
  rw [← hscan]
  exact ⟨rfl, rfl⟩

/-- Once the input has ended, a pass takes all steps and leaves no text. -/
theorem afterPass_of_ended (h : lexer.ended = true) :
    (lexer.afterPass lexer.pass).queue =
        lexer.queue ++ lexer.config.lexer.select (lexer.pending.steps.map Step.token) ∧
      (lexer.afterPass lexer.pass).pending.rest = [] := by
  have hscan : lexer.pass.scan = lexer.pending.scanUntil fun _ => false := by
    simp only [pass, h, Bool.not_true, Bool.and_false]
  constructor
  · rw [Cursor.steps, ← hscan]
    rfl
  · have hrest := Cursor.rest_scanUntil_eq_nil (fun _ => rfl) lexer.pending
    rwa [← hscan] at hrest

end MapHighlight.BatchLexer
