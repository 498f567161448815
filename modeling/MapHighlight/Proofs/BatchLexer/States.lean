import MapHighlight.Proofs.BatchLexer.Failure
import MapHighlight.Proofs.BatchLexer.Runs

/-!
# States of a batch lexer

Between two rounds of a run that has not failed, nothing is pending but a held quote that nothing
closes, and it stands in the source where the text lexed before it ends. Whether to lex again may
therefore be decided from the new text alone. This holds of every reader, because a round that reads
adds text behind the pending text and a pass takes text off its start.
-/

namespace MapHighlight

/-- Reading lines counts the bytes of the text that it brings, even if it is cut short. -/
theorem Gathered.bytesRead_ofReader (target length bytesRead : Nat) (reader : Reader) :
    (ofReader target length bytesRead reader).bytesRead =
      bytesRead + (ofReader target length bytesRead reader).text.byteLength := by
  fun_induction ofReader target length bytesRead reader with
  | case1 => rfl
  | case2 => rfl
  | case3 => rfl
  | case4 length bytesRead reader hlt b bytes next hread _ text hdecode size more ih =>
    have hsize : size = text.byteLength := by
      rw [← Utf8.length_encode, ← Utf8.eq_encode_of_decode hdecode]
    have hmore : more.bytesRead = bytesRead + size + more.text.byteLength := ih
    simp only [Text.byteLength_append]
    omega
  | case5 => rfl

namespace BatchLexer

variable {start lexer : BatchLexer} {passes : List Pass} {lexed : Text}

/-- The pending text stands in the source right behind this text, and all that was read is this text
with the pending text behind it. -/
structure IsBehind (lexed : Text) (lexer : BatchLexer) : Prop where
  /-- The text ends where the pending text starts. -/
  location_eq : lexer.pending.location = Location.start.advance lexed
  /-- The cursor knows whether it is at the start of a line. -/
  isPlaced : lexer.pending.IsPlaced
  /-- The bytes read are those before the pending text and those of the pending text. -/
  bytesRead_eq :
    lexer.bytesRead = lexer.pending.location.offset + lexer.pending.rest.byteLength

/-- At the start of a run no text was lexed. -/
theorem isBehind_ofReader (reader : Reader) (config : BatchConfig) :
    (ofReader reader config).IsBehind [] :=
  ⟨rfl, Cursor.isPlaced_ofSource [], rfl⟩

/-- Reading adds to the end of the pending text and leaves its start where it is. -/
theorem IsBehind.fed (h : lexer.IsBehind lexed) : lexer.fed.IsBehind lexed := by
  constructor
  · exact h.location_eq
  · exact ⟨h.isPlaced.column_pos, h.isPlaced.atLineStart_iff⟩
  · have hread : lexer.fed.bytesRead = lexer.bytesRead + lexer.gather.text.byteLength :=
      Gathered.bytesRead_ofReader _ _ _ _
    rw [hread, h.bytesRead_eq, Nat.add_assoc, ← Text.byteLength_append]
    rfl

/-- A pass moves the start of the pending text behind the text that it takes. -/
theorem IsBehind.afterPass (h : lexer.IsBehind lexed) :
    (lexer.afterPass lexer.pass).IsBehind (lexed ++ lexer.pass.text) := by
  have hcovers := covers_pass h.isPlaced
  have hlocation : (lexer.afterPass lexer.pass).pending.location =
      lexer.pending.location.advance lexer.pass.text := hcovers.location_advance
  constructor
  · rw [hlocation, h.location_eq, Location.advance_append]
  · exact hcovers.isPlaced
  · have hrest := congrArg Text.byteLength hcovers.append_rest
    have hbytes : (lexer.afterPass lexer.pass).bytesRead = lexer.bytesRead := rfl
    rw [Text.byteLength_append] at hrest
    rw [hbytes, h.bytesRead_eq, hlocation, Location.offset_advance, ← hrest, Nat.add_assoc]
    rfl

/-- A pass holds a quote only before the end of the input is seen. -/
theorem ended_eq_false_of_held (h : (lexer.afterPass lexer.pass).quoteHeld = true) :
    lexer.ended = false := by
  obtain ⟨step, hleft⟩ := Option.isSome_iff_exists.mp h
  have hleave := (Cursor.step?_of_left_eq_some _ hleft).1
  simp only [Bool.and_eq_true, Bool.not_eq_true'] at hleave
  exact hleave.2

/-- What holds between rounds, behind the text that was lexed: nothing is pending but a held quote,
and a quote is held only before the end of the input is seen. -/
structure IsCoherent (lexed : Text) (lexer : BatchLexer) : Prop extends
    lexer.IsSettled, lexer.IsBehind lexed where
  /-- While a quote is held there may be more to read. -/
  ended_of_held : lexer.quoteHeld = true → lexer.ended = false

theorem isCoherent_ofReader (reader : Reader) (config : BatchConfig) :
    (ofReader reader config).IsCoherent [] :=
  ⟨isSettled_ofReader reader config, isBehind_ofReader reader config, fun _ => rfl⟩

/-- Once the end of the input was seen, nothing is pending between rounds. -/
theorem IsCoherent.rest_eq_nil (h : lexer.IsCoherent lexed) (hended : lexer.ended = true) :
    lexer.pending.rest = [] := by
  apply h.rest_of_clear
  by_contra hheld
  rw [Bool.not_eq_false] at hheld
  rw [h.ended_of_held hheld] at hended
  contradiction

/-- A held quote is closed by the first quote in the text to come. -/
theorem IsSettled.exists_step?_of_quote {more : Text} (h : lexer.IsSettled)
    (hheld : lexer.quoteHeld = true) (hquote : '"' ∈ more) :
    ∃ lexeme next, (lexer.pending.extend more).step? =
        some (.matched lexer.pending.location .string lexeme, next) ∧
      lexer.pending.rest.byteLength < lexeme.byteLength := by
  obtain ⟨rest, hrest, hmem⟩ := h.rest_of_held hheld
  obtain ⟨inner, later, rfl, hinner⟩ := List.eq_append_cons_of_mem hquote
  have hwhole : (lexer.pending.extend (inner ++ '"' :: later)).rest =
      '"' :: (rest ++ inner) ++ '"' :: later := by
    rw [Cursor.extend, hrest]
    simp
  refine ⟨_, _, Cursor.step?_quote_of_closed hwhole (by simp [hmem, hinner]), ?_⟩
  have hpos := '"'.utf8Size_pos
  simp only [hrest, List.cons_append, Text.byteLength_cons, Text.byteLength_append,
    Text.byteLength_nil]
  omega

/-- After any pass the state is coherent, because the pass stops at an open quote or takes all. -/
theorem IsBehind.isCoherent_afterPass (h : lexer.IsBehind lexed) :
    (lexer.afterPass lexer.pass).IsCoherent (lexed ++ lexer.pass.text) := by
  refine ⟨?_, h.afterPass, ended_eq_false_of_held⟩
  cases hended : lexer.ended with
  | false => exact isSettled_afterPass hended
  | true =>
    constructor
    · intro hheld
      rw [ended_eq_false_of_held hheld] at hended
      contradiction
    · intro _
      exact (afterPass_of_ended hended).2

/-- Skipping a pass keeps the state coherent, because the new text does not close the quote. -/
theorem IsCoherent.fed_of_skip (h : lexer.IsCoherent lexed) (hheld : lexer.quoteHeld = true)
    (hquote : '"' ∉ lexer.gather.text) (hopen : lexer.gather.ended = false) :
    lexer.fed.IsCoherent lexed :=
  ⟨h.toIsSettled.fed hheld hquote, h.toIsBehind.fed, fun _ => hopen⟩

/-- Handing out a token keeps the state coherent. -/
theorem IsCoherent.handOut (h : lexer.IsCoherent lexed) (queue : List Token) :
    { lexer with queue }.IsCoherent lexed :=
  ⟨⟨h.rest_of_held, h.rest_of_clear⟩, ⟨h.location_eq, h.isPlaced, h.bytesRead_eq⟩,
    h.ended_of_held⟩

/-- A round that asks for another one keeps the state coherent behind the text of its pass. -/
theorem IsCoherent.of_again {next : BatchLexer} {pass : Option Pass} (h : lexer.IsCoherent lexed)
    (hround : lexer.round = .again pass next) :
    next.IsCoherent (lexed ++ pass.toList.flatMap Pass.text) := by
  have hworks := works_round lexer
  rw [hround] at hworks
  cases hworks with
  | lastPass => simpa using h.toIsBehind.isCoherent_afterPass
  | skip _ _ hheld hquote hopen => simpa using h.fed_of_skip hheld hquote hopen
  | pass => simpa using h.toIsBehind.fed.isCoherent_afterPass

/-- A round that answers a request keeps the state coherent unless it fails. -/
theorem IsCoherent.of_answer {next : BatchLexer} {item : Option Item} (h : lexer.IsCoherent lexed)
    (hround : lexer.round = .answer item next) (hfailed : next.failed = false) :
    next.IsCoherent lexed := by
  have hworks := works_round lexer
  rw [hround] at hworks
  cases hworks with
  | handOut => exact h.handOut _
  | exhausted => exact h
  | failure => simp [fail] at hfailed

/-- A round that asks for another one does not fail. -/
theorem failed_of_again {next : BatchLexer} {pass : Option Pass}
    (hround : lexer.round = .again pass next) : next.failed = lexer.failed := by
  have hworks := works_round lexer
  rw [hround] at hworks
  cases hworks with
  | lastPass => rfl
  | skip => rfl
  | pass => rfl

/-- A run that has failed once has failed for good. -/
theorem failed_of_answer {next : BatchLexer} {item : Option Item}
    (hround : lexer.round = .answer item next) (hfailed : next.failed = false) :
    lexer.failed = false := by
  have hworks := works_round lexer
  rw [hround] at hworks
  cases hworks with
  | handOut => exact hfailed
  | exhausted => exact hfailed
  | failure hreading => exact hreading.failed_eq

/-- Every state of a run that has not failed is coherent behind the text of all passes. -/
theorem isCoherent_of_reaches {reader : Reader} {config : BatchConfig}
    (h : (ofReader reader config).Reaches passes lexer) (hfailed : lexer.failed = false) :
    lexer.IsCoherent (passes.flatMap Pass.text) := by
  induction h with
  | start => exact isCoherent_ofReader reader config
  | again _ hround ih =>
    rw [failed_of_again hround] at hfailed
    rw [List.flatMap_append]
    exact (ih hfailed).of_again hround
  | answer _ hround ih =>
    exact (ih (failed_of_answer hround hfailed)).of_answer hround hfailed

/-- Whatever a reader reports, in every state between rounds that has not failed: a held quote is the
only one in the pending text and starts it, and the end of the input was not seen; without a held
quote nothing is pending. The pending text stands behind all text that was lexed, its cursor knows
from the column whether it is at the start of a line, and all bytes read lie before its end. The
states between requests are among these states. -/
theorem state_of_reaches (reader : Reader) (config : BatchConfig) :
    (∀ n, ∃ passes, (ofReader reader config).Reaches passes ((ofReader reader config).after n)) ∧
    ∀ passes lexer, (ofReader reader config).Reaches passes lexer → lexer.failed = false →
      (lexer.quoteHeld = true → lexer.ended = false ∧
        ∃ rest, lexer.pending.rest = '"' :: rest ∧ '"' ∉ rest) ∧
      (lexer.quoteHeld = false → lexer.pending.rest = []) ∧
      lexer.pending.location = Location.start.advance (passes.flatMap Pass.text) ∧
      (lexer.pending.atLineStart = true ↔ lexer.pending.location.column = 1) ∧
      lexer.bytesRead = lexer.pending.location.offset + lexer.pending.rest.byteLength := by
  refine ⟨exists_reaches_after _, fun passes lexer hreaches hfailed => ?_⟩
  have hcoherent := isCoherent_of_reaches hreaches hfailed
  exact ⟨fun hheld => ⟨hcoherent.ended_of_held hheld, hcoherent.rest_of_held hheld⟩,
    hcoherent.rest_of_clear, hcoherent.location_eq, hcoherent.isPlaced.atLineStart_iff,
    hcoherent.bytesRead_eq⟩

/-- The first batch may leave a quote open, which is then held behind the text before it. -/
theorem state_of_reaches_of_held_quote :
    ∃ passes lexer, (ofReader ⟨[.buffer [97, 34, 10]], 0⟩ ⟨0, {}⟩).Reaches passes lexer ∧
      lexer.failed = false ∧ lexer.quoteHeld = true ∧
      (∃ rest, lexer.pending.rest = '"' :: rest ∧ '"' ∉ rest) ∧
      lexer.pending.location = Location.start.advance (passes.flatMap Pass.text) ∧
      lexer.bytesRead = lexer.pending.location.offset + lexer.pending.rest.byteLength := by
  have hheld : (match (ofReader ⟨[.buffer [97, 34, 10]], 0⟩ ⟨0, {}⟩).round with
      | .again _ next => !next.failed && next.quoteHeld
      | .answer _ _ => false) = true := by decide +kernel
  cases hround : (ofReader ⟨[.buffer [97, 34, 10]], 0⟩ ⟨0, {}⟩).round with
  | answer => simp [hround] at hheld
  | again pass next =>
    simp only [hround, Bool.and_eq_true, Bool.not_eq_true'] at hheld
    have hreaches := Reaches.start.again hround
    obtain ⟨hquote, -, hlocation, -, hbytes⟩ :=
      (state_of_reaches _ _).2 _ _ hreaches hheld.1
    exact ⟨_, next, hreaches, hheld.1, hheld.2, (hquote hheld.2).2, hlocation, hbytes⟩

end BatchLexer

end MapHighlight
