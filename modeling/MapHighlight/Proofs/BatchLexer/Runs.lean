import MapHighlight.Proofs.BatchLexer.Reading
import MapHighlight.Proofs.Cursor.Coverage

/-!
# Runs and their passes

Every run comes to its end by rounds, and the passes on the way account for what it hands out: their
tokens stand side by side, cover what was lexed, and are handed out as far as the configuration
keeps them, with the error behind them if reading fails. This holds of every reader.
-/

namespace MapHighlight

/-- The tokens that a pass takes, also those that are not handed out. -/
def Pass.tokens (pass : Pass) : List Token :=
  pass.scan.steps.map Step.token

/-- The text that a pass takes off the pending text. -/
def Pass.text (pass : Pass) : Text :=
  pass.scan.steps.flatMap fun step => step.token.lexeme

namespace BatchLexer

variable {start lexer : BatchLexer} {passes : List Pass} {lines : List Text}
  {error : Option ReadError} {last : Reader}

/-- The states between the rounds of a run, whether or not a round has answered a request, each with
the passes made before it. -/
inductive Reaches (start : BatchLexer) : List Pass → BatchLexer → Prop
  | start : Reaches start [] start
  | again {passes : List Pass} {lexer next : BatchLexer} {pass : Option Pass} :
      Reaches start passes lexer → lexer.round = .again pass next →
      Reaches start (passes ++ pass.toList) next
  | answer {passes : List Pass} {lexer next : BatchLexer} {item : Option Item} :
      Reaches start passes lexer → lexer.round = .answer item next → Reaches start passes next

/-- The passes of two runs in a row are made one after another. -/
theorem Reaches.trans {more : List Pass} {next : BatchLexer} (h : start.Reaches passes lexer)
    (hmore : lexer.Reaches more next) : start.Reaches (passes ++ more) next := by
  induction hmore with
  | start => rwa [List.append_nil]
  | again _ hround ih =>
    rw [← List.append_assoc]
    exact ih.again hround
  | answer _ hround ih => exact ih.answer hround

/-- A request leads through the passes that it takes. -/
theorem Reaches.next (h : start.Reaches passes lexer) :
    start.Reaches (passes ++ lexer.next.passes) lexer.next.lexer := by
  induction lexer using BatchLexer.next.induct generalizing passes with
  | case1 lexer item next hround =>
    rw [next_of_answer hround, List.append_nil]
    exact h.answer hround
  | case2 lexer pass again hround _ ih =>
    rw [next_of_again hround, ← List.append_assoc]
    exact ih (h.again hround)

/-- Every number of requests leads to a state of the run. -/
theorem exists_reaches_after (start : BatchLexer) (n : Nat) :
    ∃ passes, start.Reaches passes (start.after n) := by
  induction n with
  | zero => exact ⟨[], .start⟩
  | succ n ih =>
    obtain ⟨passes, hreaches⟩ := ih
    rw [after_succ]
    exact ⟨_, hreaches.next⟩

/-- The tokens of a pass cover the text that it takes. -/
theorem covers_pass (hplaced : lexer.pending.IsPlaced) :
    lexer.pending.Covers lexer.pass.scan lexer.pass.text := by
  obtain ⟨text, hcovers⟩ := Cursor.exists_covers_scanUntil
    (fun token => token.isOpenQuote && !lexer.ended) hplaced
  have htext : lexer.pass.text = text := by
    rw [← hcovers.cover.flatMap_lexeme, List.flatMap_map]
    rfl
  rw [htext]
  exact hcovers

/-- A pass takes the start of the pending text and leaves the rest. -/
theorem text_append_rest_pass (lexer : BatchLexer) :
    lexer.pass.text ++ (lexer.afterPass lexer.pass).pending.rest = lexer.pending.rest :=
  Cursor.lexemes_append_rest_scanUntil _ _

/-- What passes account for, when this text is read behind what is pending: the items are the tokens
that wait and those of the passes that the configuration keeps, and then the error if there is one.
The tokens of the passes cover the text from the pending text on, up to its end unless there is an
error. -/
structure Accounts (lexer : BatchLexer) (passes : List Pass) (more : Text)
    (error : Option ReadError) (items : List Item) : Prop where
  /-- The items are the tokens kept and the error. -/
  items_eq : items = (lexer.queue ++
    lexer.config.lexer.select (passes.flatMap Pass.tokens)).map .ok ++ (error.map .error).toList
  /-- The tokens of the passes cover their text, if it is known where lines start. -/
  cover : lexer.pending.IsPlaced → Token.Cover lexer.pending.location
    (passes.flatMap Pass.tokens) (passes.flatMap Pass.text)
  /-- Only an error leaves part of the text unlexed. -/
  exists_unlexed : ∃ unlexed, passes.flatMap Pass.text ++ unlexed = lexer.pending.rest ++ more ∧
    (error = none → unlexed = [])

namespace Accounts

variable {more : Text} {items : List Item}

/-- Reading moves text from what is to come to what is pending. -/
theorem of_fed (h : lexer.fed.Accounts passes more error items) :
    lexer.Accounts passes (lexer.gather.text ++ more) error items := by
  obtain ⟨unlexed, htext, hnone⟩ := h.exists_unlexed
  refine ⟨h.items_eq, fun hplaced => h.cover ⟨hplaced.column_pos, hplaced.atLineStart_iff⟩,
    unlexed, ?_, hnone⟩
  rw [htext, ← List.append_assoc]
  rfl

/-- A pass comes before the passes over what it leaves. -/
theorem of_afterPass
    (h : (lexer.afterPass lexer.pass).Accounts passes more error items) :
    lexer.Accounts (lexer.pass :: passes) more error items := by
  obtain ⟨unlexed, htext, hnone⟩ := h.exists_unlexed
  have hqueue : (lexer.afterPass lexer.pass).queue =
      lexer.queue ++ lexer.config.lexer.select lexer.pass.tokens := rfl
  refine ⟨?_, fun hplaced => ?_, unlexed, ?_, hnone⟩
  · rw [h.items_eq, hqueue, List.flatMap_cons, LexerConfig.select_append, ← List.append_assoc]
    rfl
  · have hcovers := covers_pass hplaced
    have hlocation : (lexer.afterPass lexer.pass).pending.location =
        lexer.pending.location.advance lexer.pass.text := hcovers.location_advance
    exact hcovers.cover.append (hlocation ▸ h.cover hcovers.isPlaced)
  · rw [List.flatMap_cons, List.append_assoc, htext, ← lexer.text_append_rest_pass,
      List.append_assoc]

/-- A token that is handed out waited before. -/
theorem of_handOut {token : Token} {queue : List Token} (hqueue : lexer.queue = token :: queue)
    (h : { lexer with queue }.Accounts passes more error items) :
    lexer.Accounts passes more error (.ok token :: items) := by
  refine ⟨?_, h.cover, h.exists_unlexed⟩
  rw [h.items_eq, hqueue]
  rfl

end Accounts

/-- A whole run with the passes made in it, from a state that awaits lines and their ending. -/
structure Completes (lexer : BatchLexer) (lines : List Text) (error : Option ReadError)
    (last : Reader) (passes : List Pass) : Prop extends
    lexer.Accounts passes lines.flatten error lexer.items where
  /-- One request more than there are items leads to the end. -/
  reaches : lexer.Reaches passes (lexer.after (lexer.items.length + 1))
  /-- In the end the reader is as its ending leaves it. -/
  reader_eq : (lexer.after (lexer.items.length + 1)).reader = last
  /-- The run has failed if it awaited an error. -/
  failed_eq : (lexer.after (lexer.items.length + 1)).failed = error.isSome

namespace Completes

/-- A token that is handed out leaves the rest of the run as it is. -/
theorem of_handOut {token : Token} {queue : List Token} (hqueue : lexer.queue = token :: queue)
    (hround : lexer.round = .answer (some (.ok token)) { lexer with queue })
    (h : { lexer with queue }.Completes lines error last passes) :
    lexer.Completes lines error last passes := by
  have hitems := items_of_handOut hround
  have hafter : lexer.after (lexer.items.length + 1) =
      { lexer with queue }.after ({ lexer with queue }.items.length + 1) := by
    rw [hitems, List.length_cons, after_of_answer hround]
  refine ⟨hitems ▸ h.toAccounts.of_handOut hqueue, ?_, ?_, ?_⟩
  · rw [hafter]
    exact (Reaches.start.answer hround).trans h.reaches
  · rw [hafter, h.reader_eq]
  · rw [hafter, h.failed_eq]

/-- A round that asks for another one is followed by the rest of the run. -/
theorem of_again {next : BatchLexer} {pass : Option Pass} {rest : List Text}
    (hround : lexer.round = .again pass next) (h : next.Completes rest error last passes)
    (haccounts : lexer.Accounts (pass.toList ++ passes) lines.flatten error next.items) :
    lexer.Completes lines error last (pass.toList ++ passes) := by
  have hitems := items_of_again hround
  have hafter : lexer.after (lexer.items.length + 1) = next.after (next.items.length + 1) := by
    rw [hitems, after_of_again hround]
  refine ⟨hitems ▸ haccounts, ?_, ?_, ?_⟩
  · rw [hafter]
    exact (Reaches.start.again hround).trans h.reaches
  · rw [hafter, h.reader_eq]
  · rw [hafter, h.failed_eq]

end Completes

/-- Every run completes. -/
theorem exists_completes (hawaits : lexer.Awaits lines error last) :
    ∃ passes, lexer.Completes lines error last passes := by
  induction lexer using run_induction generalizing lines with
  | handOut lexer token queue hqueue hround ih =>
    obtain ⟨passes, hrun⟩ := ih (hawaits.handOut queue)
    exact ⟨passes, hrun.of_handOut hqueue hround⟩
  | exhausted lexer hover =>
    have hend := hover.after_eq (lexer.items.length + 1)
    rcases hover.failed_or_ended with hfailed | ⟨hended, hrest⟩
    · rw [hawaits.failed_eq] at hfailed
      contradiction
    · obtain ⟨rfl, rfl, hreader⟩ := hawaits.finished hended
      refine ⟨[], ⟨?_, fun _ => .nil _, [], ?_, fun _ => rfl⟩, ?_, ?_, ?_⟩
      · rw [hover.items_eq, hover.queue_eq]
        rfl
      · rw [hrest]
        rfl
      · rw [hend]
        exact .start
      · rw [hend, hreader]
      · rw [hend, hawaits.failed_eq]
        rfl
  | lastPass lexer hqueue hfailed hended hround ih =>
    obtain ⟨passes, hrun⟩ := ih (hawaits.afterPass _)
    exact ⟨_, .of_again hround hrun hrun.toAccounts.of_afterPass⟩
  | failure lexer found hreading herror hround =>
    obtain ⟨rfl, hreader⟩ := hawaits.of_gather_error hreading herror
    have hover : lexer.fed.fail.IsOver := isOver_fail hreading.queue_eq
    have hitems := items_of_handOut hround
    rw [hover.items_eq] at hitems
    have hend : lexer.after (lexer.items.length + 1) = lexer.fed.fail := by
      rw [after_of_answer hround, hover.after_eq]
    refine ⟨[], ⟨?_, fun _ => .nil _, _, rfl, nofun⟩, ?_, ?_, ?_⟩
    · rw [hitems, hreading.queue_eq]
      rfl
    · rw [hend]
      exact Reaches.start.answer hround
    · rw [hend]
      exact hreader
    · rw [hend]
      rfl
  | skip lexer hreading herror hheld hquote hopen hround ih =>
    obtain ⟨rest, hlines, hfed⟩ := hawaits.exists_fed_of_error_eq_none hreading herror
    obtain ⟨passes, hrun⟩ := ih hfed
    exact ⟨_, .of_again hround hrun (hlines ▸ hrun.toAccounts.of_fed)⟩
  | pass lexer hreading herror hround ih =>
    obtain ⟨rest, hlines, hfed⟩ := hawaits.exists_fed_of_error_eq_none hreading herror
    obtain ⟨passes, hrun⟩ := ih (hfed.afterPass _)
    exact ⟨_, .of_again hround hrun (hlines ▸ hrun.toAccounts.of_afterPass.of_fed)⟩

/-- A run over any reader completes with what the reader delivers. -/
theorem exists_completes_ofReader (reader : Reader) (config : BatchConfig) :
    ∃ lines error last passes, reader.Delivers 0 lines error last ∧
      (ofReader reader config).Completes lines error last passes := by
  obtain ⟨lines, error, last, hdelivers⟩ := Reader.exists_delivers 0 reader
  obtain ⟨passes, hrun⟩ := exists_completes (awaits_ofReader hdelivers config)
  exact ⟨lines, error, last, passes, hdelivers, hrun⟩

namespace Completes

/-- A run that hands out no error did not fail. -/
theorem error_eq_none (h : lexer.Completes lines error last passes)
    (hok : ∀ failure, .error failure ∉ lexer.items) : error = none := by
  cases error with
  | none => rfl
  | some failure =>
    refine absurd ?_ (hok failure)
    rw [h.items_eq]
    simp

/-- The items of a run that did not fail are the tokens of its passes, as far as they are kept. -/
theorem items_eq_map (h : lexer.Completes lines none last passes) (hqueue : lexer.queue = []) :
    lexer.items =
      (lexer.config.lexer.select (passes.flatMap Pass.tokens)).map .ok := by
  rw [h.items_eq, hqueue]
  exact List.append_nil _

/-- The passes of a run that did not fail take all of the text. -/
theorem text_eq (h : lexer.Completes lines none last passes) :
    passes.flatMap Pass.text = lexer.pending.rest ++ lines.flatten := by
  obtain ⟨unlexed, htext, hnone⟩ := h.exists_unlexed
  rw [← htext, hnone rfl, List.append_nil]

/-- After the end the reader is not asked again. -/
theorem reader_after (h : lexer.Completes lines error last passes) {n : Nat}
    (hn : lexer.items.length < n) : (lexer.after n).reader = last := by
  rw [after_eq_of_lt hn, h.reader_eq]

end Completes

end BatchLexer

end MapHighlight
