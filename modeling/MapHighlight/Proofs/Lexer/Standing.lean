import MapHighlight.Proofs.Lexer.Requests

/-!
# Where a lexer stands

A request takes tokens off the text that remains until one of them is to be handed out, so a lexer
always stands right behind the text of all tokens taken so far, those left out included. The tokens
that it has handed out and those that it will hand out are together the tokens of its source that
its configuration selects.
-/

namespace MapHighlight.Lexer

/-- A lexer and the same lexer later on, with the text that was taken in between. -/
structure Takes (lexer : Lexer) (text : Text) (later : Lexer) : Prop where
  /-- The text taken is the start of the text that remained. -/
  append_remaining : text ++ later.remaining = lexer.remaining
  /-- The lexer moves to the end of the text taken. -/
  location_advance : later.location = lexer.location.advance text
  /-- The cursor still knows from the column whether it is at the start of a line. -/
  isPlaced : lexer.cursor.IsPlaced → later.cursor.IsPlaced

variable {lexer : Lexer}

theorem Takes.refl (lexer : Lexer) : lexer.Takes [] lexer :=
  ⟨rfl, rfl, id⟩

theorem Takes.trans {between last : Lexer} {first others : Text}
    (hfirst : lexer.Takes first between) (hothers : between.Takes others last) :
    lexer.Takes (first ++ others) last := by
  refine ⟨?_, ?_, hothers.isPlaced ∘ hfirst.isPlaced⟩
  · rw [List.append_assoc, hothers.append_remaining, hfirst.append_remaining]
  · rw [hothers.location_advance, hfirst.location_advance, Location.advance_append]

/-- A step of the cursor takes its lexeme, whether the token is kept or not. -/
theorem takes_of_step? {step : Step} {cursor : Cursor}
    (h : lexer.cursor.step? = some (step, cursor)) :
    lexer.Takes step.token.lexeme { lexer with cursor } :=
  have htakes := Cursor.takes_of_step? h
  ⟨htakes.lexeme_append_rest, htakes.location_advance, htakes.isPlaced⟩

/-- A request takes the lexemes of the tokens that it leaves out and of the one that it hands out. -/
theorem exists_takes_next (lexer : Lexer) : ∃ text, lexer.Takes text lexer.next.lexer := by
  fun_induction next lexer with
  | case1 lexer hstep => exact ⟨[], .refl lexer⟩
  | case2 lexer step cursor hstep _ hkeeps => exact ⟨_, takes_of_step? hstep⟩
  | case3 lexer step cursor hstep _ hkeeps pull ih =>
    obtain ⟨others, hothers⟩ := ih
    exact ⟨_, (takes_of_step? hstep).trans hothers⟩

/-- So many requests take some text as well. -/
theorem exists_takes_after (lexer : Lexer) (n : Nat) : ∃ text, lexer.Takes text (lexer.after n) := by
  induction n generalizing lexer with
  | zero => exact ⟨[], .refl lexer⟩
  | succ n ih =>
    obtain ⟨first, hfirst⟩ := exists_takes_next lexer
    obtain ⟨others, hothers⟩ := ih lexer.next.lexer
    exact ⟨_, hfirst.trans hothers⟩

/-- A token is handed out as soon as it is taken, so the lexer stands at its end. -/
theorem location_of_next {token : Token} (h : lexer.next.token = some token) :
    lexer.next.lexer.location = token.finish := by
  fun_induction next lexer with
  | case1 => contradiction
  | case2 lexer step cursor hstep _ hkeeps =>
    cases h
    exact (Cursor.takes_of_step? hstep).location_next
  | case3 lexer step cursor hstep _ hkeeps pull ih => exact ih h

/-- A request that hands out nothing has taken all the text, what is left out at its end included. -/
theorem remaining_of_next (h : lexer.next.token = none) : lexer.next.lexer.remaining = [] := by
  fun_induction next lexer with
  | case1 lexer hstep => exact Cursor.step?_eq_none_iff.mp hstep
  | case2 => contradiction
  | case3 lexer step cursor hstep _ hkeeps pull ih => exact ih h

/-- One more request can be made last as well as first. -/
theorem after_succ (lexer : Lexer) (n : Nat) :
    lexer.after (n + 1) = (lexer.after n).next.lexer := by
  induction n generalizing lexer with
  | zero => rfl
  | succ n ih => exact ih lexer.next.lexer

/-- The tokens that so many requests hand out. -/
def handedOut : Nat → Lexer → List Token
  | 0, _ => []
  | n + 1, lexer => lexer.next.token.toList ++ handedOut n lexer.next.lexer

/-- The tokens handed out and those still to come are the tokens that were to come at first. -/
theorem handedOut_append_tokens (n : Nat) (lexer : Lexer) :
    lexer.handedOut n ++ (lexer.after n).tokens = lexer.tokens := by
  induction n generalizing lexer with
  | zero => rfl
  | succ n ih => rw [handedOut, after, List.append_assoc, ih, ← tokens_of_next]

/-- After any number of requests, those that were answered with nothing included: the text taken and
the text that remains are the source, and the lexer stands behind the text taken, at the start of a
line exactly in the first column. The next request moves it to the end of the token handed out, or
to the end of the source if there is none. The tokens handed out so far and those that further
requests will hand out are the tokens of the source that the configuration selects, at their
places. -/
theorem state_after (source : Text) (config : LexerConfig) (n : Nat) :
    let start := ofSource source config
    (∃ taken, taken ++ (start.after n).remaining = source ∧
      (start.after n).location = Location.start.advance taken) ∧
    ((start.after n).cursor.atLineStart = true ↔ (start.after n).location.column = 1) ∧
    (∀ token ∈ (start.after n).next.token, (start.after (n + 1)).location = token.finish) ∧
    ((start.after n).next.token = none → (start.after (n + 1)).remaining = []) ∧
    ∃ coming, (∀ m, ((start.after n).after m).next.token = coming[m]?) ∧
      start.handedOut n ++ coming = config.select (tokenize source) := by
  intro start
  obtain ⟨taken, htakes⟩ := exists_takes_after start n
  have hplaced := htakes.isPlaced (Cursor.isPlaced_ofSource source)
  refine ⟨⟨taken, htakes.append_remaining, htakes.location_advance⟩, hplaced.atLineStart_iff,
    fun token htoken => ?_, fun hnone => ?_, (start.after n).tokens, token_after _, ?_⟩
  · rw [after_succ]
    exact location_of_next htoken
  · rw [after_succ]
    exact remaining_of_next hnone
  · rw [handedOut_append_tokens]
    exact tokens_ofSource source config

/-- The second request finds nothing to hand out, and takes the blank, the comment and the line feed
that are left out. -/
theorem state_after_of_trailing_trivia :
    let start := ofSource "é #b\n".toList ⟨false, false⟩
    (start.after 1).next.token = none ∧ (start.after 2).remaining = [] ∧
      ∃ taken, taken ++ (start.after 1).remaining = "é #b\n".toList ∧
        (start.after 1).location = Location.start.advance taken := by
  intro start
  have hnone : (start.after 1).next.token = none := by decide +kernel
  obtain ⟨htaken, -, -, hremaining, -⟩ := state_after "é #b\n".toList ⟨false, false⟩ 1
  exact ⟨hnone, hremaining hnone, htaken⟩

end MapHighlight.Lexer
