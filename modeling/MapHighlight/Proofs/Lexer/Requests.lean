import MapHighlight.Lexer
import MapHighlight.Proofs.Cursor.Steps

/-!
# Requests to a lexer

A lexer is asked for one token after another. Request by request it hands out the tokens that were
still to come, and none any more once the text has ended. Those of a source are the ones that its
configuration selects.
-/

namespace MapHighlight

/-- The tokens that a configuration hands out. -/
def LexerConfig.select (config : LexerConfig) (tokens : List Token) : List Token :=
  tokens.filter fun token => config.keeps token.category

@[simp] theorem LexerConfig.select_append (config : LexerConfig) (left right : List Token) :
    config.select (left ++ right) = config.select left ++ config.select right :=
  List.filter_append left right

/-- A token that the configuration keeps stands first among those selected from it on. -/
theorem LexerConfig.select_cons_of_keeps {config : LexerConfig} {token : Token}
    (h : config.keeps token.category = true) (tokens : List Token) :
    config.select (token :: tokens) = token :: config.select tokens :=
  List.filter_cons_of_pos h

/-- Without other wishes every token is handed out. -/
theorem LexerConfig.select_default (tokens : List Token) :
    LexerConfig.select {} tokens = tokens := by
  apply List.filter_eq_self.mpr
  intro token _
  cases token.category <;> rfl

namespace Lexer

/-- The tokens still to come are the one that is handed out next and those that come after it. -/
theorem tokens_of_next (lexer : Lexer) :
    lexer.tokens = lexer.next.token.toList ++ lexer.next.lexer.tokens := by
  fun_induction next lexer with
  | case1 lexer h => simp [tokens, steps, Cursor.steps_of_step?_eq_none h]
  | case2 lexer step cursor h _ hkeeps => simp [tokens, steps, Cursor.steps_of_step? h, hkeeps]
  | case3 lexer step cursor h _ hkeeps pull ih =>
    rw [← ih]
    simp [tokens, steps, Cursor.steps_of_step? h, hkeeps]

/-- If nothing is handed out, nothing is to come any more. -/
theorem tokens_of_next_eq_none {lexer : Lexer} (h : lexer.next.token = none) :
    lexer.tokens = [] ∧ lexer.next.lexer.tokens = [] := by
  fun_induction next lexer with
  | case1 lexer hstep => simp [tokens, steps, Cursor.steps_of_step?_eq_none hstep]
  | case2 => contradiction
  | case3 lexer step cursor hstep _ hkeeps pull ih =>
    obtain ⟨htokens, hnext⟩ := ih h
    refine ⟨?_, hnext⟩
    rw [← htokens]
    simp [tokens, steps, Cursor.steps_of_step? hstep, hkeeps]

/-- The lexer after so many requests. -/
def after : Nat → Lexer → Lexer
  | 0, lexer => lexer
  | n + 1, lexer => after n lexer.next.lexer

/-- Request by request the tokens are handed out, and after the last of them none ever is. -/
theorem token_after (lexer : Lexer) (n : Nat) :
    (lexer.after n).next.token = lexer.tokens[n]? := by
  induction n generalizing lexer with
  | zero =>
    rw [after]
    cases htoken : lexer.next.token with
    | none => rw [(tokens_of_next_eq_none htoken).1, List.getElem?_nil]
    | some token => simp [tokens_of_next lexer, htoken]
  | succ n ih =>
    rw [after, ih]
    cases htoken : lexer.next.token with
    | none =>
      obtain ⟨htokens, hnext⟩ := tokens_of_next_eq_none htoken
      rw [htokens, hnext, List.getElem?_nil, List.getElem?_nil]
    | some token => simp [tokens_of_next lexer, htoken]

/-- What the actions of a lexer yield are its tokens. -/
theorem values_actions (lexer : Lexer) : Action.values lexer.actions = lexer.tokens := by
  rw [actions, tokens]
  induction lexer.steps with
  | nil => rfl
  | cons step steps ih =>
    rw [List.flatMap_cons, Action.values_append, ih, List.map_cons, List.filter_cons]
    split <;> rfl

/-- What the actions of a lexer report are its steps. -/
theorem events_actions (lexer : Lexer) :
    Action.events lexer.actions = lexer.steps.map Step.event := by
  rw [actions]
  induction lexer.steps with
  | nil => rfl
  | cons step steps ih =>
    rw [List.flatMap_cons, Action.events_append, ih, List.map_cons]
    split <;> rfl

/-- A request reports the steps that it takes, and the actions behind it follow if it is answered
with a token. -/
theorem actions_of_next (lexer : Lexer) :
    lexer.actions = (lexer.next.steps.map Step.event).map .report ++
      match lexer.next.token with
      | none => []
      | some token => .yield token :: lexer.next.lexer.actions := by
  fun_induction next lexer with
  | case1 lexer h => simp [actions, steps, Cursor.steps_of_step?_eq_none h]
  | case2 lexer step cursor h _ hkeeps => simp [actions, steps, Cursor.steps_of_step? h, hkeeps]
  | case3 lexer step cursor h _ hkeeps pull ih =>
    rw [List.map_cons, List.map_cons, List.cons_append, ← ih]
    simp [actions, steps, Cursor.steps_of_step? h, hkeeps]

/-- The tokens that a lexer hands out are those of its source that its configuration selects. -/
theorem tokens_ofSource (source : Text) (config : LexerConfig) :
    (ofSource source config).tokens = config.select (tokenize source) := rfl

end Lexer

end MapHighlight
