import MapHighlight.Proofs.Cursor.Coverage
import MapHighlight.Proofs.Rule.Selection

/-!
# The label of a token

What a token is and how far it goes depends on the text from its first character on and on whether
it stands at the start of a line, and on nothing else. So a fact about the rule that is selected for
a text is a fact about every token of every source that the text follows.
-/

namespace MapHighlight

namespace Rule

variable {text lexeme : Text} {atLineStart : Bool}

/-- The category and the lexeme of the token that a text begins with. A character that no rule
recognises is an error by itself. -/
def label (atLineStart : Bool) (text : Text) : Category × Text :=
  match first? text atLineStart with
  | some (rule, n) => (rule.category, text.take n)
  | none => (.error, text.take 1)

/-- No rule makes errors. -/
theorem category_ne_error (rule : Rule) : rule.category ≠ .error := by
  cases rule <;> decide

/-- Only what no rule recognises is an error. -/
theorem label_eq_error_iff :
    (label atLineStart text).1 = .error ↔ first? text atLineStart = none := by
  unfold label
  split
  · rename_i rule n hfirst
    simp [category_ne_error, hfirst]
  · rename_i hfirst
    simp [hfirst]

/-- What is no error is taken by a rule of its category. -/
theorem exists_first?_of_label {category : Category}
    (h : label atLineStart text = (category, lexeme)) (herror : category ≠ .error) :
    ∃ rule : Rule, rule.category = category ∧
      first? text atLineStart = some (rule, lexeme.length) := by
  unfold label at h
  split at h
  · rename_i rule n hfirst
    cases h
    have hle := Pattern.le_length_of_matchLength (matchLength_of_first? hfirst).1
    exact ⟨rule, rfl, by rw [hfirst, List.length_take_of_le hle]⟩
  · cases h
    contradiction

/-- But for white space, the category says which rule it is. -/
theorem first?_of_label {rule : Rule} (h : label atLineStart text = (rule.category, lexeme))
    (hrule : rule.category ≠ .whitespace) :
    first? text atLineStart = some (rule, lexeme.length) := by
  obtain ⟨other, hcategory, hfirst⟩ := exists_first?_of_label h (category_ne_error rule)
  rwa [eq_of_category_eq hcategory hrule] at hfirst

end Rule

/-- A step labels the text of the cursor. -/
theorem Cursor.label_of_step? {cursor next : Cursor} {step : Step}
    (hstep : cursor.step? = some (step, next)) :
    step.token.pair = Rule.label cursor.atLineStart cursor.rest := by
  unfold step? at hstep
  split at hstep
  · contradiction
  · rename_i c rest hrest
    rw [hrest, Rule.label]
    cases hfirst : Rule.first? (c :: rest) cursor.atLineStart with
    | none =>
      rw [hfirst] at hstep
      cases hstep
      rfl
    | some found =>
      rw [hfirst] at hstep
      cases hstep
      rfl

section Tokens

variable {source rest : Text} {before after : List Token} {token : Token}

/-- The lexemes of the tokens make up the source. -/
theorem source_eq_of_tokens (htokens : tokenize source = before ++ after) :
    source = before.flatMap Token.lexeme ++ after.flatMap Token.lexeme := by
  have hcover : (tokenize source).flatMap Token.lexeme = source :=
    (Cursor.cover_steps (Cursor.isPlaced_ofSource source)).flatMap_lexeme
  rw [← List.flatMap_append, ← htokens, hcover]

/-- Every token is labelled by the text from its first character on. -/
theorem pair_of_tokens (htokens : tokenize source = before ++ token :: after)
    (hrest : source = before.flatMap Token.lexeme ++ rest) :
    token.pair = Rule.label (decide (token.location.column = 1)) rest := by
  obtain ⟨here, step, next, hplaced, hstep, rfl, hhere, -⟩ :=
    Cursor.exists_step?_of_tokens (Cursor.isPlaced_ofSource source) htokens
  obtain rfl : here.rest = rest := List.append_cancel_left (hhere.trans hrest)
  have hline : decide (step.token.location.column = 1) = here.atLineStart := by
    rw [(Cursor.takes_of_step? hstep).location_eq, Bool.eq_iff_iff, decide_eq_true_eq,
      hplaced.atLineStart_iff]
  rw [hline]
  exact Cursor.label_of_step? hstep

end Tokens

end MapHighlight
