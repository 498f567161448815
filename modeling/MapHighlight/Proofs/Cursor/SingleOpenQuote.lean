import MapHighlight.Proofs.Cursor.Labels
import MapHighlight.Proofs.Cursor.OpenQuote
import MapHighlight.Proofs.Rule.Extents

/-!
# At most one quote stays open

Quotes also stand within comments and headers, so counting them says nothing about which are closed.
What decides is the text from a token on: a token that begins with a double quote is a closed quote
exactly if another double quote follows. Behind an open quote there is therefore no double quote at
all, and no other token can be one.
-/

namespace MapHighlight

/-- A closed quote is a text without double quotes between two of them. -/
theorem Rule.reads_string_iff {text : Text} :
    string.pattern.Reads text ↔ ∃ inner, text = '"' :: inner ++ ['"'] ∧ '"' ∉ inner := by
  have hunquoted (inner : Text) :
      (∀ c ∈ inner, CharSet.unquoted.contains c = true) ↔ '"' ∉ inner := by
    simp only [CharSet.contains, bne_iff_ne]
    exact ⟨fun hall hmem => hall _ hmem rfl, fun hmem c hc heq => hmem (heq ▸ hc)⟩
  constructor
  · rintro ⟨_, _, rfl, rfl, inner, _, rfl, hinner, rfl⟩
    exact ⟨inner, rfl, (hunquoted inner).mp hinner⟩
  · rintro ⟨inner, rfl, hinner⟩
    exact ⟨['"'], _, rfl, rfl, inner, ['"'], rfl, (hunquoted inner).mpr hinner, rfl⟩

namespace Cursor

variable {cursor : Cursor}

/-- Where no double quote is left, no token is an open quote. -/
theorem countP_isOpenQuote_eq_zero (hmem : '"' ∉ cursor.rest) :
    (cursor.steps.map Step.token).countP Token.isOpenQuote = 0 := by
  induction cursor using steps_induction with
  | finished cursor h => simp [steps_of_step?_eq_none h]
  | stepped cursor step next h ih =>
    have hrest := (takes_of_step? h).lexeme_append_rest
    have hopen : ¬ step.token.isOpenQuote = true := by
      rw [isOpenQuote_iff h]
      rintro ⟨rest, hquote, -⟩
      exact hmem (hquote ▸ List.mem_cons_self)
    have hnext : '"' ∉ next.rest := fun h => hmem (hrest ▸ List.mem_append_right _ h)
    rw [steps_of_step? h, List.map_cons, List.countP_cons_of_neg hopen, ih hnext]

/-- Of the tokens that a cursor takes, at most one is an open quote. -/
theorem countP_isOpenQuote_le_one (cursor : Cursor) :
    (cursor.steps.map Step.token).countP Token.isOpenQuote ≤ 1 := by
  induction cursor using steps_induction with
  | finished cursor h => simp [steps_of_step?_eq_none h]
  | stepped cursor step next h ih =>
    rw [steps_of_step? h, List.map_cons]
    by_cases hopen : step.token.isOpenQuote = true
    · -- The lexeme holds the only double quote that is left.
      obtain ⟨rest, hrest, hmem⟩ := (isOpenQuote_iff h).mp hopen
      obtain ⟨c, lexeme, hlexeme⟩ := List.exists_cons_of_ne_nil (takes_of_step? h).lexeme_ne_nil
      have happend := (takes_of_step? h).lexeme_append_rest
      rw [hlexeme, hrest, List.cons_append, List.cons.injEq] at happend
      have hnext : '"' ∉ next.rest := fun h => hmem (happend.2 ▸ List.mem_append_right _ h)
      rw [List.countP_cons_of_pos hopen, countP_isOpenQuote_eq_zero hnext]
    · rw [List.countP_cons_of_neg hopen]
      exact ih

end Cursor

/-- At most one token of a source is an open quote, that is, begins with a double quote and is no
closed quote, and no other double quote follows in the source. A closed quote begins and ends with a
double quote and holds no other one. -/
theorem tokenize_openQuote (source : Text) :
    (tokenize source).countP Token.isOpenQuote ≤ 1 ∧
    (∀ before token after, tokenize source = before ++ token :: after → token.isOpenQuote = true →
      ∃ rest, source = before.flatMap Token.lexeme ++ '"' :: rest ∧ '"' ∉ rest) ∧
    ∀ token ∈ tokenize source, token.category = .stringLiteral →
      ∃ inner, token.lexeme = '"' :: inner ++ ['"'] ∧ '"' ∉ inner := by
  refine ⟨Cursor.countP_isOpenQuote_le_one _, ?_, ?_⟩
  · intro before token after htokens hopen
    obtain ⟨here, step, next, -, hstep, rfl, hhere, -⟩ :=
      Cursor.exists_step?_of_tokens (Cursor.isPlaced_ofSource source) htokens
    obtain ⟨rest, hrest, hmem⟩ := (Cursor.isOpenQuote_iff hstep).mp hopen
    exact ⟨rest, (hrest ▸ hhere).symm, hmem⟩
  · intro token htoken hcategory
    obtain ⟨before, after, htokens⟩ := List.append_of_mem htoken
    have hlabel := pair_of_tokens htokens (source_eq_of_tokens htokens)
    have hstring : token.pair = (Rule.string.category, token.lexeme) :=
      congrArg (·, token.lexeme) hcategory
    exact Rule.reads_string_iff.mp
      (Rule.reads_of_first? (Rule.first?_of_label (hlabel.symm.trans hstring) (by decide)))

/-- The open quote may be a header, while a quote within a comment is no token by itself. -/
theorem tokenize_openQuote_of_header :
    let before : List Token := [⟨.stringLiteral, "\"a\"".toList, .start⟩,
      ⟨.comment, "#\"".toList, ⟨1, 4, 3⟩⟩, ⟨.whitespace, "\n".toList, ⟨1, 6, 5⟩⟩]
    let header : Token := ⟨.headerAssignment, "\"b=".toList, ⟨2, 1, 6⟩⟩
    let last : Token := ⟨.identifier, "c".toList, ⟨2, 4, 9⟩⟩
    tokenize "\"a\"#\"\n\"b=c".toList = before ++ header :: [last] ∧ header.isOpenQuote = true ∧
      (∃ rest, "\"a\"#\"\n\"b=c".toList = before.flatMap Token.lexeme ++ '"' :: rest ∧
        '"' ∉ rest) ∧
      ∃ inner, "\"a\"".toList = '"' :: inner ++ ['"'] ∧ '"' ∉ inner := by
  intro before header last
  have htokens : tokenize "\"a\"#\"\n\"b=c".toList = before ++ header :: [last] := by
    decide +kernel
  obtain ⟨-, hopen, hclosed⟩ := tokenize_openQuote "\"a\"#\"\n\"b=c".toList
  refine ⟨htokens, rfl, hopen before header [last] htokens rfl, ?_⟩
  exact hclosed ⟨.stringLiteral, "\"a\"".toList, .start⟩ (htokens ▸ List.mem_cons_self) rfl

end MapHighlight
