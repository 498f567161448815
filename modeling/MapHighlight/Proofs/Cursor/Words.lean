import MapHighlight.Proofs.Cursor.Coverage
import MapHighlight.Proofs.Rule.Words

/-!
# Words of a source

A token that begins with a letter or an underscore is a word, unless it is the start of a header.
The vocabulary classifies it by the text that follows, which the token itself need not exhaust, and
by whether it stands at the start of a line.
-/

namespace MapHighlight

/-- A step at a letter or an underscore takes what the vocabulary says, unless it takes the start of
a header. -/
theorem Cursor.pair_of_step? {cursor next : Cursor} {step : Step} {c : Char} {rest : Text}
    (hstep : cursor.step? = some (step, next)) (hrest : cursor.rest = c :: rest)
    (hc : CharSet.nameStart.contains c = true)
    (hheader : step.token.category ≠ .headerAssignment) :
    step.token.pair = Vocabulary.classify cursor.atLineStart (c :: rest) := by
  simp only [step?, hrest] at hstep
  cases hfirst : Rule.first? (c :: rest) cursor.atLineStart with
  | none =>
    -- The rule for identifiers matches at every such character.
    rw [Rule.first?_of_nameStart hc, Option.or_eq_none_iff, List.findSome?_append,
      Option.or_eq_none_iff, List.findSome?_singleton, Rule.candidate?_identifier hc] at hfirst
    simp at hfirst
  | some found =>
    obtain ⟨rule, n⟩ := found
    rw [hfirst] at hstep
    cases hstep
    refine Rule.classify_of_first? hc hfirst fun h => hheader ?_
    rw [h]
    rfl

/-- A token that begins with an ASCII letter or an underscore and is no header is what the
vocabulary makes of the text from there on. -/
theorem tokenize_classifies_words {source rest : Text} {before after : List Token} {token : Token}
    {c : Char} (htokens : tokenize source = before ++ token :: after)
    (hrest : source = before.flatMap Token.lexeme ++ rest) (hfirst : token.lexeme.head? = some c)
    (hc : c.isAlpha = true ∨ c = '_') (hheader : token.category ≠ .headerAssignment) :
    (token.category, token.lexeme) =
      Vocabulary.classify (decide (token.location.column = 1)) rest := by
  obtain ⟨here, step, next, hplaced, hstep, rfl, hhere, -⟩ :=
    Cursor.exists_step?_of_tokens (Cursor.isPlaced_ofSource source) htokens
  have htakes := Cursor.takes_of_step? hstep
  obtain rfl : here.rest = rest := List.append_cancel_left (hhere.trans hrest)
  obtain ⟨tail, htail⟩ : ∃ tail, here.rest = c :: tail := by
    rw [← htakes.lexeme_append_rest]
    exact ⟨_, List.cons_append ▸ congrArg (· ++ next.rest) (List.eq_cons_of_mem_head? hfirst)⟩
  have hline : decide (step.token.location.column = 1) = here.atLineStart := by
    rw [htakes.location_eq, Bool.eq_iff_iff, decide_eq_true_eq, hplaced.atLineStart_iff]
  rw [hline, htail]
  exact Cursor.pair_of_step? hstep htail (by simpa [CharSet.contains] using hc) hheader

/-- A direction goes on with a letter beyond ASCII, so that its longest word is not in any list. -/
theorem tokenize_classifies_words_of_accented_letter :
    let before : List Token := [⟨.reservedKeyword, "up".toList, .start⟩,
      ⟨.whitespace, " ".toList, ⟨1, 3, 2⟩⟩]
    let token : Token := ⟨.identifier, "north".toList, ⟨1, 4, 3⟩⟩
    let last : Token := ⟨.error, "é".toList, ⟨1, 9, 8⟩⟩
    tokenize "up northé".toList = before ++ token :: [last] ∧
      (Category.identifier, "north".toList) = Vocabulary.classify false "northé".toList := by
  intro before token last
  have htokens : tokenize "up northé".toList = before ++ token :: [last] := by decide +kernel
  exact ⟨htokens, tokenize_classifies_words htokens (by decide) rfl (.inl (by decide)) (by decide)⟩

end MapHighlight
