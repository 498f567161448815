import MapHighlight.Proofs.Cursor.Coverage
import MapHighlight.Proofs.Lexer.Requests
import MapHighlight.Proofs.Text.Utf8
import Mathlib.Data.List.DropRight

/-!
# Where tokens stand

The place that a text leads to can be read off the text: the line from its line feeds, the column
from what follows the last of them, and the offset from its bytes. The tokens of a source cover it
without gaps, so the place of each is known from the text of the tokens before it.
-/

namespace MapHighlight

/-- The column behind a text counts the characters that follow its last line feed. -/
theorem Location.column_advance_start (text : Text) :
    (start.advance text).column = 1 + (text.rtakeWhile (· != '\n')).length := by
  induction text using List.reverseRecOn with
  | nil => rfl
  | append_singleton text c ih =>
    rw [advance_append, advance_cons, advance_nil, after]
    by_cases hc : c = '\n'
    · rw [if_pos hc, List.rtakeWhile_concat_neg _ _ _ (by simp [hc])]
      rfl
    · rw [if_neg hc, List.rtakeWhile_concat_pos _ _ _ (by simp [hc]), List.length_append, ih]
      rfl

/-- The place behind a text, from the start of a source. -/
theorem Location.advance_start (text : Text) :
    start.advance text = ⟨1 + text.count '\n', 1 + (text.rtakeWhile (· != '\n')).length,
      (Utf8.encode text).length⟩ := by
  rw [Utf8.length_encode, ← column_advance_start]
  have hline := line_advance start text
  have hoffset := offset_advance start text
  rw [show start.offset = 0 from rfl, Nat.zero_add] at hoffset
  rw [← hoffset]
  exact congrArg (Location.mk · _ _) hline

/-- In a cover each token ends where the next one stands. -/
theorem Token.Cover.finish_eq_location {location : Location} {before after : List Token}
    {token next : Token} {text : Text}
    (h : Cover location (before ++ token :: next :: after) text) :
    token.finish = next.location := by
  have hnext : Cover location ((before ++ [token]) ++ next :: after) text := by
    rwa [List.append_assoc]
  rw [h.finish_eq, hnext.location_eq]

/-- A source has finitely many tokens, which are handed out one by one, none of them empty. Together
they are the source, each stands at the place that the text before it leads to, and it ends where
the next one stands. -/
theorem tokenize_covers_source (source : Text) :
    (∀ n, ((Lexer.ofSource source {}).after n).next.token = (tokenize source)[n]?) ∧
    (tokenize source).length ≤ source.length ∧
    (∀ token ∈ tokenize source, token.lexeme ≠ []) ∧
    (tokenize source).flatMap Token.lexeme = source ∧
    ∀ before token after, tokenize source = before ++ token :: after →
      let earlier := before.flatMap Token.lexeme
      token.location = ⟨1 + earlier.count '\n', 1 + (earlier.rtakeWhile (· != '\n')).length,
        (Utf8.encode earlier).length⟩ ∧
      ∀ next ∈ after.head?, token.finish = next.location := by
  have hcover : Token.Cover .start (tokenize source) source :=
    Cursor.cover_steps (Cursor.isPlaced_ofSource source)
  refine ⟨fun n => ?_, hcover.length_le, hcover.lexeme_ne_nil, hcover.flatMap_lexeme, ?_⟩
  · rw [Lexer.token_after, Lexer.tokens_ofSource, LexerConfig.select_default]
  · intro before token after htokens
    rw [htokens] at hcover
    constructor
    · rw [hcover.location_eq, Location.advance_start]
    · intro next hnext
      cases after with
      | nil => simp at hnext
      | cons first after =>
        obtain rfl : first = next := by simpa using hnext
        exact hcover.finish_eq_location

/-- A character of two bytes, a quote across lines and a continued line before a token. -/
theorem tokenize_covers_source_of_quote_across_lines :
    let before : List Token := [⟨.error, "é".toList, .start⟩,
      ⟨.stringLiteral, "\"\nü\"".toList, ⟨1, 2, 2⟩⟩]
    let token : Token := ⟨.whitespace, "\\\n".toList, ⟨2, 3, 7⟩⟩
    let last : Token := ⟨.identifier, "c".toList, ⟨3, 1, 9⟩⟩
    tokenize "é\"\nü\"\\\nc".toList = before ++ token :: [last] ∧
      token.location.column = 1 + "ü\"".length ∧
      token.location.offset = (Utf8.encode "é\"\nü\"".toList).length ∧
      token.finish = last.location := by
  intro before token last
  have htokens : tokenize "é\"\nü\"\\\nc".toList = before ++ token :: [last] := by decide +kernel
  obtain ⟨-, -, -, -, hplaces⟩ := tokenize_covers_source "é\"\nü\"\\\nc".toList
  obtain ⟨hlocation, hfinish⟩ := hplaces before token [last] htokens
  have hearlier : before.flatMap Token.lexeme = "é\"\nü\"".toList := by decide
  rw [hearlier] at hlocation
  refine ⟨htokens, ?_, ?_, hfinish last rfl⟩
  · rw [hlocation]
    decide
  · rw [hlocation]

end MapHighlight
