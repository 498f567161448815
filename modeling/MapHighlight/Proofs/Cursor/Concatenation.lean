import MapHighlight.Proofs.Cursor.Coverage
import MapHighlight.Proofs.Cursor.OpenQuote

/-!
# Tokens of a concatenation

Where a source is cut behind a line feed, its tokens are those of the two parts, those of the
second part moved to where it begins. The one exception is a double quote that the first part leaves
open: the tokens before it stay, and it becomes a closed quote as soon as the second part has a
double quote.
-/

namespace MapHighlight

/-- The location with so many lines and bytes in front of it. -/
def Location.shift (lines bytes : Nat) (location : Location) : Location :=
  ⟨location.line + lines, location.column, location.offset + bytes⟩

/-- The token with so many lines and bytes in front of it. -/
def Token.shift (lines bytes : Nat) (token : Token) : Token :=
  { token with location := token.location.shift lines bytes }

/-- The step with so many lines and bytes in front of it. -/
def Step.shift (lines bytes : Nat) : Step → Step
  | matched location rule lexeme => matched (location.shift lines bytes) rule lexeme
  | unmatched location c => unmatched (location.shift lines bytes) c

/-- The cursor with so many lines and bytes in front of it. -/
def Cursor.shift (lines bytes : Nat) (cursor : Cursor) : Cursor :=
  { cursor with location := cursor.location.shift lines bytes }

section Shift

variable (lines bytes : Nat)

theorem Location.after_shift (location : Location) (c : Char) :
    (location.shift lines bytes).after c = (location.after c).shift lines bytes := by
  unfold after shift
  split
  · simp only [mk.injEq, true_and]
    omega
  · simp only [mk.injEq, true_and]
    omega

/-- Moving on and shifting can be done in either order. -/
theorem Location.advance_shift (location : Location) (text : Text) :
    (location.shift lines bytes).advance text = (location.advance text).shift lines bytes := by
  induction text generalizing location with
  | nil => rfl
  | cons c text ih =>
    rw [advance_cons, advance_cons, after_shift, ih]

theorem Step.token_shift (step : Step) :
    (step.shift lines bytes).token = step.token.shift lines bytes := by
  cases step <;> rfl

namespace Cursor

/-- A step of a shifted cursor is the shifted step. -/
theorem step?_shift (cursor : Cursor) :
    (cursor.shift lines bytes).step? =
      cursor.step?.map fun (step, next) => (step.shift lines bytes, next.shift lines bytes) := by
  obtain ⟨rest, location, atLineStart⟩ := cursor
  cases rest with
  | nil => rfl
  | cons c rest =>
    simp only [step?, shift]
    cases Rule.first? (c :: rest) atLineStart with
    | none => simp [past, Step.shift, Location.after_shift]
    | some found => simp [past, Step.shift, Location.advance_shift]

/-- The tokens of a shifted cursor are the shifted tokens. -/
theorem tokens_shift (cursor : Cursor) :
    (cursor.shift lines bytes).steps.map Step.token =
      (cursor.steps.map Step.token).map (Token.shift lines bytes) := by
  have hshift (cursor : Cursor) := step?_shift lines bytes cursor
  induction cursor using steps_induction with
  | finished cursor h =>
    have hshifted := hshift cursor
    rw [h] at hshifted
    rw [steps_of_step?_eq_none h, steps_of_step?_eq_none hshifted]
    rfl
  | stepped cursor step next h ih =>
    have hshifted := hshift cursor
    rw [h] at hshifted
    rw [steps_of_step? h, steps_of_step? hshifted]
    simp only [List.map_cons, ih, Step.token_shift]

end Cursor

end Shift

namespace Cursor

/-- The cursor behind whole lines at the start of a source. -/
theorem eq_shift_ofSource {cursor : Cursor} {lines : Text} (hlines : lines.IsWholeLines)
    (hplaced : cursor.IsPlaced) (hlocation : cursor.location = Location.start.advance lines) :
    cursor = (ofSource cursor.rest).shift (lines.count '\n') lines.byteLength := by
  have hcolumn : cursor.location.column = 1 := by
    rw [hlocation, Location.column_advance_eq_one_iff Nat.one_pos]
    rcases hlines with rfl | hlast
    · exact .inr ⟨rfl, rfl⟩
    · exact .inl hlast
  have hstart := hplaced.atLineStart_iff.mpr hcolumn
  have hline := Location.line_advance .start lines
  have hoffset := Location.offset_advance .start lines
  rw [← hlocation] at hline hoffset
  obtain ⟨rest, ⟨line, column, offset⟩, atLineStart⟩ := cursor
  simp_all [shift, ofSource, Location.shift, Location.start]

/-- Where no token is an open quote, text added behind whole lines is lexed by itself. -/
theorem tokens_extend_of_closed {lines : Text} (hlines : lines.IsWholeLines) (more : Text)
    (hclosed : ∀ token ∈ tokenize lines, token.isOpenQuote = false) :
    tokenize (lines ++ more) = tokenize lines ++
      (tokenize more).map (Token.shift (lines.count '\n') lines.byteLength) := by
  let scan := (ofSource lines).scanUntil Token.isOpenQuote
  obtain ⟨text, hcovers⟩ :=
    exists_covers_scanUntil Token.isOpenQuote (isPlaced_ofSource lines)
  have htokens : scan.steps.map Step.token = tokenize lines := by
    rw [tokens_scanUntil]
    apply List.takeWhile_eq_self_iff.mpr
    intro token htoken
    simp [hclosed token htoken]
  have hrest : scan.cursor.rest = [] := by
    apply rest_of_left_eq_none
    apply Option.eq_none_iff_forall_ne_some.mpr
    intro step hleft
    obtain ⟨hopen, next, hstep⟩ := step?_of_left_eq_some _ hleft
    have hmem : step.token ∈ tokenize lines := by
      rw [tokenize, steps_scanUntil Token.isOpenQuote, steps_of_step? hstep]
      simp
    rw [hclosed step.token hmem] at hopen
    contradiction
  have htext : text = lines := by
    have happend := hcovers.append_rest
    rwa [hrest, List.append_nil] at happend
  have hplaced : (scan.cursor.extend more).IsPlaced :=
    ⟨hcovers.isPlaced.column_pos, hcovers.isPlaced.atLineStart_iff⟩
  have hcursor : scan.cursor.extend more =
      (ofSource more).shift (lines.count '\n') lines.byteLength := by
    have hshift := eq_shift_ofSource hlines hplaced (htext ▸ hcovers.location_advance)
    rw [hshift]
    simp [extend, hrest]
  have hsteps := steps_extend (ofSource lines) fun _ : more ≠ [] => hlines
  change (ofSource (lines ++ more)).steps = scan.steps ++ (scan.cursor.extend more).steps at hsteps
  rw [tokenize, hsteps, List.map_append, htokens, hcursor, tokens_shift]
  rfl

/-- The scan up to open quotes takes the tokens before the first of them and stops there. -/
theorem scanUntil_of_tokens {cursor : Cursor} {leave : Token → Bool} {before after : List Token}
    {token : Token} (htokens : cursor.steps.map Step.token = before ++ token :: after)
    (hbefore : ∀ earlier ∈ before, leave earlier = false) (hleave : leave token = true) :
    (cursor.scanUntil leave).steps.map Step.token = before ∧
      ∃ step next, (cursor.scanUntil leave).cursor.step? = some (step, next) ∧
        step.token = token := by
  have hscan : (cursor.scanUntil leave).steps.map Step.token = before := by
    have hall : ∀ earlier ∈ before, (!leave earlier) = true := by
      intro earlier hearlier
      simp [hbefore earlier hearlier]
    rw [tokens_scanUntil, htokens, List.takeWhile_append_of_pos hall]
    simp [hleave]
  refine ⟨hscan, ?_⟩
  have hrest : (cursor.scanUntil leave).cursor.steps.map Step.token = token :: after := by
    rw [steps_scanUntil leave, List.map_append, hscan] at htokens
    exact List.append_cancel_left htokens
  cases hstep : (cursor.scanUntil leave).cursor.step? with
  | none => simp [steps_of_step?_eq_none hstep] at hrest
  | some found =>
    obtain ⟨step, next⟩ := found
    rw [steps_of_step? hstep, List.map_cons, List.cons.injEq] at hrest
    exact ⟨step, next, rfl, hrest.1⟩

/-- Where the tokens of whole lines lead up to an open quote, they stay whatever text is added, and
the quote is closed by the first double quote of that text. -/
theorem tokens_extend_of_open {lines : Text} (hlines : lines.IsWholeLines) (more : Text)
    {before after : List Token} {quote : Token}
    (htokens : tokenize lines = before ++ quote :: after)
    (hbefore : ∀ token ∈ before, token.isOpenQuote = false) (hquote : quote.isOpenQuote = true) :
    before <+: tokenize (lines ++ more) ∧
    ('"' ∈ more → ∃ closed later,
      tokenize (lines ++ more) = before ++ closed :: later ∧
      closed.category = .stringLiteral ∧ closed.location = quote.location ∧
      before.flatMap Token.lexeme ++ closed.lexeme =
        lines ++ more.takeWhile (· != '"') ++ ['"']) := by
  let scan := (ofSource lines).scanUntil Token.isOpenQuote
  obtain ⟨hscan, step, next, hstep, rfl⟩ := scanUntil_of_tokens htokens hbefore hquote
  have hsteps := steps_extend (ofSource lines) fun _ : more ≠ [] => hlines
  have happend : tokenize (lines ++ more) =
      before ++ (scan.cursor.extend more).steps.map Step.token := by
    rw [← hscan, ← List.map_append, ← hsteps]
    rfl
  constructor
  · exact ⟨_, happend.symm⟩
  · intro hmore
    obtain ⟨rest, hrest, hmem⟩ := (isOpenQuote_iff hstep).mp hquote
    obtain ⟨inner, later, rfl, hinner⟩ := List.eq_append_cons_of_mem hmore
    have hextend : (scan.cursor.extend (inner ++ '"' :: later)).rest =
        '"' :: (rest ++ inner) ++ '"' :: later := by
      simp [extend, scan, hrest]
    have hunquoted : '"' ∉ rest ++ inner := by simp [hmem, hinner]
    have hclosed := step?_quote_of_closed hextend hunquoted
    obtain ⟨text, hcovers⟩ :=
      exists_covers_scanUntil Token.isOpenQuote (isPlaced_ofSource lines)
    have hlexemes : before.flatMap Token.lexeme = text := by
      rw [← hscan, hcovers.cover.flatMap_lexeme]
    have hlines : text ++ '"' :: rest = lines := by
      rw [← hrest, hcovers.append_rest]
      rfl
    rw [happend, steps_of_step? hclosed]
    refine ⟨_, _, rfl, rfl, (takes_of_step? hstep).location_eq.symm, ?_⟩
    rw [hlexemes, takeWhile_append_delimiter hinner, ← hlines]
    simp [Step.token]

end Cursor

/-- A source cut behind a line feed has the tokens of its two parts, unless the first part leaves
a double quote open. The tokens before that one stay, and it becomes a closed quote that ends at
the first double quote of the second part, if there is one. -/
theorem tokenize_append {lines : Text} (hlines : lines.IsWholeLines) (more : Text) :
    ((∀ token ∈ tokenize lines, token.isOpenQuote = false) →
      tokenize (lines ++ more) = tokenize lines ++
        (tokenize more).map (Token.shift (lines.count '\n') lines.byteLength)) ∧
    ∀ before quote after, tokenize lines = before ++ quote :: after →
      (∀ token ∈ before, token.isOpenQuote = false) → quote.isOpenQuote = true →
      before <+: tokenize (lines ++ more) ∧
      ('"' ∈ more → ∃ closed later,
        tokenize (lines ++ more) = before ++ closed :: later ∧
        closed.category = .stringLiteral ∧ closed.location = quote.location ∧
        before.flatMap Token.lexeme ++ closed.lexeme =
          lines ++ more.takeWhile (· != '"') ++ ['"']) := by
  constructor
  · exact Cursor.tokens_extend_of_closed hlines more
  · intro before quote after htokens hbefore hquote
    exact Cursor.tokens_extend_of_open hlines more htokens hbefore hquote

/-- A quote that is open at the end of a line is closed on the next one. -/
theorem tokenize_append_of_quote_across_lines :
    Text.IsWholeLines "\"\n".toList ∧
    ∃ closed later, tokenize ("\"\n".toList ++ "a\" b".toList) = closed :: later ∧
      closed.category = .stringLiteral ∧ closed.location = .start ∧
      closed.lexeme = "\"\na\"".toList := by
  have hlines : Text.IsWholeLines "\"\n".toList := by decide
  have htokens : tokenize "\"\n".toList =
      [] ++ ⟨.error, ['"'], .start⟩ :: [⟨.whitespace, ['\n'], ⟨1, 2, 1⟩⟩] := by decide +kernel
  have hopen := (tokenize_append hlines "a\" b".toList).2 _ _ _ htokens (by simp) (by decide)
  obtain ⟨closed, later, hclosed, hcategory, hlocation, hlexeme⟩ := hopen.2 (by decide)
  refine ⟨hlines, closed, later, hclosed, hcategory, hlocation, ?_⟩
  rw [List.flatMap_nil, List.nil_append] at hlexeme
  rw [hlexeme]
  decide

end MapHighlight
