import MapHighlight.Proofs.Cursor.Steps

/-!
# Open quotes and text to come

A step before a line feed is the same whatever text is added behind that line feed, unless it is a
step to a double quote that nothing closes. A cursor with whole lines ahead can therefore be
stepped up to the first open quote before the text behind those lines is known.
-/

namespace MapHighlight

/-- The tokens before the first open quote. -/
def Token.beforeOpenQuote (tokens : List Token) : List Token :=
  tokens.takeWhile fun token => !token.isOpenQuote

namespace Cursor

/-- The cursor with more text behind the text that follows it. -/
def extend (more : Text) (cursor : Cursor) : Cursor :=
  { cursor with rest := cursor.rest ++ more }

@[simp] theorem extend_nil (cursor : Cursor) : cursor.extend [] = cursor := by
  simp [extend]

@[simp] theorem extend_extend (cursor : Cursor) (more further : Text) :
    (cursor.extend more).extend further = cursor.extend (more ++ further) := by
  simp [extend]

variable {cursor next : Cursor} {step : Step}

/-- At a double quote that another one follows, the step takes the text up to that other one. -/
theorem step?_quote_of_closed {before after : Text}
    (hrest : cursor.rest = '"' :: before ++ '"' :: after) (hbefore : '"' ∉ before) :
    cursor.step? = some (.matched cursor.location .string ('"' :: before ++ ['"']),
      cursor.past ('"' :: before ++ ['"']) after) := by
  have hmem : '"' ∈ before ++ '"' :: after := by simp
  have hfirst := Rule.first?_quote_of_mem hmem cursor.atLineStart
  rw [takeWhile_append_delimiter hbefore] at hfirst
  have hlength : ('"' :: before ++ ['"']).length = before.length + 2 := by simp
  have hsplit : '"' :: (before ++ '"' :: after) = ('"' :: before ++ ['"']) ++ after := by simp
  unfold step?
  rw [hrest]
  simp only [List.cons_append, hfirst]
  rw [hsplit, List.take_left' hlength, List.drop_left' hlength]
  rfl

/-- At a double quote that no other one follows, the step takes no closed quote. -/
theorem category_ne_of_unclosed {rest : Text} (hrest : cursor.rest = '"' :: rest)
    (hmem : '"' ∉ rest) (h : cursor.step? = some (step, next)) :
    step.token.category ≠ .stringLiteral := by
  unfold step? at h
  rw [hrest] at h
  simp only at h
  split at h
  · rename_i rule length hfirst
    cases h
    have hrule := Rule.ne_string_of_first?_quote hmem hfirst
    simp only [Step.token]
    cases rule <;> simp_all [Rule.category]
  · cases h
    simp [Step.token]

/-- The step to a token starts where the token does. -/
theorem head?_lexeme (h : cursor.step? = some (step, next)) :
    step.token.lexeme.head? = cursor.rest.head? := by
  have htakes := takes_of_step? h
  rw [← htakes.lexeme_append_rest, List.head?_append_of_ne_nil _ htakes.lexeme_ne_nil]

/-- An open quote is a double quote that no other one follows in the text. -/
theorem isOpenQuote_iff (h : cursor.step? = some (step, next)) :
    step.token.isOpenQuote = true ↔ ∃ rest, cursor.rest = '"' :: rest ∧ '"' ∉ rest := by
  have hhead := head?_lexeme h
  constructor
  · intro hopen
    simp only [Token.isOpenQuote, Bool.and_eq_true, beq_iff_eq, bne_iff_ne] at hopen
    obtain ⟨hquote, hcategory⟩ := hopen
    rw [hhead, List.head?_eq_some_iff] at hquote
    obtain ⟨rest, hrest⟩ := hquote
    refine ⟨rest, hrest, fun hmem => hcategory ?_⟩
    obtain ⟨before, after, rfl, hbefore⟩ := List.eq_append_cons_of_mem hmem
    rw [step?_quote_of_closed hrest hbefore] at h
    cases h
    rfl
  · rintro ⟨rest, hrest, hmem⟩
    have hcategory := category_ne_of_unclosed hrest hmem h
    simp [Token.isOpenQuote, hhead, hrest, hcategory]

/-- Text added behind a closed quote does not change the step that takes the quote. -/
private theorem step?_extend_of_quote {rest : Text} (hrest : cursor.rest = '"' :: rest)
    (hmem : '"' ∈ rest) (h : cursor.step? = some (step, next)) (more : Text) :
    (cursor.extend more).step? = some (step, next.extend more) := by
  obtain ⟨before, after, rfl, hbefore⟩ := List.eq_append_cons_of_mem hmem
  have hextend : (cursor.extend more).rest = '"' :: before ++ '"' :: (after ++ more) := by
    simp [extend, hrest]
  rw [step?_quote_of_closed hrest hbefore] at h
  cases h
  exact step?_quote_of_closed hextend hbefore

/-- Text added behind a line feed changes no step before it but one to a double quote. -/
private theorem step?_extend_of_ne_quote (hline : '\n' ∈ cursor.rest)
    (hquote : cursor.rest.head? ≠ some '"') (h : cursor.step? = some (step, next)) (more : Text) :
    (cursor.extend more).step? = some (step, next.extend more) := by
  have hfirst := Rule.first?_append hline hquote more cursor.atLineStart
  unfold step? at h ⊢
  cases hrest : cursor.rest with
  | nil => simp [hrest] at hline
  | cons c rest =>
    rw [hrest] at hfirst
    have hextend : (cursor.extend more).rest = c :: (rest ++ more) := by simp [extend, hrest]
    have hstart : (cursor.extend more).atLineStart = cursor.atLineStart := rfl
    rw [List.cons_append] at hfirst
    simp only [hrest] at h
    simp only [hextend, hstart, hfirst]
    cases hrule : Rule.first? (c :: rest) cursor.atLineStart with
    | none =>
      rw [hrule] at h
      cases h
      rfl
    | some found =>
      obtain ⟨rule, length⟩ := found
      rw [hrule] at h
      cases h
      have hle : length ≤ (c :: rest).length :=
        Pattern.le_length_of_matchLength (Rule.matchLength_of_first? hrule).1
      simp only [← List.cons_append, List.take_append_of_le_length hle,
        List.drop_append_of_le_length hle]
      rfl

/-- Text added behind a line feed changes no step before it but one to an open quote. -/
theorem step?_extend (hline : '\n' ∈ cursor.rest) (h : cursor.step? = some (step, next))
    (hclosed : step.token.isOpenQuote = false) (more : Text) :
    (cursor.extend more).step? = some (step, next.extend more) := by
  by_cases hquote : cursor.rest.head? = some '"'
  · obtain ⟨rest, hrest⟩ := List.head?_eq_some_iff.mp hquote
    have hmem : '"' ∈ rest := by
      by_contra hmem
      rw [(isOpenQuote_iff h).mpr ⟨rest, hrest, hmem⟩] at hclosed
      contradiction
    exact step?_extend_of_quote hrest hmem h more
  · exact step?_extend_of_ne_quote hline hquote h more

/-- With whole lines ahead, the steps up to the first open quote are taken whatever text is added
behind those lines, and the others are taken from there. -/
theorem steps_extend (cursor : Cursor) {more : Text}
    (hlines : more ≠ [] → cursor.rest.IsWholeLines) :
    (cursor.extend more).steps = (cursor.scanUntil Token.isOpenQuote).steps ++
      ((cursor.scanUntil Token.isOpenQuote).cursor.extend more).steps := by
  by_cases hmore : more = []
  · rw [hmore, extend_nil, extend_nil]
    exact steps_scanUntil Token.isOpenQuote cursor
  have hlines := hlines hmore
  induction cursor using steps_induction with
  | finished cursor h => rw [scanUntil_of_step?_eq_none _ h, List.nil_append]
  | stepped cursor step next h ih =>
    cases hclosed : step.token.isOpenQuote with
    | true => rw [scanUntil_of_leave h hclosed, List.nil_append]
    | false =>
      have htakes := takes_of_step? h
      have hne : cursor.rest ≠ [] := by
        rw [← htakes.lexeme_append_rest]
        exact List.append_ne_nil_of_left_ne_nil htakes.lexeme_ne_nil _
      have hnext : next.rest.IsWholeLines := by
        rw [← htakes.lexeme_append_rest] at hlines
        exact hlines.of_append_right
      rw [scanUntil_of_not_leave h hclosed,
        steps_of_step? (step?_extend (hlines.lineFeed_mem hne) h hclosed more),
        ih (fun _ => hnext) hnext]
      rfl

/-- With whole lines ahead, the tokens before the first open quote are taken whatever text is added
behind those lines. -/
theorem beforeOpenQuote_extend (cursor : Cursor) {more : Text}
    (hlines : more ≠ [] → cursor.rest.IsWholeLines) :
    Token.beforeOpenQuote ((cursor.extend more).steps.map Step.token) =
      (cursor.scanUntil Token.isOpenQuote).steps.map Step.token ++ Token.beforeOpenQuote
        (((cursor.scanUntil Token.isOpenQuote).cursor.extend more).steps.map Step.token) := by
  have hclosed : ∀ token ∈ (cursor.scanUntil Token.isOpenQuote).steps.map Step.token,
      (!token.isOpenQuote) = true := by
    rw [tokens_scanUntil]
    exact fun token => List.mem_takeWhile_imp
  rw [steps_extend cursor hlines, List.map_append, Token.beforeOpenQuote,
    List.takeWhile_append_of_pos hclosed]
  rfl

/-- At an open quote, no token comes before it. -/
theorem beforeOpenQuote_of_rest {rest : Text} (hrest : cursor.rest = '"' :: rest)
    (hmem : '"' ∉ rest) : Token.beforeOpenQuote (cursor.steps.map Step.token) = [] := by
  cases hstep : cursor.step? with
  | none => simp [step?_eq_none_iff.mp hstep] at hrest
  | some found =>
    obtain ⟨step, next⟩ := found
    have hopen := (isOpenQuote_iff hstep).mpr ⟨rest, hrest, hmem⟩
    rw [steps_of_step? hstep, List.map_cons, Token.beforeOpenQuote]
    exact List.takeWhile_cons_of_neg (by simp [hopen])

/-- A scan that leaves an open quote leaves a text with that one double quote, at its start. -/
theorem rest_of_left_isOpenQuote
    (h : (cursor.scanUntil Token.isOpenQuote).left = some step) :
    ∃ rest, (cursor.scanUntil Token.isOpenQuote).cursor.rest = '"' :: rest ∧ '"' ∉ rest := by
  obtain ⟨hopen, next, hstep⟩ := step?_of_left_eq_some _ h
  exact (isOpenQuote_iff hstep).mp hopen

end Cursor

end MapHighlight
