import MapHighlight.Proofs.Cursor.Steps

/-!
# Tokens cover a text

The tokens that a cursor takes stand side by side: each starts where the one before it ends, none
is empty, and together they are the text. The relation `Token.Cover` says so of any list of tokens,
however they came about, and can be put together from its parts.
-/

namespace MapHighlight

/-- Tokens that cover a text from a location on: they stand side by side without gaps, none of
them is empty, and those that open a line stand in the first column. -/
inductive Token.Cover : Location → List Token → Text → Prop
  | nil (location : Location) : Cover location [] []
  | cons {token : Token} {tokens : List Token} {text : Text} : token.lexeme ≠ [] →
      (token.category.opensLine = true → token.location.column = 1) →
      Cover token.finish tokens text →
      Cover token.location (token :: tokens) (token.lexeme ++ text)

namespace Token.Cover

variable {location : Location} {tokens : List Token} {text : Text}

/-- Two covers in a row are one. -/
theorem append (h : Cover location tokens text) {more : List Token} {rest : Text}
    (hmore : Cover (location.advance text) more rest) :
    Cover location (tokens ++ more) (text ++ rest) := by
  induction h with
  | nil location => exact hmore
  | cons hne hopens _ ih =>
    rw [List.append_assoc]
    refine .cons hne hopens (ih ?_)
    rwa [finish, ← Location.advance_append]

/-- The lexemes make up the text. -/
theorem flatMap_lexeme (h : Cover location tokens text) : tokens.flatMap lexeme = text := by
  induction h with
  | nil location => rfl
  | cons _ _ _ ih => rw [List.flatMap_cons, ih]

theorem lexeme_ne_nil (h : Cover location tokens text) : ∀ token ∈ tokens, token.lexeme ≠ [] := by
  induction h with
  | nil location => simp
  | cons hne _ _ ih => exact List.forall_mem_cons.mpr ⟨hne, ih⟩

/-- There are no more tokens in a cover than characters in its text. -/
theorem length_le (h : Cover location tokens text) : tokens.length ≤ text.length := by
  induction h with
  | nil location => exact Nat.le_refl 0
  | cons hne _ _ ih =>
    have hpos := List.length_pos_iff.mpr hne
    rw [List.length_cons, List.length_append]
    omega

theorem column_of_opensLine (h : Cover location tokens text) :
    ∀ token ∈ tokens, token.category.opensLine = true → token.location.column = 1 := by
  induction h with
  | nil location => simp
  | cons _ hopens _ ih => exact List.forall_mem_cons.mpr ⟨hopens, ih⟩

/-- The place of a token is known from the text of the tokens before it. -/
theorem location_eq {before after : List Token} {token : Token}
    (h : Cover location (before ++ token :: after) text) :
    token.location = location.advance (before.flatMap lexeme) := by
  induction before generalizing location text with
  | nil =>
    cases h with
    | cons => rfl
  | cons first before ih =>
    cases h with
    | cons _ _ hrest =>
      rw [ih hrest, List.flatMap_cons, Location.advance_append]
      rfl

/-- The end of a token is known from the text of the tokens up to it. -/
theorem finish_eq {before after : List Token} {token : Token}
    (h : Cover location (before ++ token :: after) text) :
    token.finish = location.advance ((before ++ [token]).flatMap lexeme) := by
  rw [finish, h.location_eq, ← Location.advance_append, List.flatMap_append, List.flatMap_singleton]

end Token.Cover

namespace Cursor

variable {cursor next : Cursor} {step : Step}

/-- The token of a step covers its lexeme. -/
theorem Takes.cover (h : cursor.Takes step next) (hplaced : cursor.IsPlaced)
    {tokens : List Token} {text : Text} (hcover : Token.Cover next.location tokens text) :
    Token.Cover cursor.location (step.token :: tokens) (step.token.lexeme ++ text) := by
  rw [← h.location_eq]
  refine .cons h.lexeme_ne_nil (fun hopens => ?_) (h.location_next ▸ hcover)
  rw [h.location_eq]
  exact hplaced.atLineStart_iff.mp (h.atLineStart_of_opensLine hopens)

/-- What a scan has taken is covered by its tokens, and the cursor stands right behind it. -/
structure Covers (cursor : Cursor) (scan : Scan) (text : Text) : Prop where
  /-- The text taken is the start of the text that was there. -/
  append_rest : text ++ scan.cursor.rest = cursor.rest
  /-- The tokens cover the text taken. -/
  cover : Token.Cover cursor.location (scan.steps.map Step.token) text
  /-- The cursor stands behind the text taken. -/
  location_advance : scan.cursor.location = cursor.location.advance text
  /-- The cursor still knows whether it is at the start of a line. -/
  isPlaced : scan.cursor.IsPlaced

/-- The tokens of a scan cover what it has taken of the text. -/
theorem exists_covers_scanUntil (leave : Token → Bool) (hplaced : cursor.IsPlaced) :
    ∃ text, cursor.Covers (cursor.scanUntil leave) text := by
  induction cursor using steps_induction with
  | finished cursor h =>
    rw [scanUntil_of_step?_eq_none leave h]
    exact ⟨[], rfl, .nil _, rfl, hplaced⟩
  | stepped cursor step next h ih =>
    have htakes := takes_of_step? h
    cases hleave : leave step.token with
    | true =>
      rw [scanUntil_of_leave h hleave]
      exact ⟨[], rfl, .nil _, rfl, hplaced⟩
    | false =>
      obtain ⟨text, hcovers⟩ := ih (htakes.isPlaced hplaced)
      rw [scanUntil_of_not_leave h hleave]
      refine ⟨step.token.lexeme ++ text, ?_, htakes.cover hplaced hcovers.cover, ?_,
        hcovers.isPlaced⟩
      · rw [List.append_assoc, hcovers.append_rest, htakes.lexeme_append_rest]
      · rw [Location.advance_append, ← htakes.location_advance]
        exact hcovers.location_advance

/-- The tokens of all steps cover the whole text. -/
theorem cover_steps (hplaced : cursor.IsPlaced) :
    Token.Cover cursor.location (cursor.steps.map Step.token) cursor.rest := by
  obtain ⟨text, hcovers⟩ := exists_covers_scanUntil (fun _ => false) hplaced
  have hrest := hcovers.append_rest
  rw [rest_scanUntil_eq_nil (fun _ => rfl), List.append_nil] at hrest
  exact hrest ▸ hcovers.cover

/-- Every token is the next one of some cursor on the way, which has the text from that token on
before it. -/
theorem exists_step?_of_tokens {before after : List Token} {token : Token}
    (hplaced : cursor.IsPlaced) (htokens : cursor.steps.map Step.token = before ++ token :: after) :
    ∃ (here : Cursor) (step : Step) (next : Cursor), here.IsPlaced ∧
      here.step? = some (step, next) ∧ step.token = token ∧
      before.flatMap Token.lexeme ++ here.rest = cursor.rest ∧
      next.steps.map Step.token = after := by
  induction before generalizing cursor with
  | nil =>
    cases h : cursor.step? with
    | none => simp [steps_of_step?_eq_none h] at htokens
    | some found =>
      obtain ⟨step, next⟩ := found
      rw [steps_of_step? h, List.map_cons, List.nil_append, List.cons.injEq] at htokens
      exact ⟨cursor, step, next, hplaced, h, htokens.1, rfl, htokens.2⟩
  | cons first before ih =>
    cases h : cursor.step? with
    | none => simp [steps_of_step?_eq_none h] at htokens
    | some found =>
      obtain ⟨step, next⟩ := found
      rw [steps_of_step? h, List.map_cons, List.cons_append, List.cons.injEq] at htokens
      have htakes := takes_of_step? h
      obtain ⟨here, later, past, hhere, hstep, htoken, hrest, hafter⟩ :=
        ih (htakes.isPlaced hplaced) htokens.2
      refine ⟨here, later, past, hhere, hstep, htoken, ?_, hafter⟩
      rw [List.flatMap_cons, List.append_assoc, hrest, ← htokens.1, htakes.lexeme_append_rest]

end Cursor

end MapHighlight
