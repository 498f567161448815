import MapHighlight.Cursor
import MapHighlight.Proofs.Rule.Lookahead

/-!
# Steps of a cursor

One step takes a lexeme off the text that follows a cursor and leaves the cursor just past it.
From this everything about a scan follows: its steps are the first of all the steps that the
cursor can take, and it stops exactly before the first token that is to be left.
-/

namespace MapHighlight

/-- Whether tokens of the category stand at the start of a line only. -/
def Category.opensLine : Category → Bool
  | headerAssignment | className | entityName => true
  | _ => false

theorem Rule.isAnchored_of_opensLine {rule : Rule} (h : rule.category.opensLine = true) :
    rule.isAnchored = true := by
  cases rule <;> first | rfl | contradiction

namespace Cursor

/-- What a step does: it takes a lexeme off the text and leaves the cursor just past it. -/
structure Takes (cursor : Cursor) (step : Step) (next : Cursor) : Prop where
  /-- At least one character is taken. -/
  lexeme_ne_nil : step.token.lexeme ≠ []
  /-- The lexeme is the start of the text, and the rest stays. -/
  lexeme_append_rest : step.token.lexeme ++ next.rest = cursor.rest
  /-- The token is where the cursor was. -/
  location_eq : step.token.location = cursor.location
  /-- The cursor moves to the end of the token. -/
  location_next : next.location = step.token.finish
  /-- The next token is at the start of a line if this one ends with a line feed. -/
  atLineStart_next : next.atLineStart = (step.token.lexeme.getLast? == some '\n')
  /-- Some tokens are taken at the start of a line only. -/
  atLineStart_of_opensLine : step.token.category.opensLine = true → cursor.atLineStart = true

/-- A cursor knows from its column whether it is at the start of a line. -/
structure IsPlaced (cursor : Cursor) : Prop where
  /-- Columns are counted from one. -/
  column_pos : 0 < cursor.location.column
  /-- The start of a line is the first column. -/
  atLineStart_iff : cursor.atLineStart = true ↔ cursor.location.column = 1

variable {cursor next : Cursor} {step : Step}

/-- Every step does what a step does. -/
theorem takes_of_step? (h : cursor.step? = some (step, next)) : cursor.Takes step next := by
  unfold step? at h
  split at h
  · contradiction
  · rename_i c rest hrest
    split at h
    · rename_i rule length hfirst
      cases h
      have hpos := Rule.pos_of_first? hfirst
      refine ⟨?_, ?_, rfl, rfl, rfl, fun hopens => ?_⟩
      · have hlength : length ≠ 0 := by omega
        simp [Step.token, hlength]
      · rw [hrest]
        exact List.take_append_drop length (c :: rest)
      · exact (Rule.matchLength_of_first? hfirst).2 (Rule.isAnchored_of_opensLine hopens)
    · cases h
      exact ⟨by simp [Step.token], by simp [Step.token, past, hrest], rfl, rfl, rfl,
        fun hopens => by simp [Step.token, Category.opensLine] at hopens⟩

/-- A step moves the cursor past the lexeme. -/
theorem Takes.location_advance (h : cursor.Takes step next) :
    next.location = cursor.location.advance step.token.lexeme := by
  rw [h.location_next, Token.finish, h.location_eq]

/-- After a step the cursor still knows from its column whether it is at the start of a line. -/
theorem Takes.isPlaced (h : cursor.Takes step next) (hplaced : cursor.IsPlaced) :
    next.IsPlaced := by
  have hcolumn := Location.column_advance_eq_one_iff hplaced.column_pos step.token.lexeme
  constructor
  · rw [h.location_advance]
    exact Location.column_advance_pos hplaced.column_pos _
  · rw [h.location_advance, hcolumn, h.atLineStart_next]
    simp [h.lexeme_ne_nil]

/-- The cursor at the start of a source is in the first column and at the start of a line. -/
theorem isPlaced_ofSource (source : Text) : (ofSource source).IsPlaced :=
  ⟨Nat.one_pos, by simp [ofSource, Location.start]⟩

/-- A cursor takes no steps once its text has ended. -/
theorem steps_of_step?_eq_none (h : cursor.step? = none) : cursor.steps = [] := by
  unfold steps scanUntil
  split
  · rfl
  · rename_i hstep
    rw [h] at hstep
    contradiction

/-- The first of all steps is the next one. -/
theorem steps_of_step? (h : cursor.step? = some (step, next)) :
    cursor.steps = step :: next.steps := by
  conv_lhs => unfold steps scanUntil
  split
  · rename_i hstep
    rw [h] at hstep
    contradiction
  · rename_i hstep
    rw [h] at hstep
    cases hstep
    rfl

theorem steps_of_rest_eq_nil (h : cursor.rest = []) : cursor.steps = [] :=
  steps_of_step?_eq_none (step?_eq_none_iff.mpr h)

/-- Steps can be followed one after another to the end of the text. -/
theorem steps_induction {motive : Cursor → Prop}
    (finished : ∀ cursor, cursor.step? = none → motive cursor)
    (stepped : ∀ cursor step next, cursor.step? = some (step, next) → motive next → motive cursor)
    (cursor : Cursor) : motive cursor := by
  fun_induction scanUntil (fun _ => false) cursor with
  | case1 cursor hnone => exact finished cursor hnone
  | case2 => contradiction
  | case3 cursor step next hstep _ _ _ ih => exact stepped cursor step next hstep ih

variable (leave : Token → Bool)

theorem scanUntil_of_step?_eq_none (h : cursor.step? = none) :
    cursor.scanUntil leave = ⟨[], none, cursor⟩ := by
  unfold scanUntil
  split
  · rfl
  · simp_all

theorem scanUntil_of_leave {leave : Token → Bool} (h : cursor.step? = some (step, next))
    (hleave : leave step.token = true) : cursor.scanUntil leave = ⟨[], some step, cursor⟩ := by
  unfold scanUntil
  split
  · simp_all
  · simp_all

theorem scanUntil_of_not_leave {leave : Token → Bool} (h : cursor.step? = some (step, next))
    (hleave : leave step.token = false) :
    cursor.scanUntil leave =
      { next.scanUntil leave with steps := step :: (next.scanUntil leave).steps } := by
  conv_lhs => unfold scanUntil
  split
  · simp_all
  · simp_all

/-- A scan takes the first of all steps, and the others are those of the cursor that it leaves. -/
theorem steps_scanUntil (cursor : Cursor) :
    cursor.steps = (cursor.scanUntil leave).steps ++ (cursor.scanUntil leave).cursor.steps := by
  induction cursor using steps_induction with
  | finished cursor h => rw [scanUntil_of_step?_eq_none leave h, List.nil_append]
  | stepped cursor step next h ih =>
    cases hleave : leave step.token with
    | true => rw [scanUntil_of_leave h hleave, List.nil_append]
    | false =>
      rw [scanUntil_of_not_leave h hleave, steps_of_step? h, ih]
      rfl

/-- A scan takes the tokens before the first one that is to be left. -/
theorem tokens_scanUntil (cursor : Cursor) :
    (cursor.scanUntil leave).steps.map Step.token =
      (cursor.steps.map Step.token).takeWhile fun token => !leave token := by
  induction cursor using steps_induction with
  | finished cursor h => simp [scanUntil_of_step?_eq_none leave h, steps_of_step?_eq_none h]
  | stepped cursor step next h ih =>
    cases hleave : leave step.token with
    | true => simp [scanUntil_of_leave h hleave, steps_of_step? h, hleave]
    | false => simp [scanUntil_of_not_leave h hleave, steps_of_step? h, hleave, ih]

/-- A scan leaves the first token that is to be left. -/
theorem left_scanUntil (cursor : Cursor) :
    (cursor.scanUntil leave).left.map Step.token =
      (cursor.steps.map Step.token).find? leave := by
  induction cursor using steps_induction with
  | finished cursor h => simp [scanUntil_of_step?_eq_none leave h, steps_of_step?_eq_none h]
  | stepped cursor step next h ih =>
    cases hleave : leave step.token with
    | true => simp [scanUntil_of_leave h hleave, steps_of_step? h, hleave]
    | false => simp [scanUntil_of_not_leave h hleave, steps_of_step? h, hleave, ih]

/-- The lexemes that a scan takes and the text that it leaves make up the text. -/
theorem lexemes_append_rest_scanUntil (cursor : Cursor) :
    ((cursor.scanUntil leave).steps.flatMap fun step => step.token.lexeme) ++
      (cursor.scanUntil leave).cursor.rest = cursor.rest := by
  induction cursor using steps_induction with
  | finished cursor h => simp [scanUntil_of_step?_eq_none leave h]
  | stepped cursor step next h ih =>
    cases hleave : leave step.token with
    | true => simp [scanUntil_of_leave h hleave]
    | false =>
      rw [scanUntil_of_not_leave h hleave, List.flatMap_cons, List.append_assoc, ih,
        (takes_of_step? h).lexeme_append_rest]

/-- What a scan leaves of the text is its end. -/
theorem rest_scanUntil_suffix (cursor : Cursor) :
    (cursor.scanUntil leave).cursor.rest <:+ cursor.rest :=
  ⟨_, lexemes_append_rest_scanUntil leave cursor⟩

/-- If a scan leaves nothing, it has reached the end of the text. -/
theorem rest_of_left_eq_none {cursor : Cursor} (h : (cursor.scanUntil leave).left = none) :
    (cursor.scanUntil leave).cursor.rest = [] := by
  induction cursor using steps_induction with
  | finished cursor hnone =>
    rw [scanUntil_of_step?_eq_none leave hnone]
    exact step?_eq_none_iff.mp hnone
  | stepped cursor step next hstep ih =>
    cases hleave : leave step.token with
    | true => simp [scanUntil_of_leave hstep hleave] at h
    | false =>
      rw [scanUntil_of_not_leave hstep hleave] at h ⊢
      exact ih h

/-- If a scan leaves a token, that token is to be left, and it is the next one. -/
theorem step?_of_left_eq_some {cursor : Cursor} {step : Step}
    (h : (cursor.scanUntil leave).left = some step) :
    leave step.token = true ∧
      ∃ next, (cursor.scanUntil leave).cursor.step? = some (step, next) := by
  induction cursor using steps_induction with
  | finished cursor hnone => simp [scanUntil_of_step?_eq_none leave hnone] at h
  | stepped cursor first next hstep ih =>
    cases hleave : leave first.token with
    | true =>
      rw [scanUntil_of_leave hstep hleave] at h ⊢
      cases h
      exact ⟨hleave, next, hstep⟩
    | false =>
      rw [scanUntil_of_not_leave hstep hleave] at h ⊢
      exact ih h

end Cursor

end MapHighlight
