import MapHighlight.Event
import MapHighlight.Token

/-!
# Cursors

A cursor is a place in a source together with the text that follows it. One step takes one token
off that text: what the first matching rule takes, or a single character that no rule recognises.
Steps therefore cover the text without gaps, and `scanUntil` takes them until the text ends or a
token appears that the caller wants to leave where it is.
-/

namespace MapHighlight

/-- A place in a source and the text that follows it. -/
structure Cursor where
  /-- The text that follows. -/
  rest : Text
  /-- The place in the source. -/
  location : Location
  /-- Whether the text before the place is empty or ends with a line feed. -/
  atLineStart : Bool
deriving DecidableEq, Repr

/-- One step of a cursor: what it found at a place. -/
inductive Step where
  /-- A rule matched a text. -/
  | matched (location : Location) (rule : Rule) (lexeme : Text)
  /-- No rule recognised a character. -/
  | unmatched (location : Location) (c : Char)
deriving DecidableEq, Repr

namespace Step

/-- The token that a step takes. A character that no rule recognises is an error token by
itself. -/
def token : Step → Token
  | matched location rule lexeme => ⟨rule.category, lexeme, location⟩
  | unmatched location c => ⟨.error, [c], location⟩

/-- What is reported of a step. -/
def event : Step → Event
  | matched location rule lexeme => .matched location rule lexeme.byteLength
  | unmatched location c => .unmatched location c

end Step

/-- The outcome of taking steps until a token is to be left where it is. -/
structure Scan where
  /-- The steps taken. -/
  steps : List Step
  /-- The step to the token that was left, unless the text ended before one appeared. -/
  left : Option Step
  /-- The cursor after the steps taken. -/
  cursor : Cursor
deriving DecidableEq, Repr

namespace Cursor

/-- The cursor at the start of a source. -/
def ofSource (source : Text) : Cursor :=
  ⟨source, .start, true⟩

/-- The cursor past a lexeme that begins at a cursor, with the text that follows the lexeme. -/
def past (cursor : Cursor) (lexeme rest : Text) : Cursor :=
  ⟨rest, cursor.location.advance lexeme, lexeme.getLast? == some '\n'⟩

/-- The next step from a cursor, unless its text has ended. -/
def step? (cursor : Cursor) : Option (Step × Cursor) :=
  match cursor.rest with
  | [] => none
  | c :: rest =>
    match Rule.first? (c :: rest) cursor.atLineStart with
    | some (rule, length) =>
      let lexeme := (c :: rest).take length
      some (.matched cursor.location rule lexeme, cursor.past lexeme ((c :: rest).drop length))
    | none => some (.unmatched cursor.location c, cursor.past [c] rest)

/-- A step shortens the text. -/
theorem length_rest_lt_of_step? {cursor next : Cursor} {step : Step}
    (h : cursor.step? = some (step, next)) : next.rest.length < cursor.rest.length := by
  unfold step? at h
  split at h
  · contradiction
  · rename_i c rest hrest
    rw [hrest]
    split at h
    · rename_i hfirst
      have := Rule.pos_of_first? hfirst
      cases h
      simp only [past, List.length_drop, List.length_cons]
      omega
    · cases h
      simp [past]

/-- Takes steps until the text ends or a token appears that is to be left where it is. -/
def scanUntil (leave : Token → Bool) (cursor : Cursor) : Scan :=
  match h : cursor.step? with
  | none => ⟨[], none, cursor⟩
  | some (step, next) =>
    have := length_rest_lt_of_step? h
    if leave step.token then ⟨[], some step, cursor⟩
    else
      let scan := next.scanUntil leave
      { scan with steps := step :: scan.steps }
termination_by cursor.rest.length

theorem step?_eq_none_iff {cursor : Cursor} : cursor.step? = none ↔ cursor.rest = [] := by
  unfold step?
  split
  · simp_all
  · split <;> simp_all

/-- If no token is to be left where it is, the steps take the whole text. -/
theorem rest_scanUntil_eq_nil {leave : Token → Bool} (h : ∀ token, leave token = false)
    (cursor : Cursor) : (cursor.scanUntil leave).cursor.rest = [] := by
  fun_induction scanUntil leave cursor with
  | case1 cursor hnone => exact step?_eq_none_iff.mp hnone
  | case2 cursor step next hstep _ hleave => simp [h] at hleave
  | case3 cursor step next hstep _ _ scan ih => exact ih

/-- All steps that a cursor can take. -/
def steps (cursor : Cursor) : List Step :=
  (cursor.scanUntil fun _ => false).steps

end Cursor

/-- The tokens of a source. -/
def tokenize (source : Text) : List Token :=
  (Cursor.ofSource source).steps.map (·.token)

end MapHighlight
