import MapHighlight.Proofs.Lexer.Standing

/-!
# How many tokens are to come

Each token takes at least one character, and a character at least one byte, so no more tokens are to
come than bytes remain. Whether any is to come is known beforehand only if nothing is left out: then
the text that remains begins with the next token.
-/

namespace MapHighlight

/-- A cursor takes no more steps than there are characters. -/
theorem Cursor.length_steps_le (cursor : Cursor) : cursor.steps.length ≤ cursor.rest.length := by
  induction cursor using steps_induction with
  | finished cursor h => simp [steps_of_step?_eq_none h]
  | stepped cursor step next h ih =>
    have hshorter := length_rest_lt_of_step? h
    rw [steps_of_step? h, List.length_cons]
    omega

theorem Cursor.steps_eq_nil_iff {cursor : Cursor} : cursor.steps = [] ↔ cursor.rest = [] := by
  constructor
  · intro hsteps
    apply step?_eq_none_iff.mp
    by_contra hsome
    obtain ⟨⟨step, next⟩, hstep⟩ := Option.ne_none_iff_exists'.mp hsome
    rw [steps_of_step? hstep] at hsteps
    contradiction
  · exact steps_of_rest_eq_nil

/-- A lossless configuration keeps every token. -/
theorem LexerConfig.keeps_of_isLossless {config : LexerConfig} (h : config.isLossless = true)
    (category : Category) : config.keeps category = true := by
  have hboth : config.includeWhitespace = true ∧ config.includeComments = true := by
    simpa [isLossless] using h
  cases category <;> simp [keeps, hboth]

namespace Lexer

variable {lexer : Lexer} {n : Nat}

/-- A lexer is about to hand out so many tokens: that many requests are answered with a token, and
no request after them. -/
def HandsOut (lexer : Lexer) (n : Nat) : Prop :=
  ∀ requests, (lexer.after requests).next.token.isSome = true ↔ requests < n

theorem handsOut_length_tokens (lexer : Lexer) : lexer.HandsOut lexer.tokens.length := by
  intro requests
  rw [token_after]
  simp

/-- No more tokens are to come than bytes remain. -/
theorem length_tokens_le (lexer : Lexer) : lexer.tokens.length ≤ lexer.remaining.byteLength :=
  calc lexer.tokens.length
      ≤ (lexer.steps.map (·.token)).length := List.length_filter_le _ _
    _ = lexer.cursor.steps.length := List.length_map _
    _ ≤ lexer.remaining.length := lexer.cursor.length_steps_le
    _ ≤ lexer.remaining.byteLength := Text.length_le_byteLength _

/-- If nothing is left out, a token is to come exactly if text remains. -/
theorem tokens_eq_nil_iff (h : lexer.config.isLossless = true) :
    lexer.tokens = [] ↔ lexer.remaining = [] := by
  have hall : lexer.tokens = lexer.steps.map (·.token) :=
    List.filter_eq_self.mpr fun token _ => LexerConfig.keeps_of_isLossless h token.category
  rw [hall, List.map_eq_nil_iff]
  exact Cursor.steps_eq_nil_iff

/-- The lower bound is one if nothing is left out and text remains. -/
theorem countBounds_fst (lexer : Lexer) : lexer.countBounds.1 =
    if lexer.config.isLossless = true ∧ lexer.remaining ≠ [] then 1 else 0 := by
  have hbytes : 0 < lexer.remaining.byteLength ↔ lexer.remaining ≠ [] := by
    cases lexer.remaining with
    | nil => simp
    | cons c rest => simp [Nat.add_pos_left c.utf8Size_pos]
  simp [countBounds, hbytes, and_comm]

/-- If nothing is left out, the lower bound says whether a token is to come. -/
theorem countBounds_fst_eq_one_iff (h : lexer.config.isLossless = true) :
    lexer.countBounds.1 = 1 ↔ 1 ≤ lexer.tokens.length := by
  have htokens : 1 ≤ lexer.tokens.length ↔ lexer.remaining ≠ [] := by
    rw [Nat.one_le_iff_ne_zero]
    exact not_congr (List.length_eq_zero_iff.trans (tokens_eq_nil_iff h))
  simp [countBounds_fst, htokens, h]

theorem countBounds_fst_le (lexer : Lexer) : lexer.countBounds.1 ≤ lexer.tokens.length := by
  cases h : lexer.config.isLossless with
  | false => simp [countBounds_fst, h]
  | true =>
    have hone := countBounds_fst_eq_one_iff h
    have hle : lexer.countBounds.1 ≤ 1 := by
      rw [countBounds_fst]
      split <;> omega
    omega

/-- The configuration stays as it is. -/
theorem config_next (lexer : Lexer) : lexer.next.lexer.config = lexer.config := by
  fun_induction next lexer with
  | case1 => rfl
  | case2 => rfl
  | case3 lexer step cursor hstep _ hkeeps pull ih => exact ih

theorem config_after (lexer : Lexer) (requests : Nat) :
    (lexer.after requests).config = lexer.config := by
  induction requests generalizing lexer with
  | zero => rfl
  | succ requests ih => rw [after, ih, config_next]

/-- After any number of requests, the bounds on the number of tokens hold for the number of those
that are handed out from then on. If nothing is left out, the lower bound is one exactly if at least
one token is. -/
theorem countBounds_after (source : Text) (config : LexerConfig) (requests : Nat) :
    let lexer := (ofSource source config).after requests
    ∃ n, lexer.HandsOut n ∧ lexer.countBounds.1 ≤ n ∧ n ≤ lexer.countBounds.2 ∧
      (config.isLossless = true → (lexer.countBounds.1 = 1 ↔ 1 ≤ n)) := by
  intro lexer
  refine ⟨lexer.tokens.length, lexer.handsOut_length_tokens, lexer.countBounds_fst_le,
    lexer.length_tokens_le, fun hlossless => ?_⟩
  have hconfig : lexer.config = config := config_after (ofSource source config) requests
  exact countBounds_fst_eq_one_iff (hconfig ▸ hlossless)

/-- Before a character of three bytes one token is to come, and the upper bound counts the bytes. -/
theorem countBounds_after_of_wide_character :
    let lexer := (ofSource "x€".toList {}).after 1
    LexerConfig.isLossless {} = true ∧ lexer.countBounds = (1, 3) ∧
      ∃ n, lexer.HandsOut n ∧ 1 ≤ n ∧ n ≤ 3 := by
  intro lexer
  have hbounds : lexer.countBounds = (1, 3) := by decide +kernel
  obtain ⟨n, hn, -, hupper, hlower⟩ := countBounds_after "x€".toList {} 1
  refine ⟨rfl, hbounds, n, hn, ?_, ?_⟩
  · exact (hlower rfl).mp (congrArg Prod.fst hbounds)
  · exact hupper.trans (congrArg Prod.snd hbounds).le

end Lexer

end MapHighlight
