import MapHighlight.Proofs.Cursor.Errors
import MapHighlight.Proofs.Rule.Alone

/-!
# Tokens by themselves

A token that is cut out of its source is lexed to itself, at its place and with its own start of a
line. What followed it in the source had a part in it only where it kept a word of the vocabulary
from being one: such a word is an identifier in the source, in front of a letter or a mark beyond
ASCII, and a word of its list by itself.
-/

namespace MapHighlight

namespace Rule

variable {lexeme rest : Text} {atLineStart : Bool}

/-- A character that no rule recognises is not recognised by itself either. -/
theorem first?_eq_none_self {c : Char} (h : first? (c :: rest) atLineStart = none) :
    first? [c] atLineStart = none := by
  obtain ⟨⟨hwhite, hmarks, -⟩, hdigit, hname, -, -⟩ := first?_eq_none_iff.mp h
  refine first?_eq_none_iff.mpr ⟨⟨hwhite, hmarks, by simp⟩, hdigit, hname, ?_, ?_⟩
  · exact fun _ => rfl
  · simp

/-- A token taken by itself has the same label, unless it is a listed word that was taken as an
identifier. -/
theorem label_self_iff {category : Category}
    (h : label atLineStart (lexeme ++ rest) = (category, lexeme)) (hne : lexeme ≠ []) :
    label atLineStart lexeme = (category, lexeme) ↔
      ¬ (category = .identifier ∧ lexeme.IsListed) := by
  constructor
  · rintro hself ⟨rfl, hlisted⟩
    have hidentifier : label atLineStart lexeme = (identifier.category, lexeme) := hself
    have hword := firstWord_of_isListed hlisted
    exact not_isListed_firstWord (first?_of_label hidentifier (by decide)) (hword.symm ▸ hlisted)
  · intro hlisted
    by_cases herror : category = .error
    · subst herror
      have hnone : first? (lexeme ++ rest) atLineStart = none :=
        label_eq_error_iff.mp (congrArg Prod.fst h)
      obtain ⟨c, tail, rfl⟩ := List.exists_cons_of_ne_nil hne
      have htail : tail = [] := by
        rw [label, hnone] at h
        simpa using (congrArg Prod.snd h).symm
      subst htail
      rw [label, first?_eq_none_self hnone]
      rfl
    · obtain ⟨rule, rfl, hfirst⟩ := exists_first?_of_label h herror
      have hself := first?_self hfirst fun hrule hword => hlisted ⟨by rw [hrule]; rfl, hword⟩
      rw [label, hself]
      simp

end Rule

/-- The cursor at a token when nothing follows the token. -/
def Token.alone (token : Token) : Cursor :=
  ⟨token.lexeme, token.location, decide (token.location.column = 1)⟩

/-- A cursor takes its whole text as one token exactly if that token is what its text is labelled. -/
theorem Cursor.tokens_eq_singleton_iff {cursor : Cursor} {token : Token}
    (hlexeme : token.lexeme = cursor.rest) (hlocation : token.location = cursor.location)
    (hne : token.lexeme ≠ []) :
    cursor.steps.map Step.token = [token] ↔
      Rule.label cursor.atLineStart cursor.rest = token.pair := by
  cases hstep : cursor.step? with
  | none => exact absurd (hlexeme.trans (step?_eq_none_iff.mp hstep)) hne
  | some found =>
    obtain ⟨step, next⟩ := found
    have hlabel := label_of_step? hstep
    rw [steps_of_step? hstep, List.map_cons, ← hlabel, List.cons.injEq]
    constructor
    · rintro ⟨rfl, -⟩
      rfl
    · intro hpair
      have htakes := takes_of_step? hstep
      have hsame : step.token.lexeme = token.lexeme := congrArg Prod.snd hpair
      have htoken : step.token = token := by
        rw [Token.mk.injEq]
        exact ⟨congrArg Prod.fst hpair, hsame, htakes.location_eq.trans hlocation.symm⟩
      have hrest : next.rest = [] := by
        have happend := htakes.lexeme_append_rest
        rwa [hsame, hlexeme, List.append_right_eq_self] at happend
      exact ⟨htoken, by rw [steps_of_rest_eq_nil hrest, List.map_nil]⟩

/-- Names hold all word characters of ASCII. -/
theorem CharSet.le_toNat_of_namePart_eq_false {c : Char} (hword : Unicode.isWordCharacter c = true)
    (hpart : namePart.contains c = false) : 128 ≤ c.toNat := by
  have hall : ∀ c : Char, c.toNat < 128 → Unicode.isWordCharacter c = true →
      namePart.contains c = true := forall_ascii (by decide +kernel)
  by_contra hlt
  rw [hall c (Nat.lt_of_not_le hlt) hword] at hpart
  contradiction

/-- What follows a listed word that is taken as an identifier is a word character beyond ASCII. -/
theorem Rule.exists_wordCharacter_of_isListed {lexeme rest : Text} {atLineStart : Bool}
    (h : first? (lexeme ++ rest) atLineStart = some (identifier, lexeme.length))
    (hlisted : lexeme.IsListed) :
    ∃ c tail, rest = c :: tail ∧ Unicode.isWordCharacter c = true ∧ 128 ≤ c.toNat := by
  have hlonger : lexeme ≠ Text.firstWord (lexeme ++ rest) := fun hword =>
    not_isListed_firstWord h (hword ▸ hlisted)
  have hbehind : rest.head?.any Unicode.isWordCharacter = true := by
    by_contra hstop
    refine hlonger (((isWord_of_isListed hlisted).eq_firstWord_iff _).mpr ⟨⟨rest, rfl⟩, ?_⟩)
    rw [List.drop_left]
    exact Bool.not_eq_true _ ▸ hstop
  cases rest with
  | nil => simp at hbehind
  | cons c tail =>
    have hword : Unicode.isWordCharacter c = true := by simpa using hbehind
    have hpart : CharSet.namePart.contains c = false := contains_eq_false_of_run? rfl h
    exact ⟨c, tail, rfl, hword, CharSet.le_toNat_of_namePart_eq_false hword hpart⟩

/-- A token taken by itself, at its place, is lexed to itself, except exactly if it is an identifier
that is a word of the vocabulary. Such an identifier is followed by a word character beyond ASCII. -/
theorem tokenize_alone {source : Text} {before after : List Token} {token : Token}
    (htokens : tokenize source = before ++ token :: after) :
    (token.alone.steps.map Step.token = [token] ↔
      ¬ (token.category = .identifier ∧ token.lexeme.IsListed)) ∧
    (token.category = .identifier → token.lexeme.IsListed →
      ∃ c rest, source = before.flatMap Token.lexeme ++ token.lexeme ++ c :: rest ∧
        Unicode.isWordCharacter c = true ∧ 128 ≤ c.toNat) := by
  have hsource := source_eq_of_tokens htokens
  have hne : token.lexeme ≠ [] := by
    have hcover := Cursor.cover_steps (Cursor.isPlaced_ofSource source)
    refine hcover.lexeme_ne_nil token ?_
    rw [show (Cursor.ofSource source).steps.map Step.token = _ from htokens]
    simp
  have hlabel := pair_of_tokens htokens hsource
  rw [List.flatMap_cons] at hsource hlabel
  constructor
  · rw [Cursor.tokens_eq_singleton_iff rfl rfl hne]
    exact Rule.label_self_iff hlabel.symm hne
  · intro hcategory hlisted
    have hidentifier : token.pair = (Rule.identifier.category, token.lexeme) :=
      congrArg (·, token.lexeme) hcategory
    have hfirst := Rule.first?_of_label (hlabel.symm.trans hidentifier) (by decide)
    obtain ⟨c, rest, hrest, hc⟩ := Rule.exists_wordCharacter_of_isListed hfirst hlisted
    refine ⟨c, rest, ?_, hc⟩
    rw [hsource, hrest, List.append_assoc]

/-- In front of a letter beyond ASCII a direction is an identifier, but it is none by itself. A full
stop belongs to an identifier with and without what follows. -/
theorem tokenize_alone_of_accented_letter :
    let first : Token := ⟨.identifier, "x.up".toList, .start⟩
    let blank : Token := ⟨.whitespace, " ".toList, ⟨1, 5, 4⟩⟩
    let second : Token := ⟨.identifier, "north".toList, ⟨1, 6, 5⟩⟩
    let last : Token := ⟨.error, "é".toList, ⟨1, 11, 10⟩⟩
    tokenize "x.up northé".toList = [first, blank, second, last] ∧
      first.alone.steps.map Step.token = [first] ∧
      second.alone.steps.map Step.token ≠ [second] ∧
      ∃ c rest, "x.up northé".toList =
          [first, blank].flatMap Token.lexeme ++ second.lexeme ++ c :: rest ∧
        Unicode.isWordCharacter c = true ∧ 128 ≤ c.toNat := by
  intro first blank second last
  have htokens : tokenize "x.up northé".toList = [first, blank, second, last] := by
    decide +kernel
  have hlisted : second.lexeme.IsListed := by decide +kernel
  have hsplit : tokenize "x.up northé".toList = [first, blank] ++ second :: [last] := htokens
  obtain ⟨hfirst, -⟩ := tokenize_alone (htokens.trans (List.nil_append _).symm)
  obtain ⟨hsecond, hbehind⟩ := tokenize_alone hsplit
  refine ⟨htokens, hfirst.mpr fun h => absurd h.2 (by decide +kernel), ?_, hbehind rfl hlisted⟩
  exact fun h => hsecond.mp h ⟨rfl, hlisted⟩

end MapHighlight
