import MapHighlight.Proofs.Rule.Selection

/-!
# Which rule takes the start of a line

The header rule takes a line up to its first equals sign, the sign included. It comes behind the
rules for blanks, for marks and for closed quotes, and before all others, so at the start of a line
it is selected wherever those do not match and the line goes on with an equals sign.
-/

namespace MapHighlight

/-- What stands in a line before its first equals sign. -/
theorem exists_of_equals_mem_line {rest : Text} (h : '=' ∈ rest.takeWhile (· != '\n')) :
    ∃ before after, rest = before ++ '=' :: after ∧ '=' ∉ before ∧ '\n' ∉ before := by
  obtain ⟨before, later, hline, hequals⟩ := List.eq_append_cons_of_mem h
  refine ⟨before, later ++ rest.dropWhile (· != '\n'), ?_, hequals, fun hmem => ?_⟩
  · calc rest = rest.takeWhile (· != '\n') ++ rest.dropWhile (· != '\n') :=
          List.takeWhile_append_dropWhile.symm
      _ = before ++ '=' :: (later ++ rest.dropWhile (· != '\n')) := by
          rw [hline, List.append_assoc, List.cons_append]
  · have hinside : '\n' ∈ rest.takeWhile (· != '\n') := hline ▸ List.mem_append_left _ hmem
    simpa using List.mem_takeWhile_imp hinside

/-- Where only characters of a line are passed, the shortest way to an equals sign is the one to the
first of the line. -/
theorem Place.head?_flatMap_shortest (before : Option Char) (passed : Nat) (rest : Text) :
    (((runs CharSet.withinLine.contains ⟨before, passed, rest⟩).reverse.flatMap
        (next (· == '='))).head?).map (·.passed) =
      if '=' ∈ rest.takeWhile (· != '\n') then
        some (passed + (rest.takeWhile (· != '=')).length + 1)
      else none := by
  induction rest generalizing before passed with
  | nil => simp [runs, runsOnto, next]
  | cons d rest ih =>
    by_cases hd : d = '\n'
    · have haccepts : CharSet.withinLine.contains d = false := by simp [CharSet.contains, hd]
      rw [runs_eq_singleton rfl haccepts]
      simp [next, hd]
    · have haccepts : CharSet.withinLine.contains d = true := by simpa [CharSet.contains] using hd
      rw [runs_cons haccepts, List.reverse_concat, List.flatMap_cons]
      by_cases hequals : d = '='
      · simp [next, hequals]
      · have hnext : next (· == '=') ⟨before, passed, d :: rest⟩ = [] :=
          next_eq_nil (· == '=') rfl (by simpa using hequals)
        have hlength (n : Nat) : passed + (n + 1) + 1 = passed + 1 + n + 1 := by omega
        rw [hnext, List.nil_append, ih]
        simp [hd, hequals, Ne.symm hequals, hlength]

namespace Rule

variable {c : Char} {rest : Text} {atLineStart : Bool} {rule : Rule} {n : Nat}

/-- The header rule matches up to the first equals sign behind the first character, if the line has
one. -/
theorem matchLength_header (c : Char) (rest : Text) :
    header.matchLength (c :: rest) =
      if c ≠ '\n' ∧ '=' ∈ rest.takeWhile (· != '\n') then
        some ((rest.takeWhile (· != '=')).length + 2)
      else none := by
  by_cases hc : c = '\n'
  · have hopens : header.pattern.opensWith c = false := by rw [hc]; rfl
    rw [matchLength, Pattern.matchLength_eq_none hopens rfl, if_neg (fun h => h.1 hc)]
  · have hnext : Place.next CharSet.withinLine.contains (.atStart (c :: rest)) =
        [⟨some c, 1, rest⟩] := by
      simp [Place.next, Place.atStart, CharSet.contains, hc]
    have hends : header.pattern.ends (.atStart (c :: rest)) =
        (Place.runs CharSet.withinLine.contains ⟨some c, 1, rest⟩).reverse.flatMap
          (Place.next (· == '=')) := by
      simp only [pattern, Pattern.ends, hnext, List.flatMap_singleton]
    have hlength (n : Nat) : 1 + n + 1 = n + 2 := by omega
    rw [matchLength, Pattern.matchLength, hends, Place.head?_flatMap_shortest]
    simp [hc, hlength]

/-- The rules that match as soon as the first character is one of theirs. -/
def prompt : List Rule :=
  [newline, blank, comment, terminator, backslash, assign, integer, identifier]

/-- A first character that one of these rules may begin with is enough for it to match. -/
theorem matchLength_eq_none_iff_of_prompt (hrule : rule ∈ prompt) (c : Char) (rest : Text) :
    rule.matchLength (c :: rest) = none ↔ rule.pattern.opensWith c = false := by
  constructor
  · intro hnone
    by_contra hopens
    rw [Bool.not_eq_false] at hopens
    have hreads : rule.pattern.Reads [c] ∧ rule.pattern.asksBoundary = false := by
      fin_cases hrule <;> simp_all [pattern, Pattern.opensWith, Pattern.canBeEmpty, Pattern.Reads,
        Pattern.asksBoundary, List.singleton_eq_append_iff]
    exact (Pattern.matchLength_eq_none_iff hreads.2).mp hnone [c] ⟨rest, rfl⟩ hreads.1
  · intro hopens
    exact Pattern.matchLength_eq_none hopens (canBeEmpty_pattern rule) rest

/-- Whether a text that begins with a character is left alone by the rules before the header rule: it
begins neither with white space nor with a mark nor with a quote that is closed. -/
def IsUnmarked (c : Char) (rest : Text) : Prop :=
  Unicode.isWhiteSpace c = false ∧ c ∉ ['#', ';', '\\', '='] ∧ (c = '"' → '"' ∉ rest)

theorem IsUnmarked.ne_lineFeed (h : IsUnmarked c rest) : c ≠ '\n' := by
  rintro rfl
  exact absurd h.1 (by decide)

/-- The rules before the header rule leave alone what is unmarked. -/
theorem marks_eq_none_iff (c : Char) (rest : Text) :
    (∀ rule ∈ marks, rule.matchLength (c :: rest) = none) ↔ IsUnmarked c rest := by
  constructor
  · intro h
    have hopens (rule : Rule) (hrule : rule ∈ prompt) (hmark : rule ∈ marks) :
        rule.pattern.opensWith c = false :=
      (matchLength_eq_none_iff_of_prompt hrule c rest).mp (h rule hmark)
    have hnewline : (c == '\n') = false := hopens newline (by decide) (by decide)
    have hblank : (c != '\n' && Unicode.isWhiteSpace c) = false :=
      hopens blank (by decide) (by decide)
    refine ⟨by simpa [bne, hnewline] using hblank, ?_, ?_⟩
    · have hcomment := hopens comment (by decide) (by decide)
      have hterminator := hopens terminator (by decide) (by decide)
      have hbackslash := hopens backslash (by decide) (by decide)
      have hassign := hopens assign (by decide) (by decide)
      simp_all [pattern, Pattern.opensWith, Pattern.canBeEmpty]
    · rintro rfl hmem
      have hstring := h string (by decide)
      rw [matchLength_string_quote, if_pos hmem] at hstring
      contradiction
  · intro h rule hrule
    have hnewline := h.ne_lineFeed
    obtain ⟨hwhite, hmarks, hquote⟩ := h
    by_cases hopens : rule.pattern.opensWith c = true
    · -- Only a double quote can still begin a match here.
      obtain ⟨rfl, rfl⟩ : rule = string ∧ c = '"' := by
        fin_cases hrule <;>
          simp_all [pattern, Pattern.opensWith, Pattern.canBeEmpty, CharSet.contains]
      rw [matchLength_string_quote, if_neg (hquote rfl)]
    · rw [Bool.not_eq_true] at hopens
      exact Pattern.matchLength_eq_none hopens (canBeEmpty_pattern rule) rest

theorem earlier_header : header.earlier = marks := by
  decide

theorem isAnchored_of_mem_marks (h : rule ∈ marks) : rule.isAnchored = false := by
  fin_cases h <;> rfl

/-- The header rule is selected at the start of a line that goes on with an equals sign, unless an
earlier rule matches there. It takes the line up to the first equals sign. -/
theorem first?_eq_header_iff :
    first? (c :: rest) atLineStart = some (header, n) ↔
      (atLineStart = true ∧ IsUnmarked c rest ∧ '=' ∈ rest.takeWhile (· != '\n')) ∧
        n = (rest.takeWhile (· != '=')).length + 2 := by
  have hmarks : (∀ rule ∈ marks, (rule.isAnchored = true → atLineStart = true) →
      rule.matchLength (c :: rest) = none) ↔ IsUnmarked c rest := by
    rw [← marks_eq_none_iff]
    refine forall₂_congr fun rule hrule => ?_
    simp [isAnchored_of_mem_marks hrule]
  rw [first?_eq_some_iff, earlier_header, hmarks, matchLength_header]
  constructor
  · rintro ⟨⟨hstart, hlength⟩, hunmarked⟩
    split at hlength
    · rename_i hequals
      obtain rfl := Option.some.inj hlength
      exact ⟨⟨hstart rfl, hunmarked, hequals.2⟩, rfl⟩
    · contradiction
  · rintro ⟨⟨hstart, hunmarked, hequals⟩, rfl⟩
    exact ⟨⟨fun _ => hstart, if_pos ⟨hunmarked.ne_lineFeed, hequals⟩⟩, hunmarked⟩

end Rule

end MapHighlight
