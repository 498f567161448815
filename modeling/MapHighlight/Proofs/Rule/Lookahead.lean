import MapHighlight.Rule
import MapHighlight.Proofs.Pattern.Lookahead
import MapHighlight.Proofs.Pattern.Runs
import MapHighlight.Proofs.Text.Lines
import Mathlib.Data.List.TakeWhile
import Mathlib.Tactic.FinCases

/-!
# How far the rules look

Every rule but one stops at the end of a line, so text that is added behind a line feed changes
nothing for a cursor before it. The exception is the closed text in double quotes, which may run
over any number of lines: it is chosen exactly if another double quote follows, and it ends there.
-/

namespace MapHighlight

namespace Rule

/-- The rules that accept no line feed: all but those for line ends and for closed quotes. -/
theorem staysInLine_pattern {rule : Rule} (hnewline : rule ≠ newline)
    (hcontinuation : rule ≠ continuation) (hstring : rule ≠ string) :
    rule.pattern.staysInLine = true := by
  cases rule <;> first | contradiction | decide +kernel

private theorem matchLength_string_of_head? {text : Text} (hquote : text.head? ≠ some '"') :
    string.matchLength text = none := by
  cases text with
  | nil => rfl
  | cons c text =>
    have hc : c ≠ '"' := by simpa using hquote
    simp [matchLength, pattern, Pattern.matchLength, Pattern.ends, Place.next, Place.atStart, hc]

/-- Text that is added behind a line feed changes no rule's match, unless the text starts with a
double quote. -/
theorem matchLength_append {text : Text} (hline : '\n' ∈ text) (hquote : text.head? ≠ some '"')
    (more : Text) (rule : Rule) : rule.matchLength (text ++ more) = rule.matchLength text := by
  have hplace : '\n' ∈ (Place.atStart text).rest := hline
  by_cases hstring : rule = string
  · have hmore : (text ++ more).head? ≠ some '"' := by
      rwa [List.head?_append_of_ne_nil _ (List.ne_nil_of_mem hline)]
    rw [hstring, matchLength_string_of_head? hquote, matchLength_string_of_head? hmore]
  apply Pattern.matchLength_append_of_ends
  by_cases hnewline : rule = newline
  · rw [hnewline]
    exact Place.next_extend (List.ne_nil_of_mem hplace) more
  by_cases hcontinuation : rule = continuation
  · rw [hcontinuation]
    exact Pattern.ends_seq_lineFeed_extend rfl hplace more
  · exact Pattern.ends_extend (staysInLine_pattern hnewline hcontinuation hstring) hplace more

/-- Text that is added behind a line feed does not change which rule wins nor how much it takes,
unless the text starts with a double quote. -/
theorem first?_append {text : Text} (hline : '\n' ∈ text) (hquote : text.head? ≠ some '"')
    (more : Text) (atLineStart : Bool) :
    first? (text ++ more) atLineStart = first? text atLineStart := by
  unfold first?
  simp only [matchLength_append hline hquote more]

/-- A rule that wins matches, and an anchored rule wins only at the start of a line. -/
theorem matchLength_of_first? {text : Text} {atLineStart : Bool} {rule : Rule} {n : Nat}
    (h : first? text atLineStart = some (rule, n)) :
    rule.matchLength text = some n ∧ (rule.isAnchored = true → atLineStart = true) := by
  obtain ⟨candidate, _, hmatch⟩ := List.exists_of_findSome?_eq_some h
  split at hmatch
  · contradiction
  · rename_i hanchored
    split at hmatch
    · rename_i m hlength
      cases hmatch
      exact ⟨hlength, by simpa using hanchored⟩
    · contradiction

/-- A closed quote is matched up to the next double quote, and only if there is one. -/
theorem matchLength_string_quote (rest : Text) :
    string.matchLength ('"' :: rest) =
      if '"' ∈ rest then some ((rest.takeWhile (· != '"')).length + 2) else none := by
  have hstep (place : Place) (c : Char) (after : Text) (hrest : place.rest = c :: after)
      (hc : CharSet.unquoted.contains c = true) : place.next (· == '"') = [] := by
    have hne : c ≠ '"' := by simpa [CharSet.contains] using hc
    simp [Place.next, hrest, hne]
  have hends : string.pattern.ends (.atStart ('"' :: rest)) =
      ((⟨some '"', 1, rest⟩ : Place).pastRun (· != '"')).next (· == '"') := by
    change ((Place.next (· == '"') (.atStart ('"' :: rest))).flatMap fun place =>
      (place.runs CharSet.unquoted.contains).flatMap (Place.next (· == '"'))) = _
    simp only [Place.flatMap_runs hstep]
    exact List.append_nil _
  unfold matchLength Pattern.matchLength
  rw [hends]
  by_cases hmem : '"' ∈ rest
  · obtain ⟨before, after, rfl, hbefore⟩ := List.eq_append_cons_of_mem hmem
    have hlength (n : Nat) : 1 + n + 1 = n + 2 := by omega
    simp [Place.next, Place.pastRun, takeWhile_append_delimiter hbefore,
      dropWhile_append_delimiter hbefore, hlength]
  · have hnil : rest.dropWhile (· != '"') = [] := by
      rw [List.dropWhile_eq_nil_iff]
      intro c hc
      have hne : c ≠ '"' := fun h => hmem (h ▸ hc)
      simpa using hne
    simp [Place.next, Place.pastRun, hnil, hmem]

/-- At a double quote that another one follows, the rule for closed quotes wins and takes the text
up to that other one. -/
theorem first?_quote_of_mem {rest : Text} (hmem : '"' ∈ rest) (atLineStart : Bool) :
    first? ('"' :: rest) atLineStart =
      some (string, (rest.takeWhile (· != '"')).length + 2) := by
  have hstring := matchLength_string_quote rest
  rw [if_pos hmem] at hstring
  have hearlier : ∀ rule ∈ [newline, blank, comment, terminator, continuation, backslash, assign],
      rule.matchLength ('"' :: rest) = none := by
    intro rule hrule
    fin_cases hrule <;> rfl
  simp only [List.forall_mem_cons] at hearlier
  obtain ⟨h1, h2, h3, h4, h5, h6, h7, -⟩ := hearlier
  simp [first?, all, h1, h2, h3, h4, h5, h6, h7, hstring, isAnchored]

/-- At a double quote that no other one follows, the rule for closed quotes does not win. -/
theorem ne_string_of_first?_quote {rest : Text} (hmem : '"' ∉ rest) {atLineStart : Bool}
    {rule : Rule} {n : Nat} (h : first? ('"' :: rest) atLineStart = some (rule, n)) :
    rule ≠ string := by
  rintro rfl
  have hlength := (matchLength_of_first? h).1
  rw [matchLength_string_quote, if_neg hmem] at hlength
  contradiction

/-- On a line that does not start with a double quote the choice depends on that line alone, and
what is taken ends with it. -/
theorem first?_of_isLine {line rest : Text} (hline : line.IsLine) (hrest : line <+: rest)
    (hquote : line.head? ≠ some '"') (atLineStart : Bool) :
    first? rest atLineStart = first? line atLineStart ∧
    ∀ rule n, first? rest atLineStart = some (rule, n) → n ≤ line.length := by
  obtain ⟨more, rfl⟩ := hrest
  obtain ⟨content, -, rfl⟩ := hline
  have hfirst := first?_append (by simp) hquote more atLineStart
  refine ⟨hfirst, fun rule n hrule => ?_⟩
  rw [hfirst] at hrule
  exact Pattern.le_length_of_matchLength (matchLength_of_first? hrule).1

/-- The rules look no further than they must. Texts that agree up to and including their first line
feed and do not start with a double quote give the same rule and length, and what is taken does not
go past that line feed. Of a text that starts with a double quote, the rule for closed quotes takes
what leads up to the next double quote, whatever comes behind it, and it wins only if there is
one. -/
theorem first?_lookahead (atLineStart : Bool) :
    (∀ line rest rest' : Text, line.IsLine → line <+: rest → line <+: rest' →
      rest.head? ≠ some '"' →
      first? rest atLineStart = first? rest' atLineStart ∧
      ∀ rule n, first? rest atLineStart = some (rule, n) →
        n ≤ line.length ∧ rest.take n = rest'.take n) ∧
    (∀ rest : Text, (∃ n, first? ('"' :: rest) atLineStart = some (string, n)) ↔ '"' ∈ rest) ∧
    ∀ inner after : Text, '"' ∉ inner →
      first? ('"' :: inner ++ '"' :: after) atLineStart = some (string, inner.length + 2) := by
  refine ⟨fun line rest rest' hline hrest hrest' hquote => ?_, fun rest => ⟨?_, ?_⟩, ?_⟩
  · have hhead : line.head? ≠ some '"' := by
      obtain ⟨more, rfl⟩ := hrest
      obtain ⟨content, -, rfl⟩ := hline
      rwa [List.head?_append_of_ne_nil _ (by simp)] at hquote
    obtain ⟨hfirst, hlength⟩ := first?_of_isLine hline hrest hhead atLineStart
    obtain ⟨hfirst', -⟩ := first?_of_isLine hline hrest' hhead atLineStart
    refine ⟨hfirst.trans hfirst'.symm, fun rule n hrule => ?_⟩
    have hle := hlength rule n hrule
    refine ⟨hle, ?_⟩
    obtain ⟨more, rfl⟩ := hrest
    obtain ⟨more', rfl⟩ := hrest'
    rw [List.take_append_of_le_length hle, List.take_append_of_le_length hle]
  · rintro ⟨n, hstring⟩
    by_contra hmem
    exact ne_string_of_first?_quote hmem hstring rfl
  · intro hmem
    exact ⟨_, first?_quote_of_mem hmem atLineStart⟩
  · intro inner after hinner
    have hfirst := first?_quote_of_mem (by simp : '"' ∈ inner ++ '"' :: after) atLineStart
    rwa [takeWhile_append_delimiter hinner] at hfirst

/-- A keyword at the end of a line is taken whatever the next line starts with. -/
theorem first?_lookahead_of_keyword :
    Text.IsLine "down\n".toList ∧
    first? "down\nx".toList false = first? "down\n=\"".toList false ∧
    first? "down\nx".toList false = some (keyword, 4) ∧ 4 ≤ "down\n".toList.length ∧
    first? "\"a\nb\"c".toList true = some (string, 5) := by
  have hline : Text.IsLine "down\n".toList := ⟨"down".toList, by decide, by decide⟩
  have hkeyword : first? "down\nx".toList false = some (keyword, 4) := by decide +kernel
  obtain ⟨hsame, hlength⟩ := (first?_lookahead false).1 "down\n".toList "down\nx".toList
    "down\n=\"".toList hline ⟨['x'], rfl⟩ ⟨"=\"".toList, rfl⟩ (by decide)
  refine ⟨hline, hsame, hkeyword, (hlength keyword 4 hkeyword).1, ?_⟩
  exact (first?_lookahead true).2.2 "a\nb".toList ['c'] (by decide)

end Rule

end MapHighlight
