import MapHighlight.Proofs.Cursor.Steps
import MapHighlight.Proofs.Rule.Selection
import MapHighlight.Proofs.Text.Boundaries

/-!
# Matches can be cut off

Whatever a rule matches is there to be taken: it has at least one character and no more than the
text has, and its bytes end between two characters. So no match is passed over for being empty, and
a cursor can always cut the bytes of its text behind what it takes. Apart from quoted texts, a match
has a line feed only at its end, and only two rules match one there.

A cut beyond the end of a text, or within a character, has no outcome here, so that it cannot be
mistaken for a shorter one.
-/

namespace MapHighlight

/-- The number of bytes before a character of a text, counted from zero, or before the end of the
text. Beyond the end there is no such number. -/
def Text.offset? : Text → Nat → Option Nat
  | _, 0 => some 0
  | [], _ + 1 => none
  | c :: text, n + 1 => (offset? text n).map (c.utf8Size + ·)

/-- Where a part of a text ends, its bytes end. -/
theorem Text.offset?_append (left right : Text) :
    offset? (left ++ right) left.length = some left.byteLength := by
  induction left with
  | nil => cases right <;> rfl
  | cons c left ih =>
    rw [List.cons_append, List.length_cons, offset?, ih, Option.map_some, byteLength_cons]

/-- Bytes cut in two, if there are so many of them and no character is cut. -/
def Utf8.cut? (bytes : List UInt8) (n : Nat) : Option (List UInt8 × List UInt8) :=
  if n ≤ bytes.length ∧ isBoundary bytes n = true then some (bytes.take n, bytes.drop n) else none

/-- The bytes of a text can be cut where a part of the text ends. -/
theorem Utf8.cut?_encode_append (left right : Text) :
    cut? (encode (left ++ right)) left.byteLength = some (encode left, encode right) := by
  have hboundary : isBoundary (encode (left ++ right)) left.byteLength = true :=
    isBoundary_encode_iff.mpr ⟨left, right, rfl, rfl⟩
  have hlength : left.byteLength ≤ (encode (left ++ right)).length := by
    rw [length_encode, Text.byteLength_append]
    exact Nat.le_add_right _ _
  obtain ⟨htake, hdrop⟩ := take_encode_append left right
  rw [cut?, if_pos ⟨hlength, hboundary⟩, htake, hdrop]

namespace Rule

variable {rule : Rule} {text lexeme : Text} {n : Nat}

/-- What a rule matches is the start of the text, a reading of its pattern, and not empty. -/
theorem exists_of_matchLength (h : rule.matchLength text = some n) :
    ∃ lexeme rest, text = lexeme ++ rest ∧ lexeme ≠ [] ∧ rule.pattern.Reads lexeme ∧
      n = lexeme.length := by
  have hlength : n ≤ text.length := Pattern.le_length_of_matchLength h
  have hreads : rule.pattern.Reads (text.take n) := Pattern.reads_take_of_matchLength h
  refine ⟨text.take n, text.drop n, (List.take_append_drop n text).symm, ?_, hreads,
    (List.length_take_of_le hlength).symm⟩
  intro hnil
  have hempty := Pattern.canBeEmpty_of_reads (hnil ▸ hreads)
  rw [canBeEmpty_pattern] at hempty
  contradiction

/-- A rule that reads a line feed is that of quoted texts, or it reads a line and nothing behind
it. -/
theorem isLine_of_reads (hreads : rule.pattern.Reads lexeme) (hmem : '\n' ∈ lexeme) :
    rule = string ∨ (rule = newline ∨ rule = continuation) ∧ lexeme.IsLine := by
  by_cases hstring : rule = string
  · exact .inl hstring
  by_cases hnewline : rule = newline
  · subst hnewline
    obtain rfl : lexeme = ['\n'] := hreads
    exact .inr ⟨.inl rfl, [], by simp, rfl⟩
  by_cases hcontinuation : rule = continuation
  · subst hcontinuation
    obtain ⟨_, _, rfl, rfl, rfl⟩ := hreads
    exact .inr ⟨.inr rfl, ['\\'], by decide, rfl⟩
  · have hstay := staysInLine_pattern hnewline hcontinuation hstring
    exact absurd hmem (Pattern.lineFeed_not_mem_of_reads hstay hreads)

/-- A line feed among the bytes that a rule reads stands in a quoted text, or it is the last byte of
a line end or of a continued line. -/
theorem lineFeed_of_reads (hreads : rule.pattern.Reads lexeme)
    (hmem : 10 ∈ Utf8.encode lexeme) :
    rule = string ∨ (rule = newline ∨ rule = continuation) ∧
      ∃ before, Utf8.encode lexeme = before ++ [10] ∧ 10 ∉ before := by
  refine (isLine_of_reads hreads (Utf8.lineFeed_mem_encode.mp hmem)).imp_right fun hends => ?_
  obtain ⟨before, hbefore, hencode⟩ := Utf8.encode_of_isLine hends.2
  exact ⟨hends.1, before, hencode, hbefore⟩

/-- It makes no difference that a match of the empty text does not count. -/
theorem first?_eq_findSome?_matchLength (text : Text) (atLineStart : Bool) :
    first? text atLineStart = all.findSome? fun rule =>
      if rule.isAnchored && !atLineStart then none
      else (rule.matchLength text).map fun n => (rule, n) := by
  unfold first?
  congr 1
  funext rule
  have hzero := Pattern.matchLength_ne_zero (canBeEmpty_pattern rule) text
  split
  · rfl
  · unfold matchLength
    split
    · rename_i n hn
      rw [hn, Option.map_some]
    · rename_i hnone
      cases hlength : rule.pattern.matchLength text with
      | none => rfl
      | some n =>
        cases n with
        | zero => exact absurd hlength hzero
        | succ n => exact absurd hlength (hnone n)

end Rule

namespace Cursor

/-- Where a cursor cuts the bytes of its text for the next step: behind what the first rule matches,
or behind one character if no rule matches. There is no such place in an empty text, nor for a match
that goes beyond the text. -/
def cutPoint? (cursor : Cursor) : Option Nat :=
  match Rule.first? cursor.rest cursor.atLineStart with
  | some (_, length) => Text.offset? cursor.rest length
  | none => cursor.rest.head?.map Char.utf8Size

/-- The next step takes what is in front of the cut, and the cursor goes on with what is behind it. -/
theorem exists_cutPoint? (cursor : Cursor) (hrest : cursor.rest ≠ []) :
    ∃ step next, cursor.step? = some (step, next) ∧
      cursor.cutPoint? = some step.token.lexeme.byteLength := by
  obtain ⟨c, rest, hcons⟩ := List.exists_cons_of_ne_nil hrest
  cases hfirst : Rule.first? (c :: rest) cursor.atLineStart with
  | none =>
    refine ⟨.unmatched cursor.location c, cursor.past [c] rest, ?_, ?_⟩
    · simp only [step?, hcons, hfirst]
    · simp only [cutPoint?, hcons, hfirst]
      rfl
  | some found =>
    obtain ⟨rule, n⟩ := found
    obtain ⟨lexeme, more, htext, -, -, rfl⟩ :=
      Rule.exists_of_matchLength (Rule.matchLength_of_first? hfirst).1
    have htake : (c :: rest).take lexeme.length = lexeme := by rw [htext, List.take_left]
    have hdrop : (c :: rest).drop lexeme.length = more := by rw [htext, List.drop_left]
    refine ⟨.matched cursor.location rule lexeme, cursor.past lexeme more, ?_, ?_⟩
    · simp only [step?, hcons, hfirst, htake, hdrop]
    · simp only [cutPoint?, hcons, hfirst]
      rw [htext]
      exact Text.offset?_append lexeme more

/-- Every match is usable, whichever rule it is of and whatever the text: it has a character at
least and no more characters than the text, its bytes are some and no more than those of the text,
they end between two characters, and a line feed among them stands in a quoted text or is the last
byte of a line end or of a continued line. So the first match may be chosen without passing over
empty ones. And a cursor anywhere before the end of the text finds a place to cut the bytes of the
text, takes what is in front of it, and goes on with what is behind it. -/
theorem matches_usable (text : Text) :
    (∀ rule n, Rule.matchLength rule text = some n →
      0 < n ∧ n ≤ text.length ∧ ∃ bytes, text.offset? n = some bytes ∧
        0 < bytes ∧ bytes ≤ text.byteLength ∧
        Utf8.isBoundary (Utf8.encode text) bytes = true ∧
        (10 ∈ (Utf8.encode text).take bytes →
          rule = .string ∨ (rule = .newline ∨ rule = .continuation) ∧
            ∃ before, (Utf8.encode text).take bytes = before ++ [10] ∧ 10 ∉ before)) ∧
    (∀ atLineStart, Rule.first? text atLineStart = Rule.all.findSome? fun rule =>
      if rule.isAnchored && !atLineStart then none
      else (rule.matchLength text).map fun n => (rule, n)) ∧
    ∀ location atLineStart, text ≠ [] →
      ∃ bytes step next, cutPoint? ⟨text, location, atLineStart⟩ = some bytes ∧ 0 < bytes ∧
        step? ⟨text, location, atLineStart⟩ = some (step, next) ∧
        Utf8.cut? (Utf8.encode text) bytes =
          some (Utf8.encode step.token.lexeme, Utf8.encode next.rest) := by
  refine ⟨fun rule n h => ?_, Rule.first?_eq_findSome?_matchLength text,
    fun location atLineStart htext => ?_⟩
  · obtain ⟨lexeme, rest, rfl, hne, hreads, rfl⟩ := Rule.exists_of_matchLength h
    have hpos : 0 < lexeme.length := List.length_pos_iff.mpr hne
    have hboundary : Utf8.isBoundary (Utf8.encode (lexeme ++ rest)) lexeme.byteLength = true :=
      Utf8.isBoundary_encode_iff.mpr ⟨lexeme, rest, rfl, rfl⟩
    refine ⟨hpos, ?_, _, Text.offset?_append lexeme rest,
      hpos.trans_le (Text.length_le_byteLength _), ?_, hboundary, ?_⟩
    · rw [List.length_append]
      exact Nat.le_add_right _ _
    · rw [Text.byteLength_append]
      exact Nat.le_add_right _ _
    · rw [(Utf8.take_encode_append lexeme rest).1]
      exact Rule.lineFeed_of_reads hreads
  · obtain ⟨step, next, hstep, hcut⟩ := exists_cutPoint? ⟨text, location, atLineStart⟩ htext
    have htakes := takes_of_step? hstep
    have hpos : 0 < step.token.lexeme.length := List.length_pos_iff.mpr htakes.lexeme_ne_nil
    have hsplit : step.token.lexeme ++ next.rest = text := htakes.lexeme_append_rest
    refine ⟨_, step, next, hcut, hpos.trans_le (Text.length_le_byteLength _), hstep, ?_⟩
    rw [← hsplit]
    exact Utf8.cut?_encode_append _ _

/-- A quoted text goes on over a line feed and characters of two bytes, and a continued line ends
with its line feed. -/
theorem matches_usable_of_line_feeds :
    (Rule.matchLength .string "\"é\n\"é".toList = some 4 ∧
      Text.offset? "\"é\n\"é".toList 4 = some 5 ∧
      Utf8.isBoundary (Utf8.encode "\"é\n\"é".toList) 5 = true ∧
      Utf8.cut? (Utf8.encode "\"é\n\"é".toList) 2 = none) ∧
    (Rule.matchLength .continuation "\\\né".toList = some 2 ∧
      ∃ before, (Utf8.encode "\\\né".toList).take 2 = before ++ [10] ∧ 10 ∉ before) ∧
    ∃ bytes step next, cutPoint? ⟨"é".toList, .start, false⟩ = some bytes ∧
      step? ⟨"é".toList, .start, false⟩ = some (step, next) ∧
      Utf8.cut? (Utf8.encode "é".toList) bytes =
        some (Utf8.encode step.token.lexeme, Utf8.encode next.rest) := by
  have hstring : Rule.matchLength .string "\"é\n\"é".toList = some 4 := by decide +kernel
  have hcontinuation : Rule.matchLength .continuation "\\\né".toList = some 2 := by
    decide +kernel
  have hfive : Text.offset? "\"é\n\"é".toList 4 = some 5 := by decide
  have htwo : Text.offset? "\\\né".toList 2 = some 2 := by decide
  obtain ⟨-, -, bytes, hbytes, -, -, hboundary, -⟩ :=
    (matches_usable "\"é\n\"é".toList).1 .string 4 hstring
  obtain rfl : 5 = bytes := Option.some.inj (hfive.symm.trans hbytes)
  obtain ⟨-, -, last, hlast, -, -, -, hends⟩ :=
    (matches_usable "\\\né".toList).1 .continuation 2 hcontinuation
  obtain rfl : 2 = last := Option.some.inj (htwo.symm.trans hlast)
  obtain ⟨bytes, step, next, hcut, -, hstep⟩ :=
    (matches_usable "é".toList).2.2 .start false (by decide)
  refine ⟨⟨hstring, hfive, hboundary, by decide +kernel⟩, ⟨hcontinuation, ?_⟩,
    bytes, step, next, hcut, hstep⟩
  rcases hends (by decide +kernel) with hquoted | ⟨-, hline⟩
  · contradiction
  · exact hline

end Cursor

end MapHighlight
