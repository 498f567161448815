import MapHighlight.Proofs.Pattern.LongestFirst
import MapHighlight.Proofs.Rule.Headers

/-!
# Which rule takes a number

A number is a float if it has a full stop or an exponent, and a run of digits otherwise. The pattern
for floats is a choice of three forms. What follows the digits at the start of a text decides
between them, up to whether digits stand in front of a full stop and behind it, so the pattern
matches the longest float, and the rule for runs of digits only sees digits that begin no float.
-/

namespace MapHighlight

namespace Text

/-- Whether all characters of a text are decimal digits. -/
def IsDigits (text : Text) : Prop :=
  ∀ c ∈ text, Unicode.isDecimalDigit c = true

instance (text : Text) : Decidable text.IsDigits :=
  decidable_of_iff (text.all Unicode.isDecimalDigit = true) List.all_eq_true

/-- Whether a text is an exponent: its mark, a sign that may be missing, and ASCII digits. -/
def IsExponent (text : Text) : Prop :=
  ∃ mark sign digits, text = mark :: (sign ++ digits) ∧ mark ∈ ['e', 'E'] ∧
    sign ∈ [[], ['+'], ['-']] ∧ digits ≠ [] ∧ ∀ c ∈ digits, c.isDigit = true

/-- Whether a text consists of digits around a full stop, on one side of which they may be
missing. -/
def IsFraction (text : Text) : Prop :=
  ∃ whole part : Text, text = whole ++ '.' :: part ∧ (whole ≠ [] ∨ part ≠ []) ∧ whole.IsDigits ∧
    part.IsDigits

/-- The texts of floats. -/
inductive IsFloat : Text → Prop
  | fraction {text : Text} : text.IsFraction → IsFloat text
  | scaledFraction {text exponent : Text} : text.IsFraction → exponent.IsExponent →
      IsFloat (text ++ exponent)
  | scaledWhole {whole exponent : Text} : whole ≠ [] → whole.IsDigits → exponent.IsExponent →
      IsFloat (whole ++ exponent)

end Text

namespace Rule

open Pattern

theorem reads_exponent_iff {text : Text} : exponent.Reads text ↔ text.IsExponent := by
  constructor
  · rintro ⟨_, _, rfl, ⟨mark, hmark, rfl⟩, sign, digits, rfl, hsign, hdigits⟩
    refine ⟨mark, sign, digits, rfl, by simpa [CharSet.contains] using hmark, ?_, hdigits⟩
    rcases hsign with rfl | ⟨c, hc, rfl⟩
    · simp
    · simpa [CharSet.contains] using hc
  · rintro ⟨mark, sign, digits, rfl, hmark, hsign, hdigits⟩
    refine ⟨[mark], _, rfl, ⟨mark, by simpa [CharSet.contains] using hmark, rfl⟩, sign, digits, rfl,
      ?_, hdigits⟩
    fin_cases hsign
    · exact .inl rfl
    · exact .inr ⟨'+', rfl, rfl⟩
    · exact .inr ⟨'-', rfl, rfl⟩

theorem reads_fraction_iff {text : Text} : fraction.Reads text ↔ text.IsFraction := by
  constructor
  · rintro (⟨whole, _, rfl, ⟨hne, hwhole⟩, _, part, rfl, rfl, hpart⟩ |
      ⟨whole, _, rfl, hwhole, _, part, rfl, rfl, hne, hpart⟩)
    · exact ⟨whole, part, rfl, .inl hne, hwhole, hpart⟩
    · exact ⟨whole, part, rfl, .inr hne, hwhole, hpart⟩
  · rintro ⟨whole, part, rfl, hne | hne, hwhole, hpart⟩
    · exact .inl ⟨whole, _, rfl, ⟨hne, hwhole⟩, ['.'], part, rfl, rfl, hpart⟩
    · exact .inr ⟨whole, _, rfl, hwhole, ['.'], part, rfl, rfl, hne, hpart⟩

/-- The pattern for floats describes the floats. -/
theorem reads_float_iff {text : Text} : float.pattern.Reads text ↔ text.IsFloat := by
  constructor
  · rintro (⟨number, _, rfl, hnumber, rfl | hexponent⟩ |
      ⟨whole, power, rfl, ⟨hne, hwhole⟩, hexponent⟩)
    · rw [List.append_nil]
      exact .fraction (reads_fraction_iff.mp hnumber)
    · exact .scaledFraction (reads_fraction_iff.mp hnumber) (reads_exponent_iff.mp hexponent)
    · exact .scaledWhole hne hwhole (reads_exponent_iff.mp hexponent)
  · rintro (hnumber | ⟨hnumber, hexponent⟩ | ⟨hne, hwhole, hexponent⟩)
    · exact .inl ⟨text, [], (List.append_nil text).symm, reads_fraction_iff.mpr hnumber, .inl rfl⟩
    · exact .inl ⟨_, _, rfl, reads_fraction_iff.mpr hnumber,
        .inr (reads_exponent_iff.mpr hexponent)⟩
    · exact .inr ⟨_, _, rfl, ⟨hne, hwhole⟩, reads_exponent_iff.mpr hexponent⟩

/-- The digits that a text begins with end where something else follows. -/
theorem digits_eq_takeWhile {digits rest text : Text} {c : Char} (hdigits : digits.IsDigits)
    (hc : Unicode.isDecimalDigit c = false) (hbegins : digits ++ c :: rest <+: text) :
    digits = text.takeWhile Unicode.isDecimalDigit ∧
      (text.dropWhile Unicode.isDecimalDigit).head? = some c := by
  obtain ⟨more, rfl⟩ := hbegins
  rw [List.append_assoc, List.takeWhile_append_of_pos hdigits, List.dropWhile_append_of_pos hdigits]
  simp [hc]

theorem longestFirst_exponent : exponent.LongestFirst := by
  refine .seq_of_isCharacter rfl (.seq_opt_of_isCharacter rfl ?_ rfl (.plus _))
  intro c hc
  have hsign : c = '+' ∨ c = '-' := by simpa [opensWith, CharSet.contains] using hc
  rcases hsign with rfl | rfl <;> rfl

theorem longestFirst_fraction : fraction.LongestFirst := by
  have hstop (second : Pattern) (c : Char) (hc : CharSet.digit.contains c = true) :
      (seq (.escaped '.') second).opensWith c = false := by
    have hne : c ≠ '.' := by
      rintro rfl
      contradiction
    simp [opensWith, canBeEmpty, hne]
  have hpoint {second : Pattern} (hsecond : second.LongestFirst) :
      (seq (.escaped '.') second).LongestFirst :=
    .seq_of_isCharacter rfl hsecond
  have hleft := LongestFirst.seq_plus (hstop _) rfl (hpoint (.star .digit))
  have hright := LongestFirst.seq_star (hstop _) rfl (hpoint (.plus .digit))
  refine hleft.alt hright fun place best hbest reached hreached => ?_
  obtain ⟨_, ⟨whole, _, rfl, ⟨hne, hwhole⟩, _, part, rfl, rfl, -⟩, hbegins, -⟩ :=
    isBehind_of_mem_ends (List.mem_of_head? hbest)
  obtain ⟨_, ⟨whole', _, rfl, hwhole', _, part', rfl, rfl, -, hpart'⟩, hbegins', rfl⟩ :=
    isBehind_of_mem_ends hreached
  -- Both numbers begin with the same digits, so the left side could have matched the right one.
  have hdigits := (digits_eq_takeWhile hwhole rfl hbegins).1
  have hdigits' := (digits_eq_takeWhile hwhole' rfl hbegins').1
  obtain rfl := hdigits.trans hdigits'.symm
  refine hleft place best hbest _ (mem_ends_of_isBehind rfl ⟨_, ?_, hbegins', rfl⟩)
  exact ⟨whole, _, rfl, ⟨hne, hwhole⟩, ['.'], part', rfl, rfl, hpart'⟩

/-- An exponent begins with no character of a fraction. -/
theorem opensWith_exponent {c : Char} (hc : c = '.' ∨ Unicode.isDecimalDigit c = true) :
    exponent.opensWith c = false := by
  rw [← Bool.not_eq_true]
  intro hopens
  have hmark : c = 'e' ∨ c = 'E' := by
    simpa [exponent, opensWith, canBeEmpty, CharSet.contains] using hopens
  rcases hmark with rfl | rfl <;> exact absurd hc (by decide)

/-- Of the floats that a text begins with, the pattern for floats matches the longest. -/
theorem longestFirst_float : float.pattern.LongestFirst := by
  have hinside (part : Text) (hpart : fraction.Reads part) (c : Char) (hc : c ∈ part) :
      exponent.opensWith c = false := by
    obtain ⟨whole, part, rfl, -, hwhole, hpart⟩ := reads_fraction_iff.mp hpart
    refine opensWith_exponent ?_
    rcases List.mem_append.mp hc with hc | hc
    · exact .inr (hwhole c hc)
    · exact (List.mem_cons.mp hc).imp_right (hpart c)
  have hleft : (seq (.group fraction) (.opt (.group exponent))).LongestFirst :=
    LongestFirst.seq_opt longestFirst_fraction longestFirst_exponent hinside
  have hright : (seq (.plus .digit) exponent).LongestFirst :=
    LongestFirst.seq_plus (fun c hc => opensWith_exponent (.inr hc)) rfl longestFirst_exponent
  refine hleft.alt hright fun place best hbest reached hreached => ?_
  -- Behind the digits there is a full stop for the left side and a mark for the right one.
  obtain ⟨_, ⟨number, power, rfl, hnumber, -⟩, hbegins, -⟩ :=
    isBehind_of_mem_ends (List.mem_of_head? hbest)
  obtain ⟨whole, part, rfl, -, hwhole, -⟩ := reads_fraction_iff.mp hnumber
  obtain ⟨_, ⟨whole', _, rfl, ⟨-, hwhole'⟩, _, _, rfl, ⟨mark, hmark, rfl⟩, -⟩, hbegins', -⟩ :=
    isBehind_of_mem_ends hreached
  rw [List.append_assoc] at hbegins
  have hpoint := (digits_eq_takeWhile hwhole rfl hbegins).2
  have hdigit : Unicode.isDecimalDigit mark = false ∧ mark ≠ '.' := by
    have hmem : mark = 'e' ∨ mark = 'E' := by simpa [CharSet.contains] using hmark
    rcases hmem with rfl | rfl <;> decide
  have hpower := (digits_eq_takeWhile hwhole' hdigit.1 hbegins').2
  rw [hpoint, Option.some.injEq] at hpower
  exact absurd hpower.symm hdigit.2

/-- The float rule does not match where a text begins with no float. -/
theorem matchLength_float_eq_none_iff {text : Text} :
    float.matchLength text = none ↔ ∀ part : Text, part <+: text → ¬ part.IsFloat := by
  simp only [matchLength, matchLength_eq_none_iff (show float.pattern.asksBoundary = false from rfl),
    reads_float_iff]

/-- Where it matches, the float rule takes the longest float. -/
theorem isLongestStart_of_matchLength_float {text : Text} {n : Nat}
    (h : float.matchLength text = some n) :
    Text.IsLongestStart Text.IsFloat text (text.take n) ∧ (text.take n).length = n := by
  obtain ⟨⟨hbegins, hreads, hle⟩, hlength⟩ := longestFirst_float.exists_isLongestStart rfl h
  exact ⟨⟨hbegins, reads_float_iff.mp hreads,
    fun other hother hfloat => hle other hother (reads_float_iff.mpr hfloat)⟩, hlength⟩

section Start

variable {c : Char} {rest : Text} {atLineStart : Bool}

/-- Where no mark, no header and no word begins, only the rules for numbers are left. -/
theorem first?_of_isUnmarked (hunmarked : IsUnmarked c rest)
    (hname : CharSet.nameStart.contains c = false)
    (hline : atLineStart = true → '=' ∉ rest.takeWhile (· != '\n')) :
    first? (c :: rest) atLineStart =
      ((float.matchLength (c :: rest)).map (float, ·)).or
        ((integer.matchLength (c :: rest)).map (integer, ·)) := by
  have hmarks : marks.findSome? (candidate? (c :: rest) atLineStart) = none := by
    refine List.findSome?_eq_none_iff.mpr fun rule hrule => candidate?_eq_none ?_ _
    exact (marks_eq_none_iff c rest).mpr hunmarked rule hrule
  have hheader : candidate? (c :: rest) atLineStart header = none := by
    refine candidate?_eq_none_iff.mpr fun hstart => ?_
    rw [matchLength_header, if_neg fun h => hline (hstart rfl) h.2]
  have hwords : wordRules.findSome? (candidate? (c :: rest) atLineStart) = none := by
    refine List.findSome?_eq_none_iff.mpr fun rule hrule => candidate?_eq_none ?_ _
    exact matchLength_of_mem_wordRules hrule hname rest
  have hidentifier : candidate? (c :: rest) atLineStart identifier = none := by
    refine candidate?_eq_none ?_ _
    rw [matchLength_eq_none_iff_of_prompt (by decide)]
    simpa [pattern, opensWith, canBeEmpty] using hname
  have hnumber (rule : Rule) (h : rule.isAnchored = false) :=
    candidate?_of_isAnchored_eq_false h (c :: rest) atLineStart
  simp only [first?_eq_findSome?, all_eq, List.findSome?_append, List.findSome?_singleton, hmarks,
    hheader, hwords, hidentifier, Option.none_or, Option.or_none]
  rw [List.findSome?_cons, List.findSome?_singleton, hnumber float rfl, hnumber integer rfl]
  cases float.matchLength (c :: rest) <;> rfl

/-- A digit or a full stop begins no mark. -/
theorem isUnmarked_of_number (hc : Unicode.isDecimalDigit c = true ∨ c = '.') (rest : Text) :
    IsUnmarked c rest := by
  have hapart : ∀ range ∈ Unicode.decimalDigitRanges, ∀ other ∈ Unicode.whiteSpaceRanges,
      range.2 < other.1 ∨ other.2 < range.1 := by decide +kernel
  rcases hc with hdigit | rfl
  · refine ⟨Unicode.CodePointRanges.contains_eq_false_of_apart hapart hdigit, ?_, ?_⟩
    · intro hmem
      fin_cases hmem <;> contradiction
    · rintro rfl
      contradiction
  · exact ⟨by decide, by decide, by simp⟩

/-- A digit or a full stop begins no name. -/
theorem nameStart_of_number (hc : Unicode.isDecimalDigit c = true ∨ c = '.') :
    CharSet.nameStart.contains c = false := by
  have hall : ∀ c : Char, c.toNat < 128 → CharSet.nameStart.contains c = true →
      Unicode.isDecimalDigit c = false ∧ c ≠ '.' := forall_ascii (by decide +kernel)
  rw [← Bool.not_eq_true]
  intro hname
  have hneither := hall c (CharSet.toNat_lt_of_nameStart hname) hname
  simp [hneither] at hc

/-- A run of digits is matched as far as it goes. -/
theorem matchLength_integer (c : Char) (rest : Text) :
    integer.matchLength (c :: rest) =
      if Unicode.isDecimalDigit c then
        some ((c :: rest).takeWhile Unicode.isDecimalDigit).length
      else none := by
  split
  · rename_i hdigit
    have hset : CharSet.digit.contains c = true := hdigit
    exact matchLength_plus hset rest
  · rename_i hdigit
    rw [matchLength_eq_none_iff_of_prompt (by decide)]
    exact Bool.not_eq_true _ ▸ hdigit

/-- The first character that is no digit begins a float only if it is a full stop in front of a
digit. -/
theorem exists_isFloat_iff (hc : Unicode.isDecimalDigit c = false) (rest : Text) :
    (∃ part : Text, part <+: c :: rest ∧ part.IsFloat) ↔
      c = '.' ∧ rest.head?.any Unicode.isDecimalDigit = true := by
  have hdigit {d : Char} {whole text : Text} (hwhole : Text.IsDigits (d :: whole))
      (hbegins : d :: text <+: c :: rest) : False := by
    obtain ⟨rfl, -⟩ := List.cons_prefix_cons.mp hbegins
    rw [hwhole d List.mem_cons_self] at hc
    contradiction
  have hfraction {part : Text} (hbegins : part <+: c :: rest) (hfloat : part.IsFloat) :
      ∃ number : Text, number <+: c :: rest ∧ number.IsFraction := by
    cases hfloat with
    | fraction hnumber => exact ⟨_, hbegins, hnumber⟩
    | scaledFraction hnumber => exact ⟨_, (List.prefix_append _ _).trans hbegins, hnumber⟩
    | scaledWhole hne hwhole =>
      obtain ⟨d, whole, rfl⟩ := List.exists_cons_of_ne_nil hne
      exact (hdigit hwhole hbegins).elim
  constructor
  · rintro ⟨part, hbegins, hfloat⟩
    obtain ⟨_, hnumber, whole, part, rfl, hne, hwhole, hpart⟩ := hfraction hbegins hfloat
    cases whole with
    | nil =>
      obtain ⟨rfl, more, rfl⟩ := List.cons_prefix_cons.mp hnumber
      obtain ⟨d, part, rfl⟩ := List.exists_cons_of_ne_nil (hne.resolve_left (by simp))
      exact ⟨rfl, hpart d List.mem_cons_self⟩
    | cons d whole => exact (hdigit hwhole hnumber).elim
  · rintro ⟨rfl, hnext⟩
    cases rest with
    | nil => simp at hnext
    | cons d rest =>
      have hpart : Text.IsDigits [d] := by simpa [Text.IsDigits] using hnext
      have hnumber : Text.IsFraction ['.', d] :=
        ⟨[], [d], rfl, .inr (by simp), by simp [Text.IsDigits], hpart⟩
      exact ⟨['.', d], ⟨rest, rfl⟩, .fraction hnumber⟩

/-- Numbers take the longest reading. At a digit or a full stop the longest float is taken, if the
text begins with a float, and otherwise the longest run of digits, if it begins with a digit. At the
start of a line the same is taken unless the line has an equals sign, which makes it a header. -/
theorem first?_takes_longest_number (hc : Unicode.isDecimalDigit c = true ∨ c = '.')
    (rest : Text) :
    ((∃ part : Text, part <+: c :: rest ∧ part.IsFloat) →
      ∃ number, Text.IsLongestStart Text.IsFloat (c :: rest) number ∧
        first? (c :: rest) false = some (float, number.length)) ∧
    ((∀ part : Text, part <+: c :: rest → ¬ part.IsFloat) →
      first? (c :: rest) false =
        if Unicode.isDecimalDigit c then
          some (integer, ((c :: rest).takeWhile Unicode.isDecimalDigit).length)
        else none) ∧
    (first? (c :: rest) true = first? (c :: rest) false ↔
      '=' ∉ (c :: rest).takeWhile (· != '\n')) := by
  have hunmarked := isUnmarked_of_number hc rest
  have hname := nameStart_of_number hc
  have hinner : first? (c :: rest) false = _ := first?_of_isUnmarked hunmarked hname (by simp)
  refine ⟨fun ⟨part, hpart, hfloat⟩ => ?_, fun hnone => ?_, ?_⟩
  · obtain ⟨n, hn⟩ : ∃ n, float.matchLength (c :: rest) = some n :=
      exists_matchLength_of_reads rfl (reads_float_iff.mpr hfloat) hpart
    obtain ⟨hlongest, hlength⟩ := isLongestStart_of_matchLength_float hn
    refine ⟨_, hlongest, ?_⟩
    rw [hinner, hn, hlength]
    rfl
  · rw [hinner, matchLength_float_eq_none_iff.mpr hnone, matchLength_integer]
    split <;> rfl
  · have hline : '=' ∉ (c :: rest).takeWhile (· != '\n') ↔ '=' ∉ rest.takeWhile (· != '\n') := by
      have hequals : c ≠ '=' := fun h => hunmarked.2.1 (by simp [h])
      rw [List.takeWhile_cons_of_pos (by simpa using hunmarked.ne_lineFeed)]
      simp [Ne.symm hequals]
    rw [hline]
    constructor
    · intro hsame hmem
      have hheader : first? (c :: rest) true = some (header, _) :=
        first?_eq_header_iff.mpr ⟨⟨rfl, hunmarked, hmem⟩, rfl⟩
      rw [hsame] at hheader
      exact absurd (first?_eq_header_iff.mp hheader).1.1 (by decide)
    · intro hmem
      rw [hinner, first?_of_isUnmarked hunmarked hname fun _ => hmem]

/-- The digits around a full stop may be of different scripts, but those of an exponent may not, and
an exponent without digits is no part of a number. -/
theorem first?_takes_longest_number_of_two_scripts :
    (∃ number, Text.IsLongestStart Text.IsFloat "1.٥e+2٣\n=".toList number ∧
      first? "1.٥e+2٣\n=".toList false = some (float, number.length)) ∧
    first? "1.٥e+2٣\n=".toList false = some (float, 6) ∧
    first? "1.٥e+2٣\n=".toList true = first? "1.٥e+2٣\n=".toList false ∧
    first? "12e+".toList false = some (integer, 2) := by
  have hone : Unicode.isDecimalDigit '1' = true ∨ '1' = '.' := .inl (by decide)
  have hfloat : Text.IsFloat "1.٥".toList :=
    .fraction ⟨['1'], ['٥'], rfl, .inl (by decide), by decide, by decide⟩
  have hnone : ∀ part : Text, part <+: "12e+".toList → ¬ part.IsFloat :=
    matchLength_float_eq_none_iff.mp (by decide +kernel)
  obtain ⟨hlongest, -, hstart⟩ := first?_takes_longest_number hone ".٥e+2٣\n=".toList
  obtain ⟨-, hdigits, -⟩ := first?_takes_longest_number hone "2e+".toList
  refine ⟨hlongest ⟨_, ⟨"e+2٣\n=".toList, rfl⟩, hfloat⟩, by decide +kernel, ?_, ?_⟩
  · exact hstart.mpr (by decide)
  · rw [show "12e+".toList = '1' :: "2e+".toList from rfl, hdigits hnone]
    decide +kernel

end Start

end Rule

end MapHighlight
