import MapHighlight.Proofs.Pattern.Openings
import MapHighlight.Proofs.Pattern.WholeWords
import MapHighlight.Proofs.Rule.Lookahead

/-!
# Which rule takes a word

At a letter or an underscore only the header rule, the word lists and the rule for other words can
match. The word lists compare the whole word of the text with their own, so a word is classified by
the first list that has it, and every other word is taken as an identifier.
-/

namespace MapHighlight

/-- The characters of ASCII can be gone through one by one. -/
theorem forall_ascii {P : Char → Prop} (h : ∀ n < 128, P (Char.ofNat n)) :
    ∀ c : Char, c.toNat < 128 → P c := by
  intro c hc
  have hc := h c.toNat hc
  rwa [Char.ofNat_toNat] at hc

/-- Letters and the underscore are characters of ASCII. -/
theorem CharSet.toNat_lt_of_nameStart {c : Char} (h : nameStart.contains c = true) :
    c.toNat < 128 := by
  change (decide (65 ≤ c.val ∧ c.val ≤ 90) ||
    decide (97 ≤ c.val) && decide (c.val ≤ 122) || c == '_') = true at h
  simp only [Bool.or_eq_true, Bool.and_eq_true, decide_eq_true_eq, beq_iff_eq,
    UInt32.le_iff_toNat_le] at h
  change ((65 ≤ c.toNat ∧ c.toNat ≤ 90) ∨ (97 ≤ c.toNat ∧ c.toNat ≤ 122)) ∨ c = '_' at h
  rcases h with (hupper | hlower) | rfl
  · omega
  · omega
  · decide

/-- What begins a name may also be further inside it. -/
theorem CharSet.namePart_of_nameStart {c : Char} (h : nameStart.contains c = true) :
    namePart.contains c = true := by
  simp only [contains, Char.isAlphanum, Bool.or_eq_true] at h ⊢
  rcases h with halpha | hunderscore
  · exact .inl (.inl (.inl halpha))
  · exact .inl (.inr hunderscore)

namespace Rule

variable {text : Text} {atLineStart : Bool} {rule : Rule} {words : WordList}

/-- What a rule offers for the start of a text: the rule with the number of characters that it
takes, unless it does not apply or takes none. -/
def candidate? (text : Text) (atLineStart : Bool) (rule : Rule) : Option (Rule × Nat) :=
  if rule.isAnchored && !atLineStart then none
  else match rule.matchLength text with
    | some (n + 1) => some (rule, n + 1)
    | _ => none

/-- The rule that wins is the first one that offers something. -/
theorem first?_eq_findSome? (text : Text) (atLineStart : Bool) :
    first? text atLineStart = all.findSome? (candidate? text atLineStart) := rfl

theorem candidate?_eq_none (h : rule.matchLength text = none) (atLineStart : Bool) :
    candidate? text atLineStart rule = none := by
  simp [candidate?, h]

/-- What a rule offers has its name on it. -/
theorem eq_of_candidate? {found : Rule × Nat} (h : candidate? text atLineStart rule = some found) :
    found.1 = rule := by
  unfold candidate? at h
  split at h
  · contradiction
  · split at h
    · cases h
      rfl
    · contradiction

/-- The word list of a rule, if the rule is for one. -/
def wordList? : Rule → Option WordList
  | structureWord => some Vocabulary.structures
  | specialWord => some Vocabulary.specials
  | keyword => some Vocabulary.keywords
  | builtin => some Vocabulary.builtins
  | direction => some Vocabulary.directions
  | obsolete => some Vocabulary.obsolete
  | _ => none

/-- The lists of the vocabulary hold words only. -/
theorem isWord_of_wordList? (h : rule.wordList? = some words) :
    ∀ word ∈ words.toList, word.IsWord := by
  cases rule <;> cases h <;> decide +kernel

theorem pattern_of_wordList? (h : rule.wordList? = some words) : rule.pattern = words.pattern := by
  cases rule <;> cases h <;> rfl

/-- The rule of a word list matches the first word of the text if the list has it. -/
theorem matchLength_of_wordList? (h : rule.wordList? = some words) (text : Text) :
    rule.matchLength text =
      if text.firstWord ∈ words.toList then some text.firstWord.length else none := by
  rw [matchLength, pattern_of_wordList? h, WordList.matchLength_pattern (isWord_of_wordList? h)]

/-- The rule of a word list offers the first word of the text if the list has it. -/
theorem candidate?_of_wordList? (h : rule.wordList? = some words) (text : Text)
    (atLineStart : Bool) :
    candidate? text atLineStart rule =
      if (rule.isAnchored = true → atLineStart = true) ∧ text.firstWord ∈ words.toList then
        some (rule, text.firstWord.length)
      else none := by
  have hwords := isWord_of_wordList? h
  rw [candidate?, matchLength_of_wordList? h]
  by_cases hmem : text.firstWord ∈ words.toList
  · obtain ⟨n, hn⟩ : ∃ n, text.firstWord.length = n + 1 :=
      Nat.exists_eq_succ_of_ne_zero fun hzero =>
        (hwords _ hmem).1 (List.length_eq_zero_iff.mp hzero)
    cases hanchored : rule.isAnchored <;> cases atLineStart <;> simp [hmem, hn]
  · simp [hmem]

/-- Among rules to try, the rule of a word list wins if the list has the first word, and otherwise it
leaves the text to the rules after it. -/
theorem findSome?_cons_of_wordList? (h : rule.wordList? = some words) (text : Text)
    (atLineStart : Bool) (rules : List Rule) :
    (rule :: rules).findSome? (candidate? text atLineStart) =
      if (rule.isAnchored = true → atLineStart = true) ∧ text.firstWord ∈ words.toList then
        some (rule, text.firstWord.length)
      else rules.findSome? (candidate? text atLineStart) := by
  rw [List.findSome?_cons, candidate?_of_wordList? h]
  by_cases hoffers : (rule.isAnchored = true → atLineStart = true) ∧ text.firstWord ∈ words.toList
  · rw [if_pos hoffers, if_pos hoffers]
  · rw [if_neg hoffers, if_neg hoffers]

/-- The rules that are tried before the header rule. -/
def marks : List Rule :=
  [newline, blank, comment, terminator, continuation, backslash, assign, string]

/-- The rules of the word lists, in the order in which they are tried. -/
def wordRules : List Rule :=
  [structureWord, specialWord, keyword, builtin, direction, obsolete]

theorem all_eq : all = marks ++ ([header] ++ (wordRules ++ ([float, integer] ++ [identifier]))) :=
  rfl

/-- A letter or an underscore begins no mark and no number. -/
theorem candidate?_of_nameStart {c : Char} (hc : CharSet.nameStart.contains c = true)
    (rest : Text) (atLineStart : Bool) :
    ∀ rule ∈ marks ++ [float, integer], candidate? (c :: rest) atLineStart rule = none := by
  have hall : ∀ c : Char, c.toNat < 128 → CharSet.nameStart.contains c = true →
      ∀ rule ∈ marks ++ [float, integer], rule.pattern.opensWith c = false ∧
        rule.pattern.canBeEmpty = false := forall_ascii (by decide +kernel)
  intro rule hrule
  obtain ⟨hopens, hempty⟩ := hall c (CharSet.toNat_lt_of_nameStart hc) hc rule hrule
  exact candidate?_eq_none (Pattern.matchLength_eq_none hopens hempty rest) atLineStart

/-- A letter or an underscore begins an identifier, which goes on as long as characters of names
follow. -/
theorem matchLength_identifier {c : Char} (hc : CharSet.nameStart.contains c = true) (rest : Text) :
    identifier.matchLength (c :: rest) =
      some ((c :: rest).takeWhile CharSet.namePart.contains).length := by
  have hends : identifier.pattern.ends (.atStart (c :: rest)) =
      (⟨some c, 1, rest⟩ : Place).runs CharSet.namePart.contains := by
    change (Place.next CharSet.nameStart.contains (.atStart (c :: rest))).flatMap
      (Place.runs CharSet.namePart.contains) = _
    simp [Place.next, Place.atStart, hc]
  rw [matchLength, Pattern.matchLength, hends, Place.head?_runs,
    List.takeWhile_cons_of_pos (CharSet.namePart_of_nameStart hc)]
  simp [Place.pastRun, Nat.add_comm]

/-- What the rule for identifiers offers at a letter or an underscore. -/
theorem candidate?_identifier {c : Char} (hc : CharSet.nameStart.contains c = true) (rest : Text)
    (atLineStart : Bool) : candidate? (c :: rest) atLineStart identifier =
      some (identifier, ((c :: rest).takeWhile CharSet.namePart.contains).length) := by
  rw [candidate?, matchLength_identifier hc,
    List.takeWhile_cons_of_pos (CharSet.namePart_of_nameStart hc)]
  rfl

/-- At a letter or an underscore the header rule comes first, then the word lists in their order,
and whatever they leave is an identifier. -/
theorem first?_of_nameStart {c : Char} (hc : CharSet.nameStart.contains c = true) (rest : Text)
    (atLineStart : Bool) :
    first? (c :: rest) atLineStart = (candidate? (c :: rest) atLineStart header).or
      ((wordRules ++ [identifier]).findSome? (candidate? (c :: rest) atLineStart)) := by
  have hnone := candidate?_of_nameStart hc rest atLineStart
  have hmarks : marks.findSome? (candidate? (c :: rest) atLineStart) = none :=
    List.findSome?_eq_none_iff.mpr fun rule hrule => hnone rule (List.mem_append_left _ hrule)
  have hnumbers : [float, integer].findSome? (candidate? (c :: rest) atLineStart) = none :=
    List.findSome?_eq_none_iff.mpr fun rule hrule => hnone rule (List.mem_append_right _ hrule)
  simp only [first?_eq_findSome?, all_eq, List.findSome?_append, List.findSome?_singleton, hmarks,
    hnumbers, Option.none_or]

end Rule

/-- How the text at a place is classified if a word begins there, and which of it belongs to the
word. The word lists know words by their longest run of word characters, and the lists for the
start of a line come first. Any other word is an identifier, made of characters of names. -/
def Vocabulary.classify (atLineStart : Bool) (text : Text) : Category × Text :=
  if atLineStart = true ∧ text.firstWord ∈ structures.toList then (.className, text.firstWord)
  else if atLineStart = true ∧ text.firstWord ∈ specials.toList then (.entityName, text.firstWord)
  else if text.firstWord ∈ keywords.toList then (.reservedKeyword, text.firstWord)
  else if text.firstWord ∈ builtins.toList then (.builtinName, text.firstWord)
  else if text.firstWord ∈ directions.toList then (.directionName, text.firstWord)
  else if text.firstWord ∈ obsolete.toList then (.obsoleteWarning, text.firstWord)
  else (.identifier, text.takeWhile CharSet.namePart.contains)

namespace Rule

private theorem take_length_takeWhile (accepts : Char → Bool) (text : Text) :
    text.take (text.takeWhile accepts).length = text.takeWhile accepts :=
  (List.prefix_iff_eq_take.mp (List.takeWhile_prefix accepts)).symm

/-- Unless the header rule wins at a letter or an underscore, the word there is classified by the
vocabulary. -/
theorem classify_of_first? {c : Char} (hc : CharSet.nameStart.contains c = true) {rest : Text}
    {n : Nat} (h : first? (c :: rest) atLineStart = some (rule, n)) (hheader : rule ≠ header) :
    (rule.category, (c :: rest).take n) = Vocabulary.classify atLineStart (c :: rest) := by
  have hnone : candidate? (c :: rest) atLineStart header = none := by
    rw [first?_of_nameStart hc] at h
    by_contra hsome
    obtain ⟨found, hfound⟩ := Option.ne_none_iff_exists'.mp hsome
    rw [hfound, Option.some_or, Option.some_inj] at h
    exact hheader (by rw [← eq_of_candidate? hfound, h])
  have hword : (c :: rest).take (Text.firstWord (c :: rest)).length = Text.firstWord (c :: rest) :=
    take_length_takeWhile _ _
  have hname := take_length_takeWhile CharSet.namePart.contains (c :: rest)
  -- The rules ask the word lists in the order in which the vocabulary does.
  have hlabel : (first? (c :: rest) atLineStart).map
      (fun found => (found.1.category, (c :: rest).take found.2)) =
        some (Vocabulary.classify atLineStart (c :: rest)) := by
    rw [first?_of_nameStart hc, hnone, Option.none_or, wordRules]
    simp only [List.cons_append, List.nil_append, List.findSome?_singleton,
      candidate?_identifier hc,
      findSome?_cons_of_wordList? (show structureWord.wordList? = some _ from rfl),
      findSome?_cons_of_wordList? (show specialWord.wordList? = some _ from rfl),
      findSome?_cons_of_wordList? (show keyword.wordList? = some _ from rfl),
      findSome?_cons_of_wordList? (show builtin.wordList? = some _ from rfl),
      findSome?_cons_of_wordList? (show direction.wordList? = some _ from rfl),
      findSome?_cons_of_wordList? (show obsolete.wordList? = some _ from rfl)]
    simp only [Vocabulary.classify, apply_ite (Option.map _), apply_ite some, Option.map_some,
      isAnchored, category, forall_const, Bool.false_eq_true, false_implies, true_and, hword, hname]
  rw [h, Option.map_some, Option.some_inj] at hlabel
  exact hlabel

end Rule

end MapHighlight
