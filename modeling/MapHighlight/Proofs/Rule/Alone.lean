import MapHighlight.Proofs.Rule.Extents

/-!
# What a rule takes by itself

A text that a rule takes off the start of a longer one is taken again when nothing follows it. The
rules before that rule still do not match, because nothing that they could match was added. Only
the word lists look beyond the text: a word of a list in front of a further word character is left
to the rule for identifiers, and by itself it is a word of the list.
-/

namespace MapHighlight

/-- The word lists of the vocabulary. -/
def Vocabulary.lists : List WordList :=
  [structures, specials, keywords, builtins, directions, obsolete]

/-- Whether a text is a word of the vocabulary. -/
def Text.IsListed (text : Text) : Prop :=
  ∃ words ∈ Vocabulary.lists, text ∈ words.toList

instance (text : Text) : Decidable text.IsListed :=
  inferInstanceAs (Decidable (∃ words ∈ Vocabulary.lists, text ∈ words.toList))

namespace Rule

variable {text lexeme rest : Text} {atLineStart : Bool} {rule : Rule}

/-- Every word of the vocabulary has a rule that takes it anywhere on a line: the words for the start
of a line are reserved words as well. -/
theorem exists_wordList?_of_isListed (h : text.IsListed) :
    ∃ (rule : Rule) (words : WordList), rule.wordList? = some words ∧ rule.isAnchored = false ∧
      text ∈ words.toList := by
  have hreserved : ∀ words ∈ [Vocabulary.structures, Vocabulary.specials],
      ∀ word ∈ words.toList, word ∈ Vocabulary.keywords.toList := by decide +kernel
  obtain ⟨words, hwords, hmem⟩ := h
  simp only [Vocabulary.lists, List.mem_cons, List.not_mem_nil, or_false] at hwords
  rcases hwords with rfl | rfl | rfl | rfl | rfl | rfl
  · exact ⟨keyword, _, rfl, rfl, hreserved _ (by simp) _ hmem⟩
  · exact ⟨keyword, _, rfl, rfl, hreserved _ (by simp) _ hmem⟩
  · exact ⟨keyword, _, rfl, rfl, hmem⟩
  · exact ⟨builtin, _, rfl, rfl, hmem⟩
  · exact ⟨direction, _, rfl, rfl, hmem⟩
  · exact ⟨obsolete, _, rfl, rfl, hmem⟩

theorem isListed_of_wordList? {words : WordList} (h : rule.wordList? = some words)
    (hmem : text ∈ words.toList) : text.IsListed := by
  refine ⟨words, ?_, hmem⟩
  cases rule <;> cases h <;> simp [Vocabulary.lists]

/-- Listed words are words. -/
theorem isWord_of_isListed (h : text.IsListed) : text.IsWord := by
  obtain ⟨rule, words, hwords, -, hmem⟩ := exists_wordList?_of_isListed h
  exact isWord_of_wordList? hwords text hmem

/-- By itself a word is its own first word. -/
theorem firstWord_of_isListed (h : text.IsListed) : text.firstWord = text :=
  List.takeWhile_eq_self_iff.mpr (isWord_of_isListed h).2

/-- Listed words begin with letters. -/
theorem exists_nameStart_of_isListed (h : text.IsListed) :
    ∃ c tail, text = c :: tail ∧ CharSet.nameStart.contains c = true := by
  obtain ⟨rule, words, hwords, -, hmem⟩ := exists_wordList?_of_isListed h
  obtain ⟨c, tail, rfl⟩ := List.exists_cons_of_ne_nil (isWord_of_isListed h).1
  refine ⟨c, tail, rfl, ?_⟩
  by_contra hc
  have hrule : rule ∈ wordRules := by cases rule <;> first | contradiction | decide
  have hnone := matchLength_of_mem_wordRules hrule (Bool.not_eq_true _ ▸ hc) tail
  rw [matchLength_of_wordList? hwords, firstWord_of_isListed h, if_pos hmem] at hnone
  contradiction

/-- Only the word lists ask what follows. -/
theorem asksBoundary_of_wordList?_eq_none (h : rule.wordList? = none) :
    rule.pattern.asksBoundary = false := by
  cases rule <;> first | contradiction | rfl

/-- But for headers and words, rules match the longest of their readings. -/
theorem longestFirst_pattern (hwords : rule.wordList? = none) (hheader : rule ≠ header) :
    rule.pattern.LongestFirst := by
  have hclosing : (Pattern.seq (.star .unquoted) (.char '"')).LongestFirst := by
    refine .seq_star (fun c hc => ?_) rfl (.of_isCharacter rfl)
    simpa [Pattern.opensWith, CharSet.contains] using hc
  cases rule with
  | newline | terminator | backslash | assign => exact .of_isCharacter rfl
  | continuation => exact .seq_of_isCharacter rfl (.of_isCharacter rfl)
  | string => exact .seq_of_isCharacter rfl hclosing
  | float => exact longestFirst_float
  | blank | comment | integer | identifier => exact longestFirst_of_run? rfl
  | header => contradiction
  | structureWord | specialWord | keyword | builtin | direction | obsolete => contradiction

/-- A rule that does not match where more text follows does not match without that text. -/
theorem matchLength_eq_none_of_append (hwords : rule.wordList? = none)
    (h : rule.matchLength (text ++ rest) = none) : rule.matchLength text = none := by
  have hfree := asksBoundary_of_wordList?_eq_none hwords
  refine (Pattern.matchLength_eq_none_iff hfree).mpr fun part hpart => ?_
  exact (Pattern.matchLength_eq_none_iff hfree).mp h part (hpart.trans (List.prefix_append _ _))

private theorem matchLength_header_self (h : header.matchLength (lexeme ++ rest) = some lexeme.length)
    (hne : lexeme ≠ []) : header.matchLength lexeme = some lexeme.length := by
  obtain ⟨c, tail, rfl⟩ := List.exists_cons_of_ne_nil hne
  rw [List.cons_append, matchLength_header] at h
  split at h
  · rename_i hline
    obtain ⟨before, after, hrest, hequals, hfeed⟩ := exists_of_equals_mem_line hline.2
    rw [hrest, takeWhile_append_delimiter hequals, Option.some_inj, List.length_cons] at h
    -- The text taken ends with the first equals sign.
    have htail : tail = before ++ ['='] := by
      have hprefix : before ++ ['='] <+: tail ++ rest := ⟨after, by simp [hrest]⟩
      have hlength : (before ++ ['=']).length = tail.length := by
        rw [List.length_append, List.length_singleton]
        omega
      exact (List.prefix_of_prefix_length_le (List.prefix_append tail rest) hprefix
        hlength.ge).eq_of_length hlength.symm
    have hmem : '=' ∈ (before ++ ['=']).takeWhile (· != '\n') := by
      have hall : ∀ d ∈ before ++ ['='], (d != '\n') = true := by
        intro d hd
        simp only [bne_iff_ne]
        rintro rfl
        simp [hfeed] at hd
      rw [List.takeWhile_eq_self_iff.mpr hall]
      simp
    rw [matchLength_header, htail, if_pos ⟨hline.1, hmem⟩, takeWhile_append_delimiter hequals]
    simp
  · contradiction

/-- What a rule matches at the start of a text, it matches by itself. -/
theorem matchLength_self (h : rule.matchLength (lexeme ++ rest) = some lexeme.length)
    (hne : lexeme ≠ []) : rule.matchLength lexeme = some lexeme.length := by
  cases hwords : rule.wordList? with
  | some words =>
    obtain ⟨-, hmem⟩ := eq_firstWord_of_matchLength hwords h
    rw [matchLength_of_wordList? hwords,
      firstWord_of_isListed (isListed_of_wordList? hwords hmem), if_pos hmem]
  | none =>
    by_cases hheader : rule = header
    · subst hheader
      exact matchLength_header_self h hne
    · have hreads := Pattern.reads_take_of_matchLength h
      rw [List.take_left] at hreads
      exact (longestFirst_pattern hwords hheader).matchLength_of_reads
        (asksBoundary_of_wordList?_eq_none hwords) hreads

/-- A listed word that is only the beginning of a longer word is taken by no rule but that for
identifiers. -/
theorem eq_identifier_of_isListed (hlisted : lexeme.IsListed)
    (hlonger : lexeme ≠ Text.firstWord (lexeme ++ rest))
    (h : first? (lexeme ++ rest) atLineStart = some (rule, lexeme.length)) : rule = identifier := by
  obtain ⟨c, tail, hlexeme, hc⟩ := exists_nameStart_of_isListed hlisted
  have hoffers := candidate?_eq_some_iff.mpr (first?_eq_some_iff.mp h).1
  have hnone := candidate?_of_nameStart hc (tail ++ rest) atLineStart
  rw [← List.cons_append, ← hlexeme] at hnone
  have hrefused (hrule : rule ∈ marks ++ [float, integer]) : rule = identifier := by
    rw [hnone rule hrule] at hoffers
    contradiction
  have hrule := mem_all rule
  rw [all_eq] at hrule
  simp only [List.mem_append, List.mem_singleton] at hrule hrefused
  rcases hrule with hmark | rfl | hword | hnumber | hidentifier
  · exact hrefused (.inl hmark)
  · -- The equals sign of a header is no part of a word.
    obtain ⟨run, _, rfl, -, rfl⟩ := reads_of_first? h
    exact absurd ((isWord_of_isListed hlisted).2 '=' (by simp)) (by decide +kernel)
  · obtain ⟨words, hwords⟩ : ∃ words, rule.wordList? = some words := by
      fin_cases hword <;> exact ⟨_, rfl⟩
    exact absurd (eq_firstWord_of_matchLength hwords (matchLength_of_first? h).1).1 hlonger
  · exact hrefused (.inr hnumber)
  · exact hidentifier

/-- Where nothing follows what a rule took, the same rule takes it again, unless it took a listed
word as an identifier. -/
theorem first?_self (h : first? (lexeme ++ rest) atLineStart = some (rule, lexeme.length))
    (hlisted : rule = identifier → ¬ lexeme.IsListed) :
    first? lexeme atLineStart = some (rule, lexeme.length) := by
  obtain ⟨⟨hanchored, hlength⟩, hearlier⟩ := first?_eq_some_iff.mp h
  have hne : lexeme ≠ [] := List.length_pos_iff.mp (pos_of_first? h)
  refine first?_eq_some_iff.mpr ⟨⟨hanchored, matchLength_self hlength hne⟩, ?_⟩
  intro other hother happlies
  have hnone := hearlier other hother happlies
  cases hwords : other.wordList? with
  | none => exact matchLength_eq_none_of_append hwords hnone
  | some words =>
    rw [matchLength_of_wordList? hwords, ite_eq_right_iff] at hnone ⊢
    intro hmem
    rcases Text.firstWord_append lexeme rest with hsame | hself
    · rw [hsame] at hnone
      exact absurd (hnone hmem) (by simp)
    · rw [hself] at hmem
      have hlonger : lexeme ≠ Text.firstWord (lexeme ++ rest) := by
        intro hword
        rw [← hword] at hnone
        exact absurd (hnone hmem) (by simp)
      have hword := isListed_of_wordList? hwords hmem
      exact absurd hword (hlisted (eq_identifier_of_isListed hword hlonger h))

/-- Where a text begins with an identifier, its first word is not listed. -/
theorem not_isListed_firstWord {n : Nat} (h : first? text atLineStart = some (identifier, n)) :
    ¬ text.firstWord.IsListed := by
  intro hlisted
  obtain ⟨rule, words, hwords, hanchored, hmem⟩ := exists_wordList?_of_isListed hlisted
  have hrule : rule ∈ identifier.earlier := by cases rule <;> first | contradiction | decide
  have hnone := (first?_eq_some_iff.mp h).2 rule hrule (by simp [hanchored])
  rw [matchLength_of_wordList? hwords, if_pos hmem] at hnone
  contradiction

end Rule

end MapHighlight
