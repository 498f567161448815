import MapHighlight.Proofs.CommandLine.Printing
import MapHighlight.Proofs.Text.Unquoting

/-!
# Reading printed tokens back

Tokens that are printed as lines can be read back: each line ends with its only line feed, its first
two tabs set off the place and the category, and undoing the escapes of the quoted text gives the
lexeme. All this holds whichever characters are hidden, as long as those that the layout depends on
have escapes of their own.
-/

namespace MapHighlight

/-- The category that has a standard name, if one does. -/
def Category.ofStandardName? (text : Text) : Option Category :=
  all.find? fun category => category.standardName = text

theorem Category.ofStandardName?_standardName (category : Category) :
    ofStandardName? category.standardName = some category := by
  cases category <;> rfl

theorem Category.not_mem_standardName (category : Category) :
    '\t' ∉ category.standardName ∧ '\n' ∉ category.standardName := by
  cases category <;> decide

/-- What the line of a token shows of it. -/
structure ShownToken where
  /-- The line in the source. -/
  line : Nat
  /-- The column in the source. -/
  column : Nat
  /-- What kind of text it is. -/
  category : Category
  /-- The exact source text. -/
  lexeme : Text
deriving DecidableEq, Repr

namespace ShownToken

/-- Reads a line and a column with a colon between them. -/
def placeOf? (place : Text) : Option (Nat × Nat) := do
  let (line, column) ← Text.cutAt? ':' place
  let line ← Numeral.read? 10 line
  let column ← Numeral.read? 10 column.1
  return (line, column)

/-- Reads a line of output: a place, a standard name and a quoted text between tabs. -/
def ofLine? (line : Text) : Option ShownToken := do
  let (place, rest) ← Text.cutAt? '\t' line
  let (name, rest) ← Text.cutAt? '\t' rest.1
  let (line, column) ← placeOf? place
  let category ← Category.ofStandardName? name
  let (opening, rest) ← Text.cutAt? '"' rest.1
  let (lexeme, rest) ← Text.unquote? Quoted.escaping rest.1
  if opening = [] ∧ rest.1 = ['\n'] then return ⟨line, column, category, lexeme⟩ else none

/-- Reads the lines of an output. -/
def ofLines? (output : Text) : Option (List ShownToken) :=
  (linesOf '\n' output).mapM ofLine?

end ShownToken

namespace Token

/-- What the line of a token shows of it. -/
def shown (token : Token) : ShownToken :=
  ⟨token.location.line, token.location.column, token.category, token.lexeme⟩

/-- The line of a token if some characters are hidden. -/
def lineWhere (hidden : Char → Bool) (token : Token) : Text :=
  token.location.display ++ '\t' :: token.category.standardName ++ '\t' ::
    ('"' :: token.lexeme.flatMap (Quoted.escapeWhere hidden '"') ++ ['"']) ++ ['\n']

/-- Tokens as lines if some characters are hidden. -/
def linesWhere (hidden : Char → Bool) (tokens : List Token) : Text :=
  tokens.flatMap (lineWhere hidden)

/-- The characters without a visible form of their own are those that are hidden. -/
theorem linesWhere_isHidden (tokens : List Token) :
    linesWhere Quoted.isHidden tokens = tokens.flatMap line := rfl

end Token

/-- A line feed never stands for itself in a quoted text. -/
theorem Quoted.lineFeed_not_mem_escapeWhere (hidden : Char → Bool) (c : Char) :
    '\n' ∉ escapeWhere hidden '"' c := by
  unfold escapeWhere
  split_ifs with hnul htab hreturn hfeed hself hhidden
  · decide
  · decide
  · decide
  · decide
  · simp [Ne.symm hfeed]
  · have hdigits : '\n' ∉ Nat.toDigits 16 c.toNat :=
      Numeral.not_mem_toDigits (by omega) (by omega) (by decide) c.toNat
    simp [codePoint, hdigits]
  · simp [Ne.symm hfeed]

/-- A place is shown without tabs and line feeds. -/
theorem Location.not_mem_display (location : Location) :
    '\t' ∉ location.display ∧ '\n' ∉ location.display := by
  have hnumber {c : Char} (h : ∀ digit < 16, c ≠ Nat.digitChar digit) (n : Nat) :
      c ∉ Text.ofNat n :=
    Numeral.not_mem_toDigits (by omega) (by omega) h n
  constructor
  · simp [display, hnumber (c := '\t') (by decide)]
  · simp [display, hnumber (c := '\n') (by decide)]

/-- A place is read as it was shown. -/
theorem ShownToken.placeOf?_display (location : Location) :
    placeOf? location.display = some (location.line, location.column) := by
  have hcolon : ':' ∉ Text.ofNat location.line :=
    Numeral.not_mem_toDigits (by omega) (by omega) (by decide) location.line
  obtain ⟨_, hcut⟩ := (Text.cutAt?_append hcolon (Text.ofNat location.column)).exists_eq
  have hread (n : Nat) : Numeral.read? 10 (Text.ofNat n) = some n :=
    Numeral.read?_toDigits (by omega) (by omega) n
  simp [placeOf?, Location.display, hcut, hread]

namespace Token

variable (hidden : Char → Bool)

/-- The line of a token is one line. -/
theorem isLine_lineWhere (token : Token) : (token.lineWhere hidden).IsLine := by
  refine ⟨_, ?_, rfl⟩
  have hlexeme : '\n' ∉ token.lexeme.flatMap (Quoted.escapeWhere hidden '"') := by
    rw [List.mem_flatMap]
    rintro ⟨c, -, hmem⟩
    exact Quoted.lineFeed_not_mem_escapeWhere hidden c hmem
  simp [token.location.not_mem_display.2, token.category.not_mem_standardName.2, hlexeme]

/-- The line of a token is read as what it shows. -/
theorem ofLine?_lineWhere (token : Token) :
    ShownToken.ofLine? (token.lineWhere hidden) = some token.shown := by
  obtain ⟨_, hplace⟩ := (Text.cutAt?_append token.location.not_mem_display.1
    (token.category.standardName ++ '\t' ::
      ('"' :: (token.lexeme.flatMap (Quoted.escapeWhere hidden '"') ++ ['"', '\n'])))).exists_eq
  obtain ⟨_, hname⟩ := (Text.cutAt?_append token.category.not_mem_standardName.1
    ('"' :: (token.lexeme.flatMap (Quoted.escapeWhere hidden '"') ++ ['"', '\n']))).exists_eq
  obtain ⟨_, hlexeme⟩ := ((Quoted.undoes_escapeWhere hidden).gives_unquote? token.lexeme
    ['\n']).exists_eq
  have hline : token.lineWhere hidden = token.location.display ++ '\t' ::
      (token.category.standardName ++ '\t' ::
        ('"' :: (token.lexeme.flatMap (Quoted.escapeWhere hidden '"') ++ ['"', '\n']))) := by
    simp [lineWhere]
  rw [hline]
  simp [ShownToken.ofLine?, hplace, hname, ShownToken.placeOf?_display,
    Category.ofStandardName?_standardName, Text.cutAt?, Text.Rest.tail, hlexeme, shown]

/-- There is a line for each token. -/
theorem linesOf_linesWhere (tokens : List Token) :
    linesOf '\n' (linesWhere hidden tokens) = tokens.map (lineWhere hidden) := by
  induction tokens with
  | nil => rfl
  | cons token tokens ih =>
    obtain ⟨content, hcontent, hline⟩ := isLine_lineWhere hidden token
    rw [linesWhere] at ih ⊢
    rw [List.flatMap_cons, List.map_cons, hline, List.append_assoc, List.singleton_append,
      linesOf_append_delimiter hcontent, ih]

end Token

/-- Whether tokens can be read back from an output. -/
structure ReadsBack (output : Text) (tokens : List Token) : Prop where
  /-- There is a line feed for each token. -/
  count_lineFeed : output.count '\n' = tokens.length
  /-- The lines are read as what they show of the tokens. -/
  ofLines?_eq : ShownToken.ofLines? output = some (tokens.map Token.shown)

/-- Tokens can be read back from their lines, whichever characters are hidden. -/
theorem readsBack_linesWhere (hidden : Char → Bool) (tokens : List Token) :
    ReadsBack (Token.linesWhere hidden tokens) tokens := by
  constructor
  · induction tokens with
    | nil => rfl
    | cons token tokens ih =>
      obtain ⟨content, hcontent, hline⟩ := token.isLine_lineWhere hidden
      have hone : (token.lineWhere hidden).count '\n' = 1 := by
        rw [hline, List.count_append, List.count_eq_zero_of_not_mem hcontent]
        rfl
      rw [Token.linesWhere] at ih ⊢
      rw [List.flatMap_cons, List.count_append, ih, hone, List.length_cons, Nat.add_comm]
  · have hread : ShownToken.ofLine? ∘ Token.lineWhere hidden = fun token => pure token.shown :=
      funext (Token.ofLine?_lineWhere hidden)
    rw [ShownToken.ofLines?, Token.linesOf_linesWhere, List.mapM_map, hread, List.mapM_pure]
    rfl

/-- What is read back holds the lexemes. -/
theorem flatMap_lexeme_shown (tokens : List Token) :
    (tokens.map Token.shown).flatMap ShownToken.lexeme = tokens.flatMap Token.lexeme :=
  List.flatMap_map Token.shown ShownToken.lexeme tokens

/-- Texts with the same lines are the same. -/
theorem eq_of_linesWhere_eq {hidden : Char → Bool} {left right : Text}
    (h : Token.linesWhere hidden (tokenize left) = Token.linesWhere hidden (tokenize right)) :
    left = right := by
  have hleft := (readsBack_linesWhere hidden (tokenize left)).ofLines?_eq
  rw [h, (readsBack_linesWhere hidden (tokenize right)).ofLines?_eq] at hleft
  have hshown := congrArg (List.flatMap ShownToken.lexeme) (Option.some.inj hleft)
  simpa only [flatMap_lexeme_shown, CommandLine.flatMap_lexeme_tokenize] using hshown.symm

namespace CommandLine

/-- The lines that a run prints for a text can be read back, whichever characters are hidden: there
is one for each token that is kept, and together they show the line, the column, the category and
the lexeme of each. If no token is left out, the lexemes that are read make up the text, and no
other text is printed in the same way. -/
theorem output_text_readsBack {arguments : List Argument} {world : World} {settings : Settings}
    {text : Text} (h : Prints arguments world settings .text text) :
    ∃ outcome, run arguments world = .ok outcome ∧ outcome.code = 0 ∧
      outcome.output = Token.linesWhere Quoted.isHidden (settings.kept text) ∧
      (∀ hidden, ReadsBack (Token.linesWhere hidden (settings.kept text)) (settings.kept text)) ∧
      (settings.KeepsAll →
        ((settings.kept text).map Token.shown).flatMap ShownToken.lexeme = text ∧
        (∀ hidden other, Token.linesWhere hidden (tokenize other) =
          Token.linesWhere hidden (settings.kept text) → other = text) ∧
        ∀ {arguments' world' settings' text' outcome'},
          Prints arguments' world' settings' .text text' → settings'.KeepsAll →
          run arguments' world' = .ok outcome' → outcome'.output = outcome.output →
          text' = text) := by
  obtain ⟨done, hrun, houtcome⟩ := h.run_text
  refine ⟨done, hrun, congrArg Outcome.code houtcome, congrArg Outcome.output houtcome,
    fun hidden => readsBack_linesWhere hidden _, ?_⟩
  intro hall
  rw [hall.kept_eq, flatMap_lexeme_shown, flatMap_lexeme_tokenize]
  refine ⟨rfl, fun hidden other => eq_of_linesWhere_eq, ?_⟩
  intro arguments' world' settings' text' outcome' h' hall' hrun' houtput
  obtain ⟨done', hdone', houtcome'⟩ := h'.run_text
  rw [hdone'] at hrun'
  obtain rfl := Except.ok.inj hrun'
  rw [houtcome, houtcome', hall.kept_eq, hall'.kept_eq] at houtput
  exact eq_of_linesWhere_eq houtput

/-- A quoted text that holds a line feed and what looks like the escape of one. -/
theorem output_text_readsBack_of_quote_across_lines :
    let text := "\"\\n\n\"#\t".toList
    let world : World := ⟨fun _ => .directory, Utf8.encode text, .working⟩
    Prints ["tokens", "--no-comments"] world { noComments := true } .text text ∧
    ∃ outcome, run ["tokens", "--no-comments"] world = .ok outcome ∧
      outcome.output = "1:1\tLiteral.String\t\"\\\"\\\\n\\n\\\"\"\n".toList ∧
      ShownToken.ofLines? outcome.output = some [⟨1, 1, .stringLiteral, "\"\\n\n\"".toList⟩] := by
  intro text world
  have hprints : Prints ["tokens", "--no-comments"] world { noComments := true } .text text :=
    { accepted := by decide +kernel
      format_eq := rfl
      registered := ⟨.ifm, rfl⟩
      source_eq := rfl
      device_eq := rfl }
  obtain ⟨outcome, hrun, -, houtput, hreads, -⟩ := output_text_readsBack hprints
  have hkept : Settings.kept { noComments := true } text =
      [⟨.stringLiteral, "\"\\n\n\"".toList, .start⟩] := by decide +kernel
  refine ⟨hprints, outcome, hrun, ?_, ?_⟩
  · rw [houtput, hkept]
    decide +kernel
  · rw [houtput, (hreads Quoted.isHidden).ofLines?_eq, hkept]
    rfl

end CommandLine

end MapHighlight
