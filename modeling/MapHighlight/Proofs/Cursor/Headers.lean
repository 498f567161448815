import MapHighlight.Proofs.Cursor.Labels
import MapHighlight.Proofs.Rule.Headers

/-!
# Header lines

A token at the start of a line is a header exactly if none of the rules for blanks, marks and closed
quotes matches there and an equals sign stands further on in the line. Nothing else is a header.
-/

namespace MapHighlight

namespace Rule

variable {c : Char} {rest : Text} {atLineStart : Bool}

/-- A text begins with a header exactly if the header rule is selected for it. -/
theorem label_eq_headerAssignment_iff :
    (label atLineStart (c :: rest)).1 = .headerAssignment ↔
      atLineStart = true ∧ IsUnmarked c rest ∧ '=' ∈ rest.takeWhile (· != '\n') := by
  constructor
  · intro h
    have hlabel : label atLineStart (c :: rest) = (header.category, _) := Prod.ext h rfl
    exact (first?_eq_header_iff.mp (first?_of_label hlabel (by decide))).1
  · intro h
    rw [label, first?_eq_header_iff.mpr ⟨h, rfl⟩]
    rfl

/-- A header goes up to the first equals sign behind its first character. -/
theorem lexeme_of_label_eq_headerAssignment
    (h : (label atLineStart (c :: rest)).1 = .headerAssignment) :
    (label atLineStart (c :: rest)).2 = c :: rest.takeWhile (· != '=') ++ ['='] := by
  have hselected := label_eq_headerAssignment_iff.mp h
  obtain ⟨before, after, rfl, hequals, -⟩ := exists_of_equals_mem_line hselected.2.2
  rw [label, first?_eq_header_iff.mpr ⟨hselected, rfl⟩, takeWhile_append_delimiter hequals]
  simp [List.take_length_add_append]

end Rule

/-- Headers, and the words that open a line, stand in the first column only. A token in the first
column is a header exactly if it begins with no white space, no mark and no quote that is closed,
and an equals sign stands further on in its line. It goes up to the first such equals sign, so it
holds no other one and no line feed. -/
theorem tokenize_headers (source : Text) :
    (∀ token ∈ tokenize source,
      token.category ∈ [.headerAssignment, .className, .entityName] → token.location.column = 1) ∧
    ∀ (before after : List Token) (token : Token) (c : Char) (rest : Text),
      tokenize source = before ++ token :: after →
      source = before.flatMap Token.lexeme ++ c :: rest →
      token.location.column = 1 →
      (token.category = .headerAssignment ↔
        Unicode.isWhiteSpace c = false ∧ c ∉ ['#', ';', '\\', '='] ∧ (c = '"' → '"' ∉ rest) ∧
          '=' ∈ rest.takeWhile (· != '\n')) ∧
      (token.category = .headerAssignment →
        token.lexeme = c :: rest.takeWhile (· != '=') ++ ['='] ∧ token.lexeme.count '=' = 1 ∧
          '\n' ∉ token.lexeme) := by
  constructor
  · intro token htoken hcategory
    have hcover := Cursor.cover_steps (Cursor.isPlaced_ofSource source)
    refine hcover.column_of_opensLine token htoken ?_
    simp only [List.mem_cons, List.not_mem_nil, or_false] at hcategory
    rcases hcategory with hcategory | hcategory | hcategory <;> rw [hcategory] <;> rfl
  · intro before after token c rest htokens hrest hcolumn
    have hlabel := pair_of_tokens htokens hrest
    rw [decide_eq_true hcolumn] at hlabel
    have hcategory : token.category = (Rule.label true (c :: rest)).1 := congrArg Prod.fst hlabel
    have hlexeme : token.lexeme = (Rule.label true (c :: rest)).2 := congrArg Prod.snd hlabel
    rw [hcategory, hlexeme]
    refine ⟨?_, fun hheader => ?_⟩
    · rw [Rule.label_eq_headerAssignment_iff]
      simp only [Rule.IsUnmarked, true_and, and_assoc]
    · obtain ⟨-, hunmarked, hequals⟩ := Rule.label_eq_headerAssignment_iff.mp hheader
      obtain ⟨inner, later, rfl, hinner, hline⟩ := exists_of_equals_mem_line hequals
      have hfirst : c ≠ '=' := fun h => hunmarked.2.1 (by simp [h])
      rw [Rule.lexeme_of_label_eq_headerAssignment hheader, takeWhile_append_delimiter hinner]
      refine ⟨rfl, ?_, ?_⟩
      · simp [List.count_eq_zero_of_not_mem hinner, hfirst]
      · simp [hline, hunmarked.ne_lineFeed.symm]

/-- A header may hold a semicolon and a quote, also one that is closed on a later line. -/
theorem tokenize_headers_of_quote_inside :
    let header : Token := ⟨.headerAssignment, "go \"; x=".toList, .start⟩
    let others : List Token := [⟨.operator, "=".toList, ⟨1, 9, 8⟩⟩,
      ⟨.whitespace, "\n".toList, ⟨1, 10, 9⟩⟩, ⟨.error, "\"".toList, ⟨2, 1, 10⟩⟩]
    tokenize "go \"; x==\n\"".toList = header :: others ∧
      (header.category = .headerAssignment ↔ '=' ∈ "o \"; x==".toList) ∧
      header.lexeme.count '=' = 1 ∧ '\n' ∉ header.lexeme := by
  intro header others
  have htokens : tokenize "go \"; x==\n\"".toList = [] ++ header :: others := by decide +kernel
  obtain ⟨-, hheader⟩ := tokenize_headers "go \"; x==\n\"".toList
  obtain ⟨hcategory, hends⟩ := hheader [] others header 'g' "o \"; x==\n\"".toList htokens rfl rfl
  refine ⟨htokens, hcategory.trans ⟨fun h => h.2.2.2, fun h => ?_⟩, (hends rfl).2⟩
  exact ⟨by decide, by decide, by simp, h⟩

end MapHighlight
