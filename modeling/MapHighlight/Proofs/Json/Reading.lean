import MapHighlight.Proofs.Text.Pieces
import MapHighlight.Proofs.Text.Unquoting

/-!
# Reading JSON

A document is read by recursive descent: blanks are skipped, and the first character that is none
tells what is to be read. Every kind of value that is written is read, with any blanks between its
parts and with any escapes but those for half a character. Reading a written value gives the value.
-/

namespace MapHighlight.Json

open Text (Escaping Gives Rest)

/-- Whether a character may stand between the parts of a document. -/
def isBlank (c : Char) : Bool :=
  c == ' ' || c == '\n' || c == '\r' || c == '\t'

/-- The first character of a text that is no blank. -/
def next? : (text : Text) → Option (Char × Rest text)
  | [] => none
  | c :: text =>
    if isBlank c then do
      let (first, rest) ← next? text
      return (first, (Rest.tail c text).further rest)
    else some (c, .tail c text)

/-- Reads what stands behind the backslash of an escape. -/
def unescape? : (text : Text) → Option (Char × Rest text)
  | [] => none
  | c :: text =>
    if c = '"' ∨ c = '\\' ∨ c = '/' then some (c, .tail c text)
    else if c = 'b' then some ('\x08', .tail c text)
    else if c = 'f' then some ('\x0c', .tail c text)
    else if c = 'n' then some ('\n', .tail c text)
    else if c = 'r' then some ('\r', .tail c text)
    else if c = 't' then some ('\t', .tail c text)
    else if c = 'u' ∧ 4 ≤ text.length then do
      let codePoint ← Numeral.read? 16 (text.take 4)
      let scalar ← Text.scalar? codePoint
      return (scalar, ⟨text.drop 4, Nat.lt_succ_of_le (List.drop_suffix 4 text).length_le⟩)
    else none

/-- How the escapes in a string are read. Control characters do not stand for themselves. -/
def escaping : Escaping :=
  ⟨fun c => 32 ≤ c.toNat, unescape?⟩

/-- Reads a number of which the first digit was read. A zero is not followed by other digits. -/
def number? {text : Text} (first : Char) (rest : Rest text) : Option (Nat × Rest text) := do
  let digits := rest.1.takeWhile Char.isDigit
  let n ← Numeral.read? 10 (first :: digits)
  if first = '0' ∧ digits ≠ [] then none
  else return (n, ⟨rest.1.dropWhile Char.isDigit,
    Nat.lt_of_le_of_lt (List.dropWhile_suffix _).length_le rest.2⟩)

mutual

/-- Reads a value from the start of a text. -/
def value? (text : Text) : Option (Json × Rest text) :=
  match next? text with
  | none => none
  | some ('"', rest) => do
    let (content, behind) ← Text.unquote? escaping rest.1
    return (.string content, rest.further behind)
  | some ('[', rest) =>
    match next? rest.1 with
    | some (']', behind) => some (.array [], rest.further behind)
    | _ => do
      let (item, behind) ← value? rest.1
      let (items, last) ← items? behind.1
      return (.array (item :: items), rest.further (behind.further last))
  | some ('{', rest) =>
    match next? rest.1 with
    | some ('}', behind) => some (.object [], rest.further behind)
    | _ => do
      let (field, behind) ← field? rest.1
      let (fields, last) ← fields? behind.1
      return (.object (field :: fields), rest.further (behind.further last))
  | some (first, rest) => do
    let (n, behind) ← number? first rest
    return (.number n, behind)
termination_by text.length
decreasing_by
  · exact rest.2
  · exact (rest.further behind).2
  · exact rest.2
  · exact (rest.further behind).2

/-- Reads the items after the first, up to the end of their array. -/
def items? (text : Text) : Option (List Json × Rest text) :=
  match next? text with
  | some (']', rest) => some ([], rest)
  | some (',', rest) => do
    let (item, behind) ← value? rest.1
    let (items, last) ← items? behind.1
    return (item :: items, rest.further (behind.further last))
  | _ => none
termination_by text.length
decreasing_by
  · exact rest.2
  · exact (rest.further behind).2

/-- Reads a field: a name and a value with a colon between them. -/
def field? (text : Text) : Option ((Text × Json) × Rest text) :=
  match next? text with
  | some ('"', rest) => do
    let (name, behind) ← Text.unquote? escaping rest.1
    match next? behind.1 with
    | some (':', last) => do
      let (value, left) ← value? last.1
      return ((name, value), rest.further (behind.further (last.further left)))
    | _ => none
  | _ => none
termination_by text.length
decreasing_by
  exact (rest.further (behind.further last)).2

/-- Reads the fields after the first, up to the end of their object. -/
def fields? (text : Text) : Option (List (Text × Json) × Rest text) :=
  match next? text with
  | some ('}', rest) => some ([], rest)
  | some (',', rest) => do
    let (field, behind) ← field? rest.1
    let (fields, last) ← fields? behind.1
    return (field :: fields, rest.further (behind.further last))
  | _ => none
termination_by text.length
decreasing_by
  · exact rest.2
  · exact (rest.further behind).2

end

/-- Reads a value, and what follows it. -/
def read? (text : Text) : Option (Json × Text) :=
  (value? text).map fun (value, rest) => (value, rest.1)

/-- The first character that is no blank is found behind blanks. -/
theorem gives_next? {blanks : Text} (hblanks : ∀ c ∈ blanks, isBlank c = true) {c : Char}
    (hc : isBlank c = false) (rest : Text) : Gives (next? (blanks ++ c :: rest)) c rest := by
  induction blanks with
  | nil => simp [Gives, next?, hc, Rest.tail]
  | cons blank blanks ih =>
    rw [List.forall_mem_cons] at hblanks
    obtain ⟨_, hnext⟩ := (ih hblanks.2).exists_eq
    simp [Gives, next?, hblanks.1, hnext, Rest.further]

/-- Reading the escapes in strings undoes writing them. -/
theorem undoes_escape : escaping.Undoes escape := by
  intro c
  unfold escape
  split_ifs with hquote hbackslash hbackspace hformFeed hlineFeed hreturn htab hcontrol
  · exact .inr (Escaping.isEscapeOf_letter fun rest => by simp [escaping, unescape?, hquote])
  · exact .inr (Escaping.isEscapeOf_letter fun rest => by simp [escaping, unescape?, hbackslash])
  · exact .inr (Escaping.isEscapeOf_letter fun rest => by simp [escaping, unescape?, hbackspace])
  · exact .inr (Escaping.isEscapeOf_letter fun rest => by simp [escaping, unescape?, hformFeed])
  · exact .inr (Escaping.isEscapeOf_letter fun rest => by simp [escaping, unescape?, hlineFeed])
  · exact .inr (Escaping.isEscapeOf_letter fun rest => by simp [escaping, unescape?, hreturn])
  · exact .inr (Escaping.isEscapeOf_letter fun rest => by simp [escaping, unescape?, htab])
  · refine .inr ⟨_, rfl, fun rest => ?_⟩
    have hdigits : ∀ n < 32, Numeral.read? 16 (fourHexDigits n) = some n := by decide
    have hread := hdigits c.toNat hcontrol
    rw [fourHexDigits] at hread ⊢
    simp only [List.map_cons, List.map_nil, Nat.div_one] at hread ⊢
    simp [Gives, escaping, unescape?, hread, Text.scalar?_toNat]
  · exact .inl ⟨rfl, hquote, hbackslash, decide_eq_true (Nat.le_of_not_lt hcontrol)⟩

/-- Whether no digit follows. -/
def EndsNumber (rest : Text) : Prop :=
  ∀ c ∈ rest.head?, c.isDigit = false

/-- A number is read as it was written, if no digit follows. -/
theorem gives_number? {n : Nat} {first : Char} {digits rest : Text}
    (hdigits : Text.ofNat n = first :: digits) (hrest : EndsNumber rest) {text : Text}
    (h : (digits ++ rest).length < text.length) :
    Gives (number? first (⟨digits ++ rest, h⟩ : Rest text)) n rest := by
  have hall : ∀ c ∈ digits, c.isDigit = true := fun c hmem =>
    Nat.isDigit_of_mem_toDigits (b := 10) (by omega) (by omega)
      (hdigits.symm ▸ List.mem_cons_of_mem first hmem)
  have hstops : rest.takeWhile Char.isDigit = [] ∧ rest.dropWhile Char.isDigit = rest := by
    cases rest with
    | nil => exact ⟨rfl, rfl⟩
    | cons c rest => simp [hrest c rfl]
  have htake : (digits ++ rest).takeWhile Char.isDigit = digits := by
    rw [List.takeWhile_append_of_pos hall, hstops.1, List.append_nil]
  have hdrop : (digits ++ rest).dropWhile Char.isDigit = rest := by
    rw [List.dropWhile_append_of_pos hall, hstops.2]
  have hread : Numeral.read? 10 (first :: digits) = some n := by
    rw [← hdigits]
    exact Numeral.read?_toDigits (by omega) (by omega) n
  have hzero (h : first = '0') : digits = [] := by
    have hhead : (Nat.toDigits 10 n).head? = some '0' := by
      rw [← h, ← Text.ofNat, hdigits]
      rfl
    obtain rfl := Numeral.eq_zero_of_head? (by omega) (by omega) hhead
    exact (List.cons.inj hdigits).2.symm
  have hcanonical : ¬(first = '0' ∧ digits ≠ []) := fun h => h.2 (hzero h.1)
  simp only [Gives, number?, htake, hdrop, hread, if_neg hcanonical]
  rfl

/-- A value does not begin with the bracket that closes an array. -/
theorem next?_ne_of_gives_value? {text rest : Text} {value : Json}
    (h : Gives (value? text) value rest) (behind : Rest text) :
    next? text ≠ some (']', behind) := by
  intro hnext
  have hdigit : Numeral.digit? 10 ']' = none := by decide
  simp [Gives, value?, hnext, number?, Numeral.read?, Numeral.next?, hdigit] at h

/-- A field does not begin with the brace that closes an object. -/
theorem next?_ne_of_gives_field? {text rest : Text} {field : Text × Json}
    (h : Gives (field? text) field rest) (behind : Rest text) :
    next? text ≠ some ('}', behind) := by
  intro hnext
  simp [Gives, field?, hnext] at h

section Parts

variable {blanks text behind rest : Text} (hblanks : ∀ c ∈ blanks, isBlank c = true)
include hblanks

/-- A number behind blanks is read as a value. -/
theorem gives_value?_number (n : Nat) (hrest : EndsNumber rest) :
    Gives (value? (blanks ++ (Text.ofNat n ++ rest))) (number n) rest := by
  obtain ⟨first, digits, hdigits⟩ := List.exists_cons_of_ne_nil
    (show Text.ofNat n ≠ [] from Nat.toDigits_ne_nil)
  have hfirst : first.isDigit = true :=
    Nat.isDigit_of_mem_toDigits (by omega) (by omega) (hdigits.symm ▸ List.mem_cons_self)
  have hne (c : Char) (hc : c.isDigit = false) : first ≠ c := by
    rintro rfl
    rw [hc] at hfirst
    contradiction
  have hblank : isBlank first = false := by
    simp [isBlank, hne ' ' rfl, hne '\n' rfl, hne '\r' rfl, hne '\t' rfl]
  obtain ⟨hshort, hnext⟩ := (gives_next? hblanks hblank (digits ++ rest)).exists_eq
  obtain ⟨_, hnumber⟩ := (gives_number? hdigits hrest hshort).exists_eq
  rw [hdigits, List.cons_append, Gives, value?]
  simp [hnext, hne '"' rfl, hne '[' rfl, hne '{' rfl, hnumber]

/-- A string behind blanks is read as a value. -/
theorem gives_value?_string (content : Text) :
    Gives (value? (blanks ++ (quote content ++ rest))) (string content) rest := by
  have hnext := gives_next? hblanks (c := '"') rfl (content.flatMap escape ++ '"' :: rest)
  obtain ⟨_, hnext⟩ := hnext.exists_eq
  obtain ⟨_, hread⟩ := (undoes_escape.gives_unquote? content rest).exists_eq
  rw [quote, List.append_assoc, List.cons_append, List.singleton_append, Gives, value?]
  simp [hnext, hread, Rest.further]

/-- Brackets around nothing are read as an array without items. -/
theorem gives_value?_array_nil : Gives (value? (blanks ++ '[' :: ']' :: rest)) (array []) rest := by
  obtain ⟨_, hnext⟩ := (gives_next? hblanks (c := '[') rfl (']' :: rest)).exists_eq
  rw [Gives, value?]
  simp [hnext, next?, isBlank, Rest.further, Rest.tail]

/-- A first item and others are read as an array. -/
theorem gives_value?_array {item : Json} {items : List Json}
    (hitem : Gives (value? text) item behind) (hitems : Gives (items? behind) items rest) :
    Gives (value? (blanks ++ '[' :: text)) (array (item :: items)) rest := by
  -- Where an item can be read the array is not closed at once.
  have hopen := next?_ne_of_gives_value? hitem
  obtain ⟨_, hnext⟩ := (gives_next? hblanks (c := '[') rfl text).exists_eq
  obtain ⟨_, hitem⟩ := hitem.exists_eq
  obtain ⟨_, hitems⟩ := hitems.exists_eq
  rw [Gives, value?]
  simp [hnext, hitem, hitems, Rest.further]

/-- Braces around nothing are read as an object without fields. -/
theorem gives_value?_object_nil :
    Gives (value? (blanks ++ '{' :: '}' :: rest)) (object []) rest := by
  obtain ⟨_, hnext⟩ := (gives_next? hblanks (c := '{') rfl ('}' :: rest)).exists_eq
  rw [Gives, value?]
  simp [hnext, next?, isBlank, Rest.further, Rest.tail]

/-- A first field and others are read as an object. -/
theorem gives_value?_object {field : Text × Json} {fields : List (Text × Json)}
    (hfield : Gives (field? text) field behind) (hfields : Gives (fields? behind) fields rest) :
    Gives (value? (blanks ++ '{' :: text)) (object (field :: fields)) rest := by
  -- Where a field can be read the object is not closed at once.
  have hopen := next?_ne_of_gives_field? hfield
  obtain ⟨_, hnext⟩ := (gives_next? hblanks (c := '{') rfl text).exists_eq
  obtain ⟨_, hfield⟩ := hfield.exists_eq
  obtain ⟨_, hfields⟩ := hfields.exists_eq
  rw [Gives, value?]
  simp [hnext, hfield, hfields, Rest.further]

/-- A name, a colon and a value are read as a field. -/
theorem gives_field? (name : Text) {value : Json} (hvalue : Gives (value? text) value rest) :
    Gives (field? (blanks ++ (quote name ++ ':' :: text))) (name, value) rest := by
  have hnext := gives_next? hblanks (c := '"') rfl (name.flatMap escape ++ '"' :: ':' :: text)
  obtain ⟨_, hnext⟩ := hnext.exists_eq
  obtain ⟨_, hread⟩ := (undoes_escape.gives_unquote? name (':' :: text)).exists_eq
  obtain ⟨_, hvalue⟩ := hvalue.exists_eq
  rw [quote, List.append_assoc, List.cons_append, List.singleton_append, Gives, field?]
  simp [hnext, hread, next?, isBlank, Rest.tail, hvalue, Rest.further]

/-- The bracket that closes an array ends its items. -/
theorem gives_items?_nil : Gives (items? (blanks ++ ']' :: rest)) [] rest := by
  obtain ⟨_, hnext⟩ := (gives_next? hblanks (c := ']') rfl rest).exists_eq
  rw [Gives, items?]
  simp [hnext]

/-- The brace that closes an object ends its fields. -/
theorem gives_fields?_nil : Gives (fields? (blanks ++ '}' :: rest)) [] rest := by
  obtain ⟨_, hnext⟩ := (gives_next? hblanks (c := '}') rfl rest).exists_eq
  rw [Gives, fields?]
  simp [hnext]

omit hblanks

/-- An item behind a comma is read before the others. -/
theorem gives_items?_cons {item : Json} {items : List Json}
    (hitem : Gives (value? text) item behind) (hitems : Gives (items? behind) items rest) :
    Gives (items? (',' :: text)) (item :: items) rest := by
  obtain ⟨_, hitem⟩ := hitem.exists_eq
  obtain ⟨_, hitems⟩ := hitems.exists_eq
  rw [Gives, items?]
  simp [next?, isBlank, Rest.tail, hitem, hitems, Rest.further]

/-- A field behind a comma is read before the others. -/
theorem gives_fields?_cons {field : Text × Json} {fields : List (Text × Json)}
    (hfield : Gives (field? text) field behind) (hfields : Gives (fields? behind) fields rest) :
    Gives (fields? (',' :: text)) (field :: fields) rest := by
  obtain ⟨_, hfield⟩ := hfield.exists_eq
  obtain ⟨_, hfields⟩ := hfields.exists_eq
  rw [Gives, fields?]
  simp [next?, isBlank, Rest.tail, hfield, hfields, Rest.further]

end Parts

/-- Every character of an indentation is a blank. -/
theorem isBlank_indentation {depth : Nat} {c : Char} (h : c ∈ (indentation depth).flatten) :
    isBlank c = true := by
  obtain ⟨piece, hpiece, hc⟩ := List.mem_flatten.mp h
  obtain rfl := List.eq_of_mem_replicate hpiece
  obtain rfl : c = ' ' := by simpa using hc
  rfl

/-- A line feed and the indentation of the line that it opens. -/
def newLine (depth : Nat) : Text :=
  '\n' :: (indentation depth).flatten

theorem isBlank_newLine (depth : Nat) : ∀ c ∈ newLine depth, isBlank c = true := by
  rw [newLine, List.forall_mem_cons]
  exact ⟨rfl, fun c => isBlank_indentation⟩

theorem isBlank_space : ∀ c ∈ [' '], isBlank c = true :=
  (List.forall_mem_singleton).mpr rfl

/-- No digit follows an item. -/
theorem endsNumber_itemPieces (depth : Nat) (items : List Json) (rest : Text) :
    EndsNumber ((itemPieces depth items).flatten ++ rest) := by
  cases items <;> simp [EndsNumber, itemPieces]

/-- No digit follows the value of a field. -/
theorem endsNumber_fieldPieces (depth : Nat) (fields : List (Text × Json)) (rest : Text) :
    EndsNumber ((fieldPieces depth fields).flatten ++ rest) := by
  cases fields <;> simp [EndsNumber, fieldPieces]

mutual

/-- Reading a written value behind blanks gives the value. -/
theorem gives_value? {blanks : Text} (hblanks : ∀ c ∈ blanks, isBlank c = true) (depth : Nat)
    (value : Json) {rest : Text} (hrest : EndsNumber rest) :
    Gives (value? (blanks ++ ((pieces depth value).flatten ++ rest))) value rest :=
  match value with
  | number n => by
    rw [pieces, List.flatten_singleton]
    exact gives_value?_number hblanks n hrest
  | string content => by
    rw [pieces, flatten_quotePieces]
    exact gives_value?_string hblanks content
  | array [] => gives_value?_array_nil hblanks
  | array (item :: items) => by
    have hitem := gives_value? (isBlank_newLine (depth + 1)) (depth + 1) item
      (endsNumber_itemPieces depth items rest)
    have htext : (pieces depth (array (item :: items))).flatten ++ rest =
        '[' :: (newLine (depth + 1) ++
          ((pieces (depth + 1) item).flatten ++ ((itemPieces depth items).flatten ++ rest))) := by
      simp [pieces, newLine]
    rw [htext]
    exact gives_value?_array hblanks hitem (gives_items? depth items rest)
  | object [] => gives_value?_object_nil hblanks
  | object ((name, value) :: fields) => by
    have hvalue := gives_value? isBlank_space (depth + 1) value
      (endsNumber_fieldPieces depth fields rest)
    have hfield := gives_field? (isBlank_newLine (depth + 1)) name hvalue
    have htext : (pieces depth (object ((name, value) :: fields))).flatten ++ rest =
        '{' :: (newLine (depth + 1) ++ (quote name ++ ':' :: ([' '] ++
          ((pieces (depth + 1) value).flatten ++
            ((fieldPieces depth fields).flatten ++ rest))))) := by
      simp [pieces, newLine]
    rw [htext]
    exact gives_value?_object hblanks hfield (gives_fields? depth fields rest)

/-- Reading the written items after the first gives the items. -/
theorem gives_items? (depth : Nat) (items : List Json) (rest : Text) :
    Gives (items? ((itemPieces depth items).flatten ++ rest)) items rest :=
  match items with
  | [] => by
    have htext : (itemPieces depth []).flatten ++ rest = newLine depth ++ ']' :: rest := by
      simp [itemPieces, newLine]
    rw [htext]
    exact gives_items?_nil (isBlank_newLine depth)
  | item :: items => by
    have hitem := gives_value? (isBlank_newLine (depth + 1)) (depth + 1) item
      (endsNumber_itemPieces depth items rest)
    have htext : (itemPieces depth (item :: items)).flatten ++ rest =
        ',' :: (newLine (depth + 1) ++
          ((pieces (depth + 1) item).flatten ++ ((itemPieces depth items).flatten ++ rest))) := by
      simp [itemPieces, newLine]
    rw [htext]
    exact gives_items?_cons hitem (gives_items? depth items rest)

/-- Reading the written fields after the first gives the fields. -/
theorem gives_fields? (depth : Nat) (fields : List (Text × Json)) (rest : Text) :
    Gives (fields? ((fieldPieces depth fields).flatten ++ rest)) fields rest :=
  match fields with
  | [] => by
    have htext : (fieldPieces depth []).flatten ++ rest = newLine depth ++ '}' :: rest := by
      simp [fieldPieces, newLine]
    rw [htext]
    exact gives_fields?_nil (isBlank_newLine depth)
  | (name, value) :: fields => by
    have hvalue := gives_value? isBlank_space (depth + 1) value
      (endsNumber_fieldPieces depth fields rest)
    have hfield := gives_field? (isBlank_newLine (depth + 1)) name hvalue
    have htext : (fieldPieces depth ((name, value) :: fields)).flatten ++ rest =
        ',' :: (newLine (depth + 1) ++ (quote name ++ ':' :: ([' '] ++
          ((pieces (depth + 1) value).flatten ++
            ((fieldPieces depth fields).flatten ++ rest))))) := by
      simp [fieldPieces, newLine]
    rw [htext]
    exact gives_fields?_cons hfield (gives_fields? depth fields rest)

end

/-- A document is read as the value that it was written for, up to its last line feed. -/
theorem read?_documentPieces (value : Json) :
    read? value.documentPieces.flatten = some (value, ['\n']) := by
  have hends : EndsNumber ['\n'] := by simp [EndsNumber]
  rw [documentPieces, List.flatten_append]
  exact gives_value? (List.forall_mem_nil _) 0 value hends

end MapHighlight.Json
