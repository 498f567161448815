import MapHighlight.Proofs.Text.Numerals
import MapHighlight.Text.Quoted

/-!
# Reading quoted texts

What was written is read from left to right; whatever is read leaves a shorter rest of the text. A
quoted text is read up to the double quote that closes it. How the escapes in it are to be read is
left open, and all that matters of the way they were written is that reading an escape undoes it.
-/

namespace MapHighlight

namespace Text

/-- What is left of a text behind something read from its start. -/
abbrev Rest (text : Text) :=
  { rest : Text // rest.length < text.length }

namespace Rest

/-- What is left behind the first character. -/
def tail (c : Char) (text : Text) : Rest (c :: text) :=
  ⟨text, Nat.lt_succ_self text.length⟩

/-- What is left of what is left of a text. -/
def further {text : Text} (rest : Rest text) (behind : Rest rest.1) : Rest text :=
  ⟨behind.1, Nat.lt_trans behind.2 rest.2⟩

end Rest

/-- Whether something that was read from the start of a text is a value and leaves a rest. -/
def Gives {α : Type} {text : Text} (reading : Option (α × Rest text)) (value : α) (rest : Text) :
    Prop :=
  reading.map (fun read => (read.1, read.2.1)) = some (value, rest)

theorem Gives.exists_eq {α : Type} {text : Text} {reading : Option (α × Rest text)} {value : α}
    {rest : Text} (h : Gives reading value rest) :
    ∃ hshort, reading = some (value, ⟨rest, hshort⟩) := by
  obtain ⟨⟨first, left⟩, hreading, hread⟩ := Option.map_eq_some_iff.mp h
  obtain ⟨rfl, rfl⟩ := Prod.ext_iff.mp hread
  exact ⟨left.2, hreading⟩

/-- Cuts a text at the first of its characters that is the delimiter. -/
def cutAt? (delimiter : Char) : (text : Text) → Option (Text × Rest text)
  | [] => none
  | c :: text =>
    if c = delimiter then some ([], .tail c text)
    else do
      let (before, rest) ← cutAt? delimiter text
      return (c :: before, (Rest.tail c text).further rest)

/-- A text is cut at a delimiter that does not occur before. -/
theorem cutAt?_append {delimiter : Char} {before : Text} (h : delimiter ∉ before) (after : Text) :
    Gives (cutAt? delimiter (before ++ delimiter :: after)) before after := by
  induction before with
  | nil => simp [Gives, cutAt?, Rest.tail]
  | cons c before ih =>
    rw [List.mem_cons, not_or] at h
    obtain ⟨_, hcut⟩ := (ih h.2).exists_eq
    simp [Gives, cutAt?, Ne.symm h.1, hcut, Rest.further]

/-- The character with a code point, unless there is none. -/
def scalar? (codePoint : Nat) : Option Char :=
  if codePoint.isValidChar then some (.ofNat codePoint) else none

theorem scalar?_toNat (c : Char) : scalar? c.toNat = some c := by
  rw [scalar?, if_pos (show c.toNat.isValidChar from c.valid), Char.ofNat_toNat]

/-- How a quoted text is written between its double quotes. -/
structure Escaping where
  /-- Whether a character may stand for itself. -/
  isPlain : Char → Bool
  /-- Reads what stands behind a backslash. -/
  unescape? : (text : Text) → Option (Char × Rest text)

/-- Reads a text up to the double quote that closes it. -/
def unquote? (escaping : Escaping) (text : Text) : Option (Text × Rest text) :=
  match text with
  | [] => none
  | c :: text =>
    if c = '"' then some ([], .tail c text)
    else if c = '\\' then do
      let (c, rest) ← escaping.unescape? text
      let (content, behind) ← unquote? escaping rest.1
      return (c :: content, (Rest.tail _ text).further (rest.further behind))
    else if escaping.isPlain c then do
      let (content, rest) ← unquote? escaping text
      return (c :: content, (Rest.tail c text).further rest)
    else none
termination_by text.length
decreasing_by
  · exact Nat.lt_succ_of_lt rest.2
  · exact Nat.lt_succ_self text.length

namespace Escaping

/-- Whether a text is a backslash and what is read as the escape of a character. -/
def IsEscapeOf (escaping : Escaping) (c : Char) (text : Text) : Prop :=
  ∃ escaped, text = '\\' :: escaped ∧
    ∀ rest, Gives (escaping.unescape? (escaped ++ rest)) c rest

/-- Whether reading undoes the escapes: a character stands for itself, unless it would be taken for
something else, or is written as an escape that is read as the character. -/
def Undoes (escaping : Escaping) (escape : Char → Text) : Prop :=
  ∀ c, (escape c = [c] ∧ c ≠ '"' ∧ c ≠ '\\' ∧ escaping.isPlain c = true) ∨
    escaping.IsEscapeOf c (escape c)

variable {escaping : Escaping}

/-- A letter that is read as a character behind a backslash makes an escape of it. -/
theorem isEscapeOf_letter {c letter : Char}
    (h : ∀ rest, escaping.unescape? (letter :: rest) = some (c, .tail letter rest)) :
    escaping.IsEscapeOf c ['\\', letter] :=
  ⟨[letter], rfl, fun rest => congrArg (Option.map _) (h rest)⟩

/-- A quoted text is read as what it quotes, whatever follows. -/
theorem Undoes.gives_unquote? {escape : Char → Text} (h : escaping.Undoes escape)
    (text rest : Text) :
    Gives (unquote? escaping (text.flatMap escape ++ '"' :: rest)) text rest := by
  induction text with
  | nil =>
    rw [List.flatMap_nil, List.nil_append]
    simp [Gives, unquote?, Rest.tail]
  | cons c text ih =>
    obtain ⟨_, hrest⟩ := ih.exists_eq
    rw [List.flatMap_cons, List.append_assoc]
    rcases h c with ⟨hself, hquote, hbackslash, hplain⟩ | ⟨escaped, hescape, hread⟩
    · rw [hself]
      simp [Gives, unquote?, hquote, hbackslash, hplain, hrest, Rest.further]
    · rw [hescape]
      obtain ⟨_, hunescape⟩ := (hread (text.flatMap escape ++ '"' :: rest)).exists_eq
      simp [Gives, unquote?, hunescape, hrest, Rest.further]

end Escaping

end Text

namespace Quoted

open Text (Escaping)

/-- Reads what stands behind the backslash of an escape. -/
def unescape? : (text : Text) → Option (Char × Text.Rest text)
  | [] => none
  | c :: text =>
    if c = '0' then some ('\x00', .tail c text)
    else if c = 't' then some ('\t', .tail c text)
    else if c = 'r' then some ('\r', .tail c text)
    else if c = 'n' then some ('\n', .tail c text)
    else if c = '\\' ∨ c = '"' then some (c, .tail c text)
    else if c = 'u' then do
      let (opening, rest) ← Text.cutAt? '{' text
      let (digits, behind) ← Text.cutAt? '}' rest.1
      let codePoint ← Numeral.read? 16 digits
      let scalar ← Text.scalar? codePoint
      if opening = [] then return (scalar, (Text.Rest.tail c text).further (rest.further behind))
      else none
    else none

/-- Characters are written as their code points in a form that is read as they are. -/
theorem gives_unescape?_codePoint (c : Char) (rest : Text) :
    Text.Gives (unescape? ('u' :: '{' :: (Nat.toDigits 16 c.toNat ++ '}' :: rest))) c rest := by
  have hclosing : '}' ∉ Nat.toDigits 16 c.toNat :=
    Numeral.not_mem_toDigits (by omega) (by omega) (by decide) c.toNat
  obtain ⟨_, hcut⟩ := (Text.cutAt?_append hclosing rest).exists_eq
  have hread : Numeral.read? 16 (Nat.toDigits 16 c.toNat) = some c.toNat :=
    Numeral.read?_toDigits (by omega) (by omega) c.toNat
  simp [Text.Gives, unescape?, Text.cutAt?, Text.Rest.tail, Text.Rest.further, hcut, hread,
    Text.scalar?_toNat]

/-- How the escapes in a quoted text are read. -/
def escaping : Escaping :=
  ⟨fun _ => true, unescape?⟩

/-- Reading the escapes undoes writing them, whichever characters are hidden. -/
theorem undoes_escapeWhere (hidden : Char → Bool) :
    escaping.Undoes (escapeWhere hidden '"') := by
  intro c
  unfold escapeWhere
  split_ifs with hnul htab hreturn hfeed hself hhidden
  · exact .inr (Escaping.isEscapeOf_letter fun rest => by simp [escaping, unescape?, hnul])
  · exact .inr (Escaping.isEscapeOf_letter fun rest => by simp [escaping, unescape?, htab])
  · exact .inr (Escaping.isEscapeOf_letter fun rest => by simp [escaping, unescape?, hreturn])
  · exact .inr (Escaping.isEscapeOf_letter fun rest => by simp [escaping, unescape?, hfeed])
  · refine .inr (Escaping.isEscapeOf_letter fun rest => ?_)
    rcases hself with rfl | rfl <;> simp [escaping, unescape?]
  · refine .inr ⟨'u' :: '{' :: (Nat.toDigits 16 c.toNat ++ ['}']), rfl, fun rest => ?_⟩
    rw [List.cons_append, List.cons_append, List.append_assoc]
    exact gives_unescape?_codePoint c rest
  · exact .inl ⟨rfl, fun h => hself (.inr h), fun h => hself (.inl h), rfl⟩

end Quoted

end MapHighlight
