/-!
# Texts

A text is the list of its Unicode scalar values. Everything that is lexed or printed is a text;
bytes appear only where a text is read from a reader or measured in UTF-8.
-/

namespace MapHighlight

/-- A text is the list of its Unicode scalar values, first to last. -/
abbrev Text := List Char

/-- A string stands for the text of its characters. -/
instance : Coe String Text := ⟨String.toList⟩

namespace Text

/-- The number of bytes that a text takes in UTF-8. -/
def byteLength (text : Text) : Nat :=
  text.foldr (fun c bytes => c.utf8Size + bytes) 0

/-- The decimal digits of a number. -/
def ofNat (n : Nat) : Text :=
  Nat.toDigits 10 n

/-- The text in lower case as far as ASCII letters go; other characters stay as they are. -/
def asciiLower (text : Text) : Text :=
  text.map Char.toLower

/-- The pieces in which a text is written if its characters are escaped: each escape is a piece, and
so is each run of characters that stand for themselves. -/
def escapedPieces (escape : Char → Text) (text : Text) : List Text :=
  (text.splitBy fun c d => escape c == [c] && escape d == [d]).map fun run => run.flatMap escape

@[simp] theorem byteLength_nil : byteLength [] = 0 := rfl

@[simp] theorem byteLength_cons (c : Char) (text : Text) :
    byteLength (c :: text) = c.utf8Size + byteLength text := rfl

@[simp] theorem byteLength_append (left right : Text) :
    byteLength (left ++ right) = byteLength left + byteLength right := by
  induction left with
  | nil => simp
  | cons c left ih => rw [List.cons_append, byteLength_cons, byteLength_cons, ih, Nat.add_assoc]

end Text

end MapHighlight
