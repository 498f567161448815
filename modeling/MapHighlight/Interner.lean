import MapHighlight.Text.Utf8
import MapHighlight.Token

/-!
# Interned texts

A map repeats few words many times, so tokens that outlive their source share one copy of each
lexeme. The interner knows every text that was interned and the number of its copy; two interned
texts share a copy exactly if they are the same text.
-/

namespace MapHighlight

/-- A text in the keeping of an interner. -/
structure Interned where
  /-- The number of the copy. -/
  copy : Nat
  /-- The text. -/
  text : Text
deriving Repr

/-- The texts that were interned so far; the position of a text is the number of its copy. -/
structure Interner where
  /-- The texts, each of them once. -/
  texts : List Text := []
deriving DecidableEq, Repr

namespace Interner

/-- Interns a text: a text seen before keeps its copy, a new one gets the next number. -/
def intern (interner : Interner) (text : Text) : Interned × Interner :=
  match interner.texts.idxOf? text with
  | some copy => (⟨copy, text⟩, interner)
  | none => (⟨interner.texts.length, text⟩, ⟨interner.texts ++ [text]⟩)

end Interner

namespace Interned

/-- Whether two interned texts share one copy. -/
def sharesCopy (left right : Interned) : Bool :=
  left.copy == right.copy

/-- Interned texts are equal if their texts are. -/
instance : BEq Interned where
  beq left right := left.text == right.text

/-- Interned texts are ordered by their bytes. -/
instance : Ord Interned where
  compare left right := compare (Utf8.encode left.text) (Utf8.encode right.text)

/-- The number of bytes of an interned text. -/
def byteLength (interned : Interned) : Nat :=
  interned.text.byteLength

end Interned

/-- A token whose lexeme is interned, so that it does not need its source. -/
structure InternedToken where
  /-- What kind of text it is. -/
  category : Category
  /-- The exact source text. -/
  lexeme : Interned
  /-- The place of its first character. -/
  location : Location
deriving Repr

/-- The token with its lexeme interned. -/
def Token.interned (token : Token) (interner : Interner) : InternedToken × Interner :=
  let (lexeme, interner) := interner.intern token.lexeme
  (⟨token.category, lexeme, token.location⟩, interner)

namespace InternedToken

/-- The token with its lexeme as a text of its own. -/
def toToken (token : InternedToken) : Token :=
  ⟨token.category, token.lexeme.text, token.location⟩

/-- An interned token is shown like the token it was made from. -/
def display (token : InternedToken) : Text :=
  token.toToken.display

end InternedToken

end MapHighlight
