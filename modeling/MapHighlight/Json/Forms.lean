import MapHighlight.Interner
import MapHighlight.Json
import MapHighlight.Registry

/-!
# Data forms

How locations, tokens and registrations are written as JSON. The fields stand in the order in which
the structures declare them.
-/

namespace MapHighlight

/-- A category is exchanged by its name. -/
def Category.json (category : Category) : Json :=
  .string category.name

/-- A location as an object of three numbers. -/
def Location.json (location : Location) : Json :=
  .object [("line", .number location.line), ("column", .number location.column),
    ("offset", .number location.offset)]

/-- A token as an object. -/
def Token.json (token : Token) : Json :=
  .object [("category", token.category.json), ("lexeme", .string token.lexeme),
    ("location", token.location.json)]

/-- An interned token has the form of the token it was made from. -/
def InternedToken.json (token : InternedToken) : Json :=
  token.toToken.json

/-- A registration as an object. -/
def Registration.json (registration : Registration) : Json :=
  let strings (texts : List Text) : Json := .array (texts.map .string)
  .object [("name", .string registration.name), ("aliases", strings registration.aliases),
    ("filenames", strings registration.filenames),
    ("mimetypes", strings registration.mimetypes)]

end MapHighlight
