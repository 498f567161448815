import MapHighlight.Text

/-!
# Token categories

Each token carries one of sixteen categories. The categories describe and never reject: a character
that nothing recognises has a category of its own.
-/

namespace MapHighlight

/-- What kind of text a token is. The order of the constructors is the order of the categories. -/
inductive Category where
  /-- Line ends, blanks and the backslashes that continue a line. -/
  | whitespace
  /-- A number sign and the rest of its line. -/
  | comment
  /-- The semicolon that ends a statement. -/
  | punctuation
  /-- The equals sign. -/
  | operator
  /-- A text in double quotes, the quotes included. -/
  | stringLiteral
  /-- The start of a line up to and including its first equals sign. -/
  | headerAssignment
  /-- The word that opens a room, at the start of a line. -/
  | className
  /-- A word that opens another statement, at the start of a line. -/
  | entityName
  /-- A reserved word. -/
  | reservedKeyword
  /-- A name that the language defines. -/
  | builtinName
  /-- A direction of the compass or its abbreviation. -/
  | directionName
  /-- A word of an obsolete form. -/
  | obsoleteWarning
  /-- A number with a fraction or an exponent. -/
  | floatNumber
  /-- A run of digits. -/
  | integerNumber
  /-- Any other word. -/
  | identifier
  /-- A character that no rule recognises. -/
  | error
deriving DecidableEq, Repr, Inhabited

namespace Category

/-- Every category, in order. -/
def all : List Category :=
  [whitespace, comment, punctuation, operator, stringLiteral, headerAssignment, className,
    entityName, reservedKeyword, builtinName, directionName, obsoleteWarning, floatNumber,
    integerNumber, identifier, error]

/-- The position of a category in the order. -/
def index : Category → Nat :=
  Category.ctorIdx

/-- Categories compare by their positions. -/
instance : Ord Category where
  compare left right := compare left.index right.index

/-- The name by which a category is exchanged as data. -/
def name : Category → Text
  | whitespace => "Whitespace"
  | comment => "Comment"
  | punctuation => "Punctuation"
  | operator => "Operator"
  | stringLiteral => "StringLiteral"
  | headerAssignment => "HeaderAssignment"
  | className => "ClassName"
  | entityName => "EntityName"
  | reservedKeyword => "ReservedKeyword"
  | builtinName => "BuiltinName"
  | directionName => "DirectionName"
  | obsoleteWarning => "ObsoleteWarning"
  | floatNumber => "FloatNumber"
  | integerNumber => "IntegerNumber"
  | identifier => "Identifier"
  | error => "Error"

/-- The category that has a name, if one does. -/
def ofName? (text : Text) : Option Category :=
  all.find? fun category => category.name = text

theorem ofName?_name (category : Category) : ofName? category.name = some category := by
  cases category <;> rfl

/-- The dotted name under which a highlighting host looks up a style. -/
def standardName : Category → Text
  | whitespace => "Text"
  | comment => "Comment"
  | punctuation => "Punctuation"
  | operator => "Operator"
  | stringLiteral => "Literal.String"
  | headerAssignment => "Token"
  | className => "Name.Class"
  | entityName => "Name.Entity"
  | reservedKeyword => "Keyword.Reserved"
  | builtinName => "Name.Builtin"
  | directionName => "Name.Variable"
  | obsoleteWarning => "Generic.Error"
  | floatNumber => "Literal.Number.Float"
  | integerNumber => "Literal.Number.Integer"
  | identifier => "Name"
  | error => "Error"

/-- A category is shown by its standard name. -/
def display (category : Category) : Text :=
  category.standardName

/-- Whether tokens of the category carry no syntax. -/
def isTrivia : Category → Bool
  | whitespace | comment => true
  | _ => false

end Category

end MapHighlight
