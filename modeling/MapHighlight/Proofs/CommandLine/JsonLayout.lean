import MapHighlight.Proofs.CommandLine.Printing
import MapHighlight.Proofs.Json.Reading

/-!
# Reading a document of tokens back

Tokens that are printed as a document can be read back: the document is an array, and each of its
items is an object whose fields hold the category, the lexeme and the location of a token.
-/

namespace MapHighlight

namespace Json

/-- The number that a value is. -/
def toNat? : Json → Option Nat
  | number n => some n
  | _ => none

/-- The text that a value is. -/
def toText? : Json → Option Text
  | string text => some text
  | _ => none

/-- The value of the field of an object that has a name. -/
def get? (name : Text) : Json → Option Json
  | object fields => (fields.find? fun field => field.1 = name).map (·.2)
  | _ => none

end Json

/-- A category is read by its name. -/
def Category.ofJson? (value : Json) : Option Category :=
  value.toText?.bind ofName?

/-- A location is read from its three numbers. -/
def Location.ofJson? (value : Json) : Option Location := do
  let line ← value.get? "line"
  let column ← value.get? "column"
  let offset ← value.get? "offset"
  return ⟨← line.toNat?, ← column.toNat?, ← offset.toNat?⟩

/-- A token is read from the fields of an object. -/
def Token.ofJson? (value : Json) : Option Token := do
  let category ← value.get? "category"
  let lexeme ← value.get? "lexeme"
  let location ← value.get? "location"
  return ⟨← Category.ofJson? category, ← lexeme.toText?, ← Location.ofJson? location⟩

theorem Location.ofJson?_json (location : Location) : ofJson? location.json = some location := rfl

/-- A token is read from the object that it is written as. -/
theorem Token.ofJson?_json (token : Token) : ofJson? token.json = some token := by
  have hcategory : Category.ofJson? token.category.json = some token.category :=
    Category.ofName?_name token.category
  have hfields : ofJson? token.json = (do
      return ⟨← Category.ofJson? token.category.json, token.lexeme,
        ← Location.ofJson? token.location.json⟩) := rfl
  rw [hfields, hcategory, Location.ofJson?_json]
  rfl

/-- Tokens are read from the objects that they are written as. -/
theorem Token.mapM_ofJson?_json (tokens : List Token) :
    (tokens.map json).mapM ofJson? = some tokens := by
  have hread : ofJson? ∘ json = fun token => pure token := funext ofJson?_json
  rw [List.mapM_map, hread, List.mapM_pure, List.map_id']
  rfl

namespace CommandLine

/-- The document that a run prints for a text can be read back: it is an array of objects and a line
feed, and the objects hold the tokens that are kept, one each. If no token is left out, their
lexemes make up the text. -/
theorem output_json_readsBack {arguments : List Argument} {world : World} {settings : Settings}
    {text : Text} (h : Prints arguments world settings .json text) :
    ∃ outcome values, run arguments world = .ok outcome ∧ outcome.code = 0 ∧
      Json.read? outcome.output = some (.array values, ['\n']) ∧
      values = (settings.kept text).map Token.json ∧
      values.mapM Token.ofJson? = some (settings.kept text) ∧
      (settings.KeepsAll → (settings.kept text).flatMap Token.lexeme = text) := by
  obtain ⟨done, hrun, houtcome⟩ := h.run_json
  refine ⟨done, _, hrun, congrArg Outcome.code houtcome, ?_, rfl, Token.mapM_ofJson?_json _, ?_⟩
  · rw [houtcome]
    exact Json.read?_documentPieces _
  · intro hall
    rw [hall.kept_eq, flatMap_lexeme_tokenize]

/-- A quoted text with a control character and an escape, printed as it is read. -/
theorem output_json_readsBack_of_control_character :
    let text := "\"\\\x01\n\"".toList
    let world : World := ⟨fun _ => .directory, Utf8.encode text, .working⟩
    let arguments : List Argument := ["tokens", "--format=json", "--chunked"]
    let settings : Settings := { format := some .json, chunked := true }
    Prints arguments world settings .json text ∧
    ∃ outcome values, run arguments world = .ok outcome ∧
      Json.read? outcome.output = some (.array values, ['\n']) ∧
      values.mapM Token.ofJson? = some [⟨.stringLiteral, text, .start⟩] := by
  intro text world arguments settings
  have hprints : Prints arguments world settings .json text :=
    { accepted := by decide +kernel
      format_eq := rfl
      registered := ⟨.ifm, rfl⟩
      source_eq := rfl
      device_eq := rfl }
  have hkept : settings.kept text = [⟨.stringLiteral, text, .start⟩] := by decide +kernel
  obtain ⟨outcome, values, hrun, -, hread, -, htokens, -⟩ := output_json_readsBack hprints
  rw [hkept] at htokens
  exact ⟨hprints, outcome, values, hrun, hread, htokens⟩

end CommandLine

end MapHighlight
