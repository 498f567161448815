import MapHighlight.Action
import MapHighlight.Cursor

/-!
# Lexers

A lexer hands out the tokens of a source one at a time and can leave out trivia: white space,
comments or both. Tokens that are left out still move the cursor, so the places of the others do
not depend on the choice.
-/

namespace MapHighlight

/-- Which trivia a lexer hands out. -/
structure LexerConfig where
  /-- Whether white space is handed out. -/
  includeWhitespace : Bool := true
  /-- Whether comments are handed out. -/
  includeComments : Bool := true
deriving DecidableEq, Repr, Inhabited

namespace LexerConfig

/-- Whether tokens of a category are handed out. -/
def keeps (config : LexerConfig) : Category → Bool
  | .whitespace => config.includeWhitespace
  | .comment => config.includeComments
  | _ => true

/-- Whether every token is handed out, so that the lexemes make up the source. -/
def isLossless (config : LexerConfig) : Bool :=
  config.includeWhitespace && config.includeComments

end LexerConfig

/-- A lexer on its way through a source. -/
structure Lexer where
  /-- The cursor before the next token. -/
  cursor : Cursor
  /-- Which trivia is handed out. -/
  config : LexerConfig
deriving DecidableEq, Repr

/-- The outcome of asking a lexer for a token. -/
structure Lexer.Pull where
  /-- The steps taken, those to tokens that were left out included. -/
  steps : List Step
  /-- The token handed out, unless the text has ended. -/
  token : Option Token
  /-- The lexer afterwards. -/
  lexer : Lexer
deriving DecidableEq, Repr

namespace Lexer

/-- A lexer at the start of a source. -/
def ofSource (source : Text) (config : LexerConfig) : Lexer :=
  ⟨.ofSource source, config⟩

/-- The text that no token has taken yet. -/
def remaining (lexer : Lexer) : Text :=
  lexer.cursor.rest

/-- The place of the next step. -/
def location (lexer : Lexer) : Location :=
  lexer.cursor.location

/-- Asks for the next token that the configuration keeps. -/
def next (lexer : Lexer) : Pull :=
  match h : lexer.cursor.step? with
  | none => ⟨[], none, lexer⟩
  | some (step, cursor) =>
    have := Cursor.length_rest_lt_of_step? h
    if lexer.config.keeps step.token.category then
      ⟨[step], some step.token, { lexer with cursor }⟩
    else
      let pull := next { lexer with cursor }
      { pull with steps := step :: pull.steps }
termination_by lexer.cursor.rest.length

/-- The steps that are still to come. -/
def steps (lexer : Lexer) : List Step :=
  lexer.cursor.steps

/-- The tokens that are still to be handed out. -/
def tokens (lexer : Lexer) : List Token :=
  (lexer.steps.map (·.token)).filter fun token => lexer.config.keeps token.category

/-- What the lexer does until nothing is left to hand out: each step is reported, and the tokens
that the configuration keeps are handed out. -/
def actions (lexer : Lexer) : List (Action Token) :=
  lexer.steps.flatMap fun step =>
    .report step.event ::
      if lexer.config.keeps step.token.category then [.yield step.token] else []

/-- The lexer when nothing is left to hand out. -/
def finish (lexer : Lexer) : Lexer :=
  ⟨(lexer.cursor.scanUntil fun _ => false).cursor, lexer.config⟩

/-- A lower and an upper bound on the number of tokens still to be handed out. -/
def countBounds (lexer : Lexer) : Nat × Nat :=
  let bytes := lexer.remaining.byteLength
  (if 0 < bytes && lexer.config.isLossless then 1 else 0, bytes)

end Lexer

end MapHighlight
