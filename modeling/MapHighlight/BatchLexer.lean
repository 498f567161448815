import MapHighlight.Lexer
import MapHighlight.Reader
import MapHighlight.Text.Utf8

/-!
# Lexing in batches

A batch lexer reads whole lines until it has enough bytes, lexes what it has, and hands out the
tokens before it reads on. Every rule but one stops at the end of a line, so only a double quote
that nothing closes yet can depend on text still to come. Such a quote and everything after it is
held back until a second quote arrives or the input ends.

The number of passes made so far is not kept in the state, since no round looks at it: each request
lists the passes that it makes. Neither is the space for the line being read, which no round finds
filled.
-/

namespace MapHighlight

/-- How a batch lexer reads and what it hands out. -/
structure BatchConfig where
  /-- The least number of bytes to read before lexing; zero counts as one. -/
  size : Nat := 8192
  /-- Which trivia is handed out. -/
  lexer : LexerConfig := {}
deriving DecidableEq, Repr, Inhabited

/-- A lexer that reads its source as it goes. -/
structure BatchLexer where
  /-- Where the bytes come from. -/
  reader : Reader
  /-- How to read and what to hand out. -/
  config : BatchConfig
  /-- The text that was read and not lexed yet, with its place in the source. -/
  pending : Cursor := .ofSource []
  /-- Whether the pending text starts with a double quote that nothing in it closes. -/
  quoteHeld : Bool := false
  /-- The tokens that were lexed and not handed out yet. -/
  queue : List Token := []
  /-- The number of bytes that were read as text. -/
  bytesRead : Nat := 0
  /-- Whether the end of the input was seen. -/
  ended : Bool := false
  /-- Whether reading failed. -/
  failed : Bool := false
deriving DecidableEq, Repr

/-- What a batch lexer hands out: a token, or the error that ends the run. -/
abbrev BatchLexer.Item := Except ReadError Token

/-- The outcome of reading lines for a batch. -/
structure Gathered where
  /-- The text of the lines. -/
  text : Text
  /-- The number of bytes that were read as text, from the start of the source. -/
  bytesRead : Nat
  /-- The reader afterwards. -/
  reader : Reader
  /-- Whether the end of the input was seen. -/
  ended : Bool
  /-- The error that cut the reading short. -/
  error : Option ReadError

namespace Gathered

/-- Reads lines until the pending text, so long by now, reaches a target length. -/
def ofReader (target length bytesRead : Nat) (reader : Reader) : Gathered :=
  if length < target then
    match hread : reader.readLine with
    | (.error error, reader) => ⟨[], bytesRead, reader, false, some (.input error)⟩
    | (.ok [], reader) => ⟨[], bytesRead, reader, true, none⟩
    | (.ok (b :: bytes), next) =>
      have := Reader.weight_lt_of_readLine hread
      match Utf8.decode (b :: bytes) with
      | .error valid => ⟨[], bytesRead, next, false, some (.invalidUtf8 (bytesRead + valid))⟩
      | .ok text =>
        let size := (b :: bytes).length
        let more := ofReader target (length + size) (bytesRead + size) next
        { more with text := text ++ more.text }
  else ⟨[], bytesRead, reader, false, none⟩
termination_by Reader.weight reader.fills

/-- Reading lines leaves no more in the reader than there was. -/
theorem weight_ofReader_le (target length bytesRead : Nat) (reader : Reader) :
    Reader.weight (ofReader target length bytesRead reader).reader.fills ≤
      Reader.weight reader.fills := by
  fun_induction ofReader target length bytesRead reader with
  | case1 length bytesRead reader hlt error next hread =>
    simpa using Reader.weight_readLine_le hread
  | case2 length bytesRead reader hlt next hread => simpa using Reader.weight_readLine_le hread
  | case3 length bytesRead reader hlt b bytes next hread _ valid hdecode =>
    simpa using Reader.weight_readLine_le hread
  | case4 length bytesRead reader hlt b bytes next hread _ text hdecode size more ih =>
    exact Nat.le_trans ih (Reader.weight_readLine_le hread)
  | case5 => simp

/-- Reading lines toward a target not reached yet uses up part of what the reader holds, or finds
that the input has ended. -/
theorem weight_ofReader_lt_or_ended {target length : Nat} (hlt : length < target)
    (bytesRead : Nat) (reader : Reader) :
    Reader.weight (ofReader target length bytesRead reader).reader.fills <
        Reader.weight reader.fills ∨ (ofReader target length bytesRead reader).ended = true := by
  unfold ofReader
  rw [if_pos hlt]
  split
  · rename_i error next hread
    refine .inl (Reader.weight_readLine_lt hread fun hnil => ?_)
    simp [Reader.readLine, hnil, Reader.readLineFrom] at hread
  · exact .inr rfl
  · rename_i b bytes next hread
    have hless := Reader.weight_lt_of_readLine hread
    split
    · exact .inl hless
    · exact .inl (Nat.lt_of_le_of_lt (weight_ofReader_le _ _ _ _) hless)

end Gathered

/-- One run of the lexer over the pending text. -/
structure Pass where
  /-- The steps taken, the step to the quote that was held back, and the cursor afterwards. -/
  scan : Scan
  /-- The tokens to hand out. -/
  emitted : List Token
deriving DecidableEq, Repr

/-- What is reported of a pass. -/
def Pass.events (pass : Pass) : List Event :=
  let held := match pass.scan.left with
    | some step => [step.event, .quoteHeld step.token.location]
    | none => []
  pass.scan.steps.map Step.event ++ held ++
    [.batchLexed pass.emitted.length pass.scan.cursor.rest.byteLength]

namespace BatchLexer

/-- A batch lexer at the start of a source that comes from a reader. -/
def ofReader (reader : Reader) (config : BatchConfig) : BatchLexer :=
  { reader, config }

/-- A batch lexer for a source that is a text already. -/
def ofText (source : Text) (config : BatchConfig) : BatchLexer :=
  ofReader (.ofBytes (Utf8.encode source)) config

/-- The length that the pending text must reach before it is lexed. -/
def target (lexer : BatchLexer) : Nat :=
  lexer.pending.rest.byteLength + max lexer.config.size 1

/-- Reads the lines of the next batch. -/
def gather (lexer : BatchLexer) : Gathered :=
  .ofReader lexer.target lexer.pending.rest.byteLength lexer.bytesRead lexer.reader

/-- The batch lexer with the lines of a batch behind its pending text. -/
def receive (lexer : BatchLexer) (gathered : Gathered) : BatchLexer :=
  { lexer with
    reader := gathered.reader
    pending := { lexer.pending with rest := lexer.pending.rest ++ gathered.text }
    bytesRead := gathered.bytesRead
    ended := gathered.ended }

/-- The batch lexer after reading failed. Nothing that was pending will be lexed. -/
def fail (lexer : BatchLexer) : BatchLexer :=
  { lexer with pending := { lexer.pending with rest := [] }, failed := true }

/-- Lexes the pending text, up to an open quote unless the input has ended. -/
def pass (lexer : BatchLexer) : Pass :=
  let scan := lexer.pending.scanUntil fun token => token.isOpenQuote && !lexer.ended
  ⟨scan, (scan.steps.map Step.token).filter fun token =>
    lexer.config.lexer.keeps token.category⟩

/-- The batch lexer after a pass over its pending text. -/
def afterPass (lexer : BatchLexer) (pass : Pass) : BatchLexer :=
  { lexer with
    pending := pass.scan.cursor
    quoteHeld := pass.scan.left.isSome
    queue := lexer.queue ++ pass.emitted }

/-- What one round of work leads to. -/
inductive Round where
  /-- The request is answered: with an item, or with nothing if the run is over. -/
  | answer (item : Option Item) (lexer : BatchLexer)
  /-- Another round is needed, after a pass unless a held quote made it pointless. -/
  | again (pass : Option Pass) (lexer : BatchLexer)

/-- Lexes the pending text and goes on. -/
def relex (lexer : BatchLexer) : Round :=
  .again (some lexer.pass) (lexer.afterPass lexer.pass)

/-- One round of work for a request: a token that waits is handed out; otherwise a batch is read,
as long as there is input, and lexed. While a quote is held, lexing again is pointless until the
new text brings another quote. -/
def round (lexer : BatchLexer) : Round :=
  match lexer.queue with
  | token :: queue => .answer (some (.ok token)) { lexer with queue }
  | [] =>
    if lexer.failed || (lexer.ended && lexer.pending.rest.isEmpty) then .answer none lexer
    else if lexer.ended then lexer.relex
    else
      let gathered := lexer.gather
      let fed := lexer.receive gathered
      match gathered.error with
      | some error => .answer (some (.error error)) fed.fail
      | none =>
        if fed.quoteHeld && !gathered.text.contains '"' && !fed.ended then .again none fed
        else fed.relex

/-- How far a batch lexer is from the end of its run. -/
def rank (lexer : BatchLexer) : Nat × Nat × Nat :=
  (Reader.weight lexer.reader.fills, if lexer.ended then 0 else 1, lexer.pending.rest.length)

/-- The order in which ranks go down. -/
abbrev Below : Nat × Nat × Nat → Nat × Nat × Nat → Prop :=
  Prod.Lex (· < ·) (Prod.Lex (· < ·) (· < ·))

private theorem rest_afterPass_eq_nil {lexer : BatchLexer} (h : lexer.ended = true) :
    (lexer.afterPass lexer.pass).pending.rest = [] := by
  refine Cursor.rest_scanUntil_eq_nil (fun token => ?_) _
  simp [h]

private theorem rank_lt_of_gather {lexer fed : BatchLexer} (hopen : lexer.ended = false)
    (hreader : fed.reader = lexer.gather.reader) (hended : fed.ended = lexer.gather.ended) :
    Below fed.rank lexer.rank := by
  have htarget : lexer.pending.rest.byteLength < lexer.target := by
    unfold target
    omega
  have hle : Reader.weight fed.reader.fills ≤ Reader.weight lexer.reader.fills := by
    rw [hreader]
    exact Gathered.weight_ofReader_le _ _ _ _
  rcases Gathered.weight_ofReader_lt_or_ended htarget lexer.bytesRead lexer.reader with
    hless | hend
  · refine Prod.Lex.left _ _ ?_
    rw [hreader]
    exact hless
  · rcases Nat.lt_or_eq_of_le hle with hless | heq
    · exact Prod.Lex.left _ _ hless
    · unfold rank
      rw [heq]
      refine Prod.Lex.right _ (Prod.Lex.left _ _ ?_)
      have : fed.ended = true := hended.trans hend
      simp [this, hopen]

/-- A round that asks for another one brings the run closer to its end. -/
theorem rank_lt_of_round {lexer next : BatchLexer} {pass : Option Pass}
    (h : lexer.round = .again pass next) : Below next.rank lexer.rank := by
  unfold round at h
  split at h
  · contradiction
  · split at h
    · contradiction
    · rename_i hgoing
      simp only [Bool.or_eq_true, Bool.and_eq_true, not_or, not_and, Bool.not_eq_true,
        List.isEmpty_eq_false_iff] at hgoing
      split at h
      · rename_i hended
        cases h
        refine Prod.Lex.right _ (Prod.Lex.right _ ?_)
        rw [rest_afterPass_eq_nil hended]
        exact List.length_pos_iff.mpr (hgoing.2 hended)
      · rename_i hended
        have hopen : lexer.ended = false := by simpa using hended
        simp only at h
        split at h
        · contradiction
        · split at h
          · cases h
            exact rank_lt_of_gather hopen rfl rfl
          · cases h
            exact rank_lt_of_gather hopen rfl rfl

/-- The outcome of asking a batch lexer for an item. -/
structure Pull where
  /-- The passes made, in order. -/
  passes : List Pass
  /-- The item handed out, unless the run is over. -/
  item : Option Item
  /-- The batch lexer afterwards. -/
  lexer : BatchLexer

/-- Asks for the next item, working as many rounds as that takes. -/
def next (lexer : BatchLexer) : Pull :=
  match h : lexer.round with
  | .answer item lexer => ⟨[], item, lexer⟩
  | .again pass lexer =>
    have := rank_lt_of_round h
    let pull := next lexer
    { pull with passes := pass.toList ++ pull.passes }
termination_by lexer.rank
decreasing_by exact this

/-- The order in which a run goes down from item to item: the rank sinks, or it stays and the queue
gets shorter. -/
abbrev Nearer : (Nat × Nat × Nat) × Nat → (Nat × Nat × Nat) × Nat → Prop :=
  Prod.Lex Below (· < ·)

/-- How far a batch lexer is from handing out its last item. -/
def distance (lexer : BatchLexer) : (Nat × Nat × Nat) × Nat :=
  (lexer.rank, lexer.queue.length)

private theorem nearer_of_answer {lexer next : BatchLexer} {item : Item}
    (h : lexer.round = .answer (some item) next) : Nearer next.distance lexer.distance := by
  unfold round at h
  split at h
  · rename_i token queue hqueue
    cases h
    refine Prod.Lex.right _ ?_
    simp [hqueue]
  · split at h
    · cases h
    · split at h
      · cases h
      · rename_i hended
        have hopen : lexer.ended = false := by simpa using hended
        simp only at h
        split at h
        · cases h
          exact Prod.Lex.left _ _ (rank_lt_of_gather hopen rfl rfl)
        · split at h <;> cases h

private theorem nearer_of_below {lexer again last : BatchLexer}
    (hbelow : Below again.rank lexer.rank) (hnearer : Nearer last.distance again.distance) :
    Nearer last.distance lexer.distance := by
  simp only [Nearer, Below, Prod.lex_def, Prod.ext_iff, distance] at *
  omega

/-- Handing out an item brings a batch lexer nearer to the last one. -/
theorem nearer_of_next {lexer : BatchLexer} {item : Item} (h : lexer.next.item = some item) :
    Nearer lexer.next.lexer.distance lexer.distance := by
  fun_induction next lexer with
  | case1 lexer answered next hround =>
    simp only at h
    subst h
    exact nearer_of_answer hround
  | case2 lexer pass again hround hbelow pull ih =>
    exact nearer_of_below hbelow (ih h)

/-- The items that are still to be handed out. -/
def items (lexer : BatchLexer) : List Item :=
  let pull := lexer.next
  match h : pull.item with
  | none => []
  | some item =>
    have := nearer_of_next h
    item :: pull.lexer.items
termination_by lexer.distance
decreasing_by exact this

/-- What the batch lexer does until the run is over: for each request the passes made are reported
before an item is handed out. -/
def actions (lexer : BatchLexer) : List (Action Item) :=
  let pull := lexer.next
  let reports := (pull.passes.flatMap Pass.events).map .report
  match h : pull.item with
  | none => reports
  | some item =>
    have := nearer_of_next h
    reports ++ .yield item :: pull.lexer.actions
termination_by lexer.distance
decreasing_by exact this

end BatchLexer

end MapHighlight
