import MapHighlight.Proofs.BatchLexer.Actions
import MapHighlight.Proofs.BatchLexer.States
import MapHighlight.Proofs.Lexer.Requests

/-!
# Held quotes

A quote is held by one pass at most. While it is held, no pass is made before new text brings another
quote or the input ends, so that the next pass takes the quote: as the start of a quoted text, or as
whatever it is once nothing can close it any more. Each pass therefore takes only one token twice,
the one that it holds back.
-/

namespace MapHighlight

/-- The place of a quote that is reported as held. -/
def Event.heldAt? : Event → Option Location
  | quoteHeld location => some location
  | _ => none

/-- Whether a token is reported, taken or not. -/
def Event.isOfToken : Event → Bool
  | matched .. | unmatched .. => true
  | _ => false

@[simp] theorem Step.heldAt?_event (step : Step) : step.event.heldAt? = none := by
  cases step <;> rfl

@[simp] theorem Step.isOfToken_event (step : Step) : step.event.isOfToken = true := by
  cases step <;> rfl

namespace Pass

/-- The place of the quote that a pass holds back, if it holds one back. -/
def heldAt? (pass : Pass) : Option Location :=
  pass.scan.left.map fun step => step.token.location

/-- Whether a pass takes a quoted text at a place before anything else. -/
def ClosesAt (location : Location) (pass : Pass) : Prop :=
  ∃ token tokens, pass.tokens = token :: tokens ∧ token.category = .stringLiteral ∧
    token.location = location

/-- A pass reports the quote that it holds back, and no other one, as held. -/
theorem filterMap_events (pass : Pass) :
    pass.events.filterMap Event.heldAt? = pass.heldAt?.toList := by
  have hsteps : (pass.scan.steps.map Step.event).filterMap Event.heldAt? = [] := by simp
  unfold events heldAt?
  rw [List.filterMap_append, List.filterMap_append, hsteps]
  cases pass.scan.left with
  | none => rfl
  | some step => cases step <;> rfl

/-- A pass reports the tokens that it takes and the one that it holds back. -/
theorem countP_events (pass : Pass) :
    pass.events.countP Event.isOfToken = pass.tokens.length + pass.heldAt?.toList.length := by
  have hsteps : (pass.scan.steps.map Step.event).countP Event.isOfToken = pass.tokens.length := by
    rw [List.countP_map, tokens, List.length_map]
    exact List.countP_eq_length.mpr fun step _ => step.isOfToken_event
  unfold events heldAt?
  rw [List.countP_append, List.countP_append, hsteps]
  cases pass.scan.left with
  | none => rfl
  | some step => cases step <;> rfl

/-- The quotes reported as held are those that the passes hold back. -/
theorem filterMap_flatMap_events (passes : List Pass) :
    (passes.flatMap events).filterMap Event.heldAt? = passes.filterMap heldAt? := by
  induction passes with
  | nil => rfl
  | cons pass passes ih =>
    rw [List.flatMap_cons, List.filterMap_append, filterMap_events, ih, List.filterMap_cons]
    cases pass.heldAt? <;> rfl

/-- The tokens reported are those taken, and once more those held back. -/
theorem countP_flatMap_events (passes : List Pass) :
    (passes.flatMap events).countP Event.isOfToken =
      (passes.flatMap tokens).length + passes.countP fun pass => pass.heldAt?.isSome := by
  induction passes with
  | nil => rfl
  | cons pass passes ih =>
    have hheld : pass.heldAt?.toList.length = if pass.heldAt?.isSome then 1 else 0 := by
      cases pass.heldAt? <;> rfl
    rw [List.flatMap_cons, List.flatMap_cons, List.countP_append, List.length_append,
      List.countP_cons, countP_events, ih, hheld]
    omega

end Pass

namespace BatchLexer

variable {lexer next : BatchLexer} {passes : List Pass} {lexed : Text} {location : Location}

/-- After a pass that held a quote back, the pending text starts with the held quote. -/
theorem held_of_heldAt? (h : lexer.pass.heldAt? = some location) :
    (lexer.afterPass lexer.pass).quoteHeld = true ∧
      (lexer.afterPass lexer.pass).pending.location = location := by
  obtain ⟨step, hleft, rfl⟩ := Option.map_eq_some_iff.mp h
  obtain ⟨-, next, hstep⟩ := Cursor.step?_of_left_eq_some _ hleft
  constructor
  · rw [afterPass, hleft]
    rfl
  · exact (Cursor.takes_of_step? hstep).location_eq.symm

/-- A pass that holds nothing back takes all of the pending text. -/
theorem rest_of_heldAt?_eq_none (h : lexer.pass.heldAt? = none) :
    lexer.pass.scan.cursor.rest = [] :=
  Cursor.rest_of_left_eq_none _ (Option.map_eq_none_iff.mp h)

/-- Reading again while a quote is held leads to a pass only if the quote will be taken. -/
structure IsReady (lexer : BatchLexer) : Prop extends lexer.IsReading where
  /-- Another quote has come, or none will. -/
  mem_or_ended : lexer.quoteHeld = true → '"' ∈ lexer.gather.text ∨ lexer.gather.ended = true

/-- A round that asks for another one is made before reading fails. -/
theorem failed_eq_false_of_again {pass : Option Pass} (hround : lexer.round = .again pass next) :
    lexer.failed = false := by
  have hworks := works_round lexer
  rw [hround] at hworks
  cases hworks with
  | lastPass _ hfailed => exact hfailed
  | skip hreading | pass hreading => exact hreading.failed_eq

/-- In a coherent state, a round that asks for another one reads. It skips the pass over a held
quote or makes the pass over all that is pending. -/
theorem IsCoherent.cases_of_again {pass : Option Pass} (h : lexer.IsCoherent lexed)
    (hround : lexer.round = .again pass next) :
    (lexer.IsReading ∧ pass = none ∧ next = lexer.fed) ∨
      (lexer.IsReady ∧ pass = some lexer.fed.pass ∧
        next = lexer.fed.afterPass lexer.fed.pass) := by
  have hworks := works_round lexer
  rw [hround] at hworks
  cases hworks with
  | lastPass hqueue hfailed hended =>
    -- Nothing is pending at the end of the input, so the run is over.
    have hover : lexer.IsOver := ⟨hqueue, .inr ⟨hended, h.rest_eq_nil hended⟩⟩
    rw [hover.round_eq] at hround
    contradiction
  | skip hreading => exact .inl ⟨hreading, rfl, rfl⟩
  | pass hreading herror =>
    refine .inr ⟨⟨hreading, fun hheld => ?_⟩, rfl, rfl⟩
    by_contra hskip
    rw [not_or, Bool.not_eq_true] at hskip
    rw [round_of_skip hreading herror hheld hskip.1 hskip.2] at hround
    cases hround

variable {reader : Reader} {config : BatchConfig}

/-- The states of a run can be followed from the start: a token is handed out, reading fails, the
pass over a held quote is skipped, or the pass over all that is pending is made. -/
theorem reaches_induction {motive : List Pass → BatchLexer → Prop}
    (start : motive [] (ofReader reader config))
    (handOut : ∀ passes lexer queue, motive passes lexer → motive passes { lexer with queue })
    (failure : ∀ passes lexer, lexer.IsReading → motive passes lexer →
      motive passes lexer.fed.fail)
    (skip : ∀ passes lexer, lexer.IsReading → motive passes lexer → motive passes lexer.fed)
    (pass : ∀ passes lexer lexed, lexer.IsReady → lexer.IsCoherent lexed → motive passes lexer →
      motive (passes ++ [lexer.fed.pass]) (lexer.fed.afterPass lexer.fed.pass))
    (h : (ofReader reader config).Reaches passes lexer) : motive passes lexer := by
  induction h with
  | start => exact start
  | again hreaches hround ih =>
    have hcoherent := isCoherent_of_reaches hreaches (failed_eq_false_of_again hround)
    rcases hcoherent.cases_of_again hround with ⟨hreading, rfl, rfl⟩ | ⟨hready, rfl, rfl⟩
    · rw [Option.toList_none, List.append_nil]
      exact skip _ _ hreading ih
    · exact pass _ _ _ hready hcoherent ih
  | @answer passes lexer next item _ hround ih =>
    have hworks := works_round lexer
    rw [hround] at hworks
    cases hworks with
    | handOut => exact handOut _ _ _ ih
    | exhausted => exact ih
    | failure hreading => exact failure _ _ hreading ih

/-- A pass takes the next token first if that is a closed quote or the input has ended. -/
theorem exists_tokens_of_step? {step : Step} {after : Cursor}
    (hstep : lexer.pending.step? = some (step, after))
    (htaken : step.token.category = .stringLiteral ∨ lexer.ended = true) :
    ∃ tokens, lexer.pass.tokens = step.token :: tokens := by
  have hleave : (step.token.isOpenQuote && !lexer.ended) = false := by
    rcases htaken with hstring | hended
    · simp [Token.isOpenQuote, hstring]
    · simp [hended]
  have hscan := @Cursor.scanUntil_of_not_leave _ _ _
    (fun token => token.isOpenQuote && !lexer.ended) hstep hleave
  exact ⟨_, congrArg (fun scan : Scan => scan.steps.map Step.token) hscan⟩

/-- A pass over a held quote takes it first, as the start of a quoted text unless the input has
ended. -/
theorem IsReady.exists_tokens_of_held (h : lexer.IsReady) (hsettled : lexer.IsSettled)
    (hheld : lexer.quoteHeld = true) :
    ∃ token tokens, lexer.fed.pass.tokens = token :: tokens ∧
      token.location = lexer.pending.location ∧
      (token.category = .stringLiteral ∨ lexer.fed.ended = true) := by
  by_cases hquote : '"' ∈ lexer.gather.text
  · obtain ⟨lexeme, after, hstep, -⟩ := hsettled.exists_step?_of_quote hheld hquote
    rw [← pending_fed] at hstep
    obtain ⟨tokens, htokens⟩ := exists_tokens_of_step? hstep (.inl rfl)
    exact ⟨_, tokens, htokens, rfl, .inl rfl⟩
  · have hended : lexer.fed.ended = true := (h.mem_or_ended hheld).resolve_left hquote
    obtain ⟨rest, hrest, -⟩ := hsettled.rest_of_held hheld
    cases hstep : lexer.fed.pending.step? with
    | none => simp [pending_fed, Cursor.extend, Cursor.step?_eq_none_iff, hrest] at hstep
    | some found =>
      obtain ⟨step, after⟩ := found
      obtain ⟨tokens, htokens⟩ := exists_tokens_of_step? hstep (.inr hended)
      exact ⟨_, tokens, htokens, (Cursor.takes_of_step? hstep).location_eq, .inr hended⟩

/-- What has become of the quotes that the passes of a run have held back. -/
structure Resolves (passes : List Pass) (lexer : BatchLexer) : Prop where
  /-- A quote that the last pass has held back is still held unless reading failed. -/
  of_last : ∀ {before held location}, passes = before ++ [held] →
    held.heldAt? = some location → lexer.failed = false →
    lexer.quoteHeld = true ∧ lexer.pending.location = location
  /-- Any other one was taken by the pass behind, as a quoted text or at the end of the input. -/
  of_earlier : ∀ {before held pass later location}, passes = before ++ held :: pass :: later →
    held.heldAt? = some location → pass.ClosesAt location ∨ later = [] ∧ lexer.ended = true

namespace Resolves

/-- Before the end of the input is seen, all quotes but the last were closed. -/
theorem closesAt (h : Resolves passes lexer) (hopen : lexer.ended = false)
    {before later : List Pass} {held pass : Pass}
    (hpasses : passes = before ++ held :: pass :: later) (hheld : held.heldAt? = some location) :
    pass.ClosesAt location := by
  rcases h.of_earlier hpasses hheld with hcloses | ⟨-, hended⟩
  · exact hcloses
  · rw [hopen] at hended
    contradiction

/-- A pass takes the quote that is held, and its own quote is the last one. -/
theorem of_pass (h : Resolves passes lexer) (hready : lexer.IsReady)
    (hsettled : lexer.IsSettled) :
    Resolves (passes ++ [lexer.fed.pass]) (lexer.fed.afterPass lexer.fed.pass) := by
  constructor
  · intro before held location hpasses hheld _
    obtain ⟨-, hlast⟩ := List.append_inj' hpasses rfl
    cases hlast
    exact held_of_heldAt? hheld
  · intro before held pass later location hpasses hheld
    -- Either the last pass has held the quote, or the pass behind was made earlier.
    rcases List.eq_nil_or_concat' later with rfl | ⟨later, last, rfl⟩
    · rw [List.append_cons before held] at hpasses
      obtain ⟨rfl, hlast⟩ := List.append_inj' hpasses rfl
      cases hlast
      obtain ⟨hquote, rfl⟩ := h.of_last rfl hheld hready.failed_eq
      obtain ⟨token, tokens, htokens, hlocation, hstring | hended⟩ :=
        hready.exists_tokens_of_held hsettled hquote
      · exact .inl ⟨token, tokens, htokens, hstring, hlocation⟩
      · exact .inr ⟨rfl, hended⟩
    · have hinit : passes ++ [lexer.fed.pass] =
          (before ++ held :: pass :: later) ++ [last] := by
        rw [hpasses]
        simp
      obtain ⟨rfl, -⟩ := List.append_inj' hinit rfl
      exact .inl (h.closesAt hready.ended_eq rfl hheld)

end Resolves

/-- The quotes that the passes of a run have held back stand one behind another. -/
structure HoldsInOrder (passes : List Pass) (lexer : BatchLexer) : Prop where
  /-- Each one stands behind the earlier ones. -/
  pairwise : (passes.filterMap Pass.heldAt?).Pairwise fun earlier later =>
    earlier.offset < later.offset
  /-- All of them stand before the pending text, the one at its start apart if it is still held. -/
  offset_lt : lexer.failed = false → ∀ location ∈ passes.filterMap Pass.heldAt?,
    location.offset < lexer.pending.location.offset + lexer.quoteHeld.toNat

/-- A pass moves on, past the quote that is held if there is one. -/
theorem IsReady.offset_le_of_pass (h : lexer.IsReady) (hcoherent : lexer.IsCoherent lexed) :
    lexer.pending.location.offset + lexer.quoteHeld.toNat ≤
      (lexer.fed.afterPass lexer.fed.pass).pending.location.offset := by
  have hcovers := covers_pass hcoherent.toIsBehind.fed.isPlaced
  have hlocation : (lexer.fed.afterPass lexer.fed.pass).pending.location =
      lexer.pending.location.advance lexer.fed.pass.text := hcovers.location_advance
  have hlength : lexer.fed.pass.tokens.length ≤ lexer.fed.pass.text.byteLength :=
    hcovers.cover.length_le.trans (Text.length_le_byteLength _)
  rw [hlocation, Location.offset_advance]
  cases hheld : lexer.quoteHeld with
  | false => exact Nat.add_le_add_left (Nat.zero_le _) _
  | true =>
    obtain ⟨token, tokens, htokens, -⟩ := h.exists_tokens_of_held hcoherent.toIsSettled hheld
    rw [htokens, List.length_cons] at hlength
    rw [Bool.toNat_true]
    omega

namespace HoldsInOrder

/-- The quote that a pass holds back stands behind the earlier ones. -/
theorem of_pass (h : HoldsInOrder passes lexer) (hready : lexer.IsReady)
    (hcoherent : lexer.IsCoherent lexed) :
    HoldsInOrder (passes ++ [lexer.fed.pass]) (lexer.fed.afterPass lexer.fed.pass) := by
  have hmoved := hready.offset_le_of_pass hcoherent
  have hearlier := h.offset_lt hready.failed_eq
  have hnew : ∀ location ∈ [lexer.fed.pass].filterMap Pass.heldAt?,
      (lexer.fed.afterPass lexer.fed.pass).quoteHeld = true ∧
      (lexer.fed.afterPass lexer.fed.pass).pending.location = location := by
    intro location hmem
    obtain ⟨pass, hpass, hheld⟩ := List.mem_filterMap.mp hmem
    obtain rfl := List.mem_singleton.mp hpass
    exact held_of_heldAt? hheld
  constructor
  · rw [List.filterMap_append, List.pairwise_append]
    refine ⟨h.pairwise, ?_, fun earlier hmem location hlocation => ?_⟩
    · cases hheld : lexer.fed.pass.heldAt? <;> simp [hheld]
    · obtain ⟨-, rfl⟩ := hnew location hlocation
      exact Nat.lt_of_lt_of_le (hearlier earlier hmem) hmoved
  · intro _ location hmem
    rw [List.filterMap_append, List.mem_append] at hmem
    rcases hmem with hmem | hmem
    · exact Nat.lt_of_lt_of_le (hearlier location hmem)
        (hmoved.trans (Nat.le_add_right _ _))
    · obtain ⟨hheld, rfl⟩ := hnew location hmem
      rw [hheld]
      exact Nat.lt_succ_self _

/-- No quote is reported as held twice. -/
theorem nodup (h : HoldsInOrder passes lexer) :
    ((passes.flatMap Pass.events).filterMap Event.heldAt?).Nodup := by
  rw [Pass.filterMap_flatMap_events]
  exact List.Pairwise.imp (fun hlt hsame => Nat.ne_of_lt hlt (congrArg Location.offset hsame))
    h.pairwise

end HoldsInOrder

/-- In every state of a run, all quotes but the last one held back have been taken. -/
theorem resolves_of_reaches (h : (ofReader reader config).Reaches passes lexer) :
    Resolves passes lexer := by
  refine reaches_induction ?_ ?_ ?_ ?_ ?_ h
  · exact ⟨fun hpasses => by simp at hpasses, fun hpasses => by simp at hpasses⟩
  · intro passes lexer queue hresolves
    exact ⟨hresolves.of_last, hresolves.of_earlier⟩
  · intro passes lexer hreading hresolves
    exact ⟨nofun, fun hpasses hheld =>
      .inl (hresolves.closesAt hreading.ended_eq hpasses hheld)⟩
  · intro passes lexer hreading hresolves
    exact ⟨hresolves.of_last, fun hpasses hheld =>
      .inl (hresolves.closesAt hreading.ended_eq hpasses hheld)⟩
  · intro passes lexer lexed hready hcoherent hresolves
    exact hresolves.of_pass hready hcoherent.toIsSettled

/-- In every state of a run, the quotes held back stand one behind another. -/
theorem holdsInOrder_of_reaches (h : (ofReader reader config).Reaches passes lexer) :
    HoldsInOrder passes lexer := by
  refine reaches_induction ?_ ?_ ?_ ?_ ?_ h
  · exact ⟨.nil, fun _ => by simp⟩
  · intro passes lexer queue hholds
    exact ⟨hholds.pairwise, hholds.offset_lt⟩
  · intro passes lexer _ hholds
    exact ⟨hholds.pairwise, nofun⟩
  · intro passes lexer _ hholds
    exact ⟨hholds.pairwise, hholds.offset_lt⟩
  · intro passes lexer lexed hready hcoherent hholds
    exact hholds.of_pass hready hcoherent

/-- In every run, a pass that holds nothing back takes all of the pending text. -/
theorem rest_of_mem_passes (h : (ofReader reader config).Reaches passes lexer) :
    ∀ pass ∈ passes, pass.heldAt? = none → pass.scan.cursor.rest = [] := by
  refine reaches_induction (motive := fun passes _ =>
    ∀ pass ∈ passes, pass.heldAt? = none → pass.scan.cursor.rest = []) ?_ ?_ ?_ ?_ ?_ h
  · simp
  · exact fun _ _ _ hall => hall
  · exact fun _ _ _ hall => hall
  · exact fun _ _ _ hall => hall
  · intro passes lexer lexed _ _ hall pass hmem
    rcases List.mem_append.mp hmem with hearlier | hlast
    · exact hall pass hearlier
    · obtain rfl := List.mem_singleton.mp hlast
      exact rest_of_heldAt?_eq_none

/-- While a quote is held, the run is not over. -/
theorem IsCoherent.not_isOver (h : lexer.IsCoherent lexed) (hfailed : lexer.failed = false)
    (hheld : lexer.quoteHeld = true) : ¬ lexer.IsOver := by
  intro hover
  rcases hover.failed_or_ended with hfail | ⟨hended, -⟩
  · rw [hfailed] at hfail
    contradiction
  · rw [h.ended_of_held hheld] at hended
    contradiction

/-- The tokens that a pass asks the lexer of the pending text for: those in front of the first quote
to be held back, and that quote. -/
def demanded (lexer : BatchLexer) : List Token :=
  let tokens := (Lexer.mk lexer.pending {}).tokens
  tokens.takeWhile (fun token => !(token.isOpenQuote && !lexer.ended)) ++
    (tokens.find? fun token => token.isOpenQuote && !lexer.ended).toList

/-- A pass takes the tokens that it asks for, all but the quote that it holds back. -/
theorem demanded_eq (lexer : BatchLexer) :
    lexer.demanded = lexer.pass.tokens ++ (lexer.pass.scan.left.map Step.token).toList := by
  have htokens : (Lexer.mk lexer.pending {}).tokens = lexer.pending.steps.map Step.token :=
    LexerConfig.select_default _
  have htaken : lexer.pass.tokens = (lexer.pending.steps.map Step.token).takeWhile
      fun token => !(token.isOpenQuote && !lexer.ended) := Cursor.tokens_scanUntil _ _
  have hleft : lexer.pass.scan.left.map Step.token =
      (lexer.pending.steps.map Step.token).find?
        fun token => token.isOpenQuote && !lexer.ended := Cursor.left_scanUntil _ _
  rw [demanded, htokens, htaken, hleft]

/-- All that passes ask for is what they take, and once more what they hold back. -/
theorem length_flatMap_demanded (states : List BatchLexer) :
    (states.flatMap demanded).length =
      ((states.map pass).flatMap Pass.tokens).length +
        (states.map pass).countP fun pass => pass.heldAt?.isSome := by
  induction states with
  | nil => rfl
  | cons state states ih =>
    have hheld : (state.pass.scan.left.map Step.token).toList.length =
        if state.pass.heldAt?.isSome then 1 else 0 := by
      rw [Pass.heldAt?]
      cases state.pass.scan.left <;> rfl
    rw [List.flatMap_cons, List.length_append, ih, demanded_eq, List.length_append, hheld,
      List.map_cons, List.flatMap_cons, List.length_append, List.countP_cons]
    omega

/-- Each pass of a run is made over what a state of the run has read. -/
theorem exists_states_of_reaches (h : (ofReader reader config).Reaches passes lexer) :
    ∃ states : List BatchLexer, passes = states.map pass ∧
      ∀ state ∈ states, ∃ earlier before, (ofReader reader config).Reaches earlier before ∧
        before.IsReady ∧ state = before.fed := by
  induction h with
  | start => exact ⟨[], rfl, by simp⟩
  | @again _ before _ _ hreaches hround ih =>
    have hcoherent := isCoherent_of_reaches hreaches (failed_eq_false_of_again hround)
    obtain ⟨states, rfl, hstates⟩ := ih
    rcases hcoherent.cases_of_again hround with ⟨-, rfl, -⟩ | ⟨hready, rfl, -⟩
    · exact ⟨states, List.append_nil _, hstates⟩
    · refine ⟨states ++ [before.fed], by simp, fun state hmem => ?_⟩
      rcases List.mem_append.mp hmem with hearlier | hlast
      · exact hstates state hearlier
      · exact ⟨_, _, hreaches, hready, List.mem_singleton.mp hlast⟩
  | answer _ _ ih => exact ih

/-- Whatever a reader reports, no quote is held back twice. At any time of a run, the pass after one
that held a quote back has taken that quote first, as the start of a quoted text, or it is the last
pass and the input has ended; there is no such pass only if reading has failed or the run goes on.
So no quote is reported as held twice, neither until then nor in the whole run. A pass that holds
nothing back takes all of the pending text. Each pass is made over what a state of the run has read,
and the tokens that the passes ask for are the tokens taken and one more for each pass that held a
quote back. A run without error comes to its end with passes that have taken all bytes read, and so
many tokens are reported. -/
theorem quotes_held_once (reader : Reader) (config : BatchConfig) :
    (∀ passes lexer, (ofReader reader config).Reaches passes lexer →
      (∀ before held after location, passes = before ++ held :: after →
        held.heldAt? = some location →
        (after = [] ∧ (lexer.failed = true ∨ lexer.quoteHeld = true ∧ ¬ lexer.IsOver)) ∨
        ∃ pass later, after = pass :: later ∧
          (pass.ClosesAt location ∨ later = [] ∧ lexer.ended = true)) ∧
      ((passes.flatMap Pass.events).filterMap Event.heldAt?).Nodup ∧
      (∀ pass ∈ passes, pass.heldAt? = none → pass.scan.cursor.rest = []) ∧
      ∃ states : List BatchLexer, passes = states.map pass ∧
        (∀ state ∈ states, ∃ earlier before, (ofReader reader config).Reaches earlier before ∧
          before.IsReady ∧ state = before.fed) ∧
        (states.flatMap demanded).length = (passes.flatMap Pass.tokens).length +
          passes.countP fun pass => pass.heldAt?.isSome) ∧
    ((Action.events (ofReader reader config).actions).filterMap Event.heldAt?).Nodup ∧
    ((∀ error, .error error ∉ (ofReader reader config).items) →
      ∃ passes last bytes, (ofReader reader config).Reaches passes last ∧ last.IsOver ∧
        last.failed = false ∧ reader.ReadsToEnd bytes last.reader ∧
        Utf8.encode ((passes.flatMap Pass.tokens).flatMap Token.lexeme) = bytes ∧
        (ofReader reader config).items =
          (config.lexer.select (passes.flatMap Pass.tokens)).map .ok ∧
        (passes.flatMap Pass.events).countP Event.isOfToken =
          (passes.flatMap Pass.tokens).length + passes.countP fun pass => pass.heldAt?.isSome) := by
  refine ⟨?_, ?_, ?_⟩
  · intro passes lexer hreaches
    have hresolves := resolves_of_reaches hreaches
    refine ⟨?_, (holdsInOrder_of_reaches hreaches).nodup, rest_of_mem_passes hreaches, ?_⟩
    · intro before held after location hpasses hheld
      cases after with
      | nil =>
        refine .inl ⟨rfl, ?_⟩
        cases hfailed : lexer.failed with
        | true => exact .inl rfl
        | false =>
          obtain ⟨hquote, -⟩ := hresolves.of_last hpasses hheld hfailed
          exact .inr ⟨hquote, (isCoherent_of_reaches hreaches hfailed).not_isOver hfailed hquote⟩
      | cons pass later => exact .inr ⟨pass, later, rfl, hresolves.of_earlier hpasses hheld⟩
    · obtain ⟨states, rfl, hstates⟩ := exists_states_of_reaches hreaches
      exact ⟨states, rfl, hstates, length_flatMap_demanded states⟩
  · obtain ⟨passes, hreaches, hevents⟩ := exists_reaches_of_actions (ofReader reader config)
    rw [hevents]
    exact (holdsInOrder_of_reaches hreaches).nodup
  · intro hok
    obtain ⟨lines, error, last, passes, hdelivers, hrun⟩ := exists_completes_ofReader reader config
    obtain rfl := hrun.error_eq_none hok
    have hlexemes : (passes.flatMap Pass.tokens).flatMap Token.lexeme = lines.flatten :=
      (hrun.cover (Cursor.isPlaced_ofSource [])).flatMap_lexeme.trans hrun.text_eq
    refine ⟨passes, _, _, hrun.reaches, isOver_after (Nat.le_refl _), hrun.failed_eq, ?_,
      congrArg Utf8.encode hlexemes, hrun.items_eq_map rfl, Pass.countP_flatMap_events passes⟩
    rw [hrun.reader_eq]
    exact hdelivers.readsToEnd

/-- A quote that opens the first line is held back there, and the second line closes it. -/
theorem quotes_held_once_of_quote_across_lines :
    let start := ofReader ⟨[.buffer (Utf8.encode "\"a\nb\"\n".toList)], 0⟩ ⟨0, {}⟩
    (∃ held pass lexer, start.Reaches [held, pass] lexer ∧ held.heldAt? = some .start ∧
      pass.ClosesAt .start) ∧
    (∀ error, .error error ∉ start.items) ∧
    ∃ passes last, start.Reaches passes last ∧ last.IsOver ∧
      (passes.flatMap Pass.events).countP Event.isOfToken =
        (passes.flatMap Pass.tokens).length + passes.countP fun pass => pass.heldAt?.isSome := by
  intro start
  obtain ⟨hstates, -, hrun⟩ :=
    quotes_held_once ⟨[.buffer (Utf8.encode "\"a\nb\"\n".toList)], 0⟩ ⟨0, {}⟩
  have hrounds : (match start.round with
      | .again made next => made.any (fun held => held.heldAt? == some .start) &&
        match next.round with
        | .again made lexer => made.isSome && !lexer.ended
        | .answer _ _ => false
      | .answer _ _ => false) = true := by decide +kernel
  have hok : ∀ error, .error error ∉ start.items := by
    have hbytes : [Fill.buffer (Utf8.encode "\"a\nb\"\n".toList)].flatMap Fill.bytes =
        Utf8.encode "\"a\nb\"\n".toList := by decide
    obtain ⟨last, hdelivers⟩ := Reader.exists_delivers_of_encode (by decide) hbytes 0 0
    obtain ⟨passes, hcompletes⟩ := exists_completes (awaits_ofReader hdelivers ⟨0, {}⟩)
    intro error
    rw [hcompletes.items_eq_map rfl]
    simp
  refine ⟨?_, hok, ?_⟩
  · cases hfirst : start.round with
    | answer => simp [hfirst] at hrounds
    | again made next =>
      cases hnext : next.round with
      | answer => simp [hfirst, hnext] at hrounds
      | again more lexer =>
        simp only [hfirst, hnext, Bool.and_eq_true, Option.any_eq_true, beq_iff_eq,
          Option.isSome_iff_exists, Bool.not_eq_true'] at hrounds
        obtain ⟨⟨held, rfl, hheld⟩, ⟨pass, rfl⟩, hopen⟩ := hrounds
        have hreaches := (Reaches.start.again hfirst).again hnext
        refine ⟨held, pass, lexer, hreaches, hheld, ?_⟩
        rcases (hstates _ _ hreaches).1 [] held [pass] .start rfl hheld with
          ⟨hnil, -⟩ | ⟨_, _, hafter, hcloses | ⟨-, hended⟩⟩
        · contradiction
        · cases hafter
          exact hcloses
        · rw [hopen] at hended
          contradiction
  · obtain ⟨passes, last, _, hreaches, hover, -, -, -, -, hcount⟩ := hrun hok
    exact ⟨passes, last, hreaches, hover, hcount⟩

end BatchLexer

end MapHighlight
