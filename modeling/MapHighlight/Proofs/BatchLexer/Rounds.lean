import MapHighlight.BatchLexer

/-!
# Rounds of a batch lexer

A round hands out a token, ends the run, fails, or reads and lexes on. Everything that can be said
of the items of a run is shown by following the rounds, so the cases of a round are stated here
once, each with what holds when it arises, together with what it means for the items to come.
-/

namespace MapHighlight.BatchLexer

variable {lexer next : BatchLexer}

/-- A batch lexer that has nothing to hand out and reads on. -/
structure IsReading (lexer : BatchLexer) : Prop where
  /-- No token waits. -/
  queue_eq : lexer.queue = []
  /-- Reading has not failed. -/
  failed_eq : lexer.failed = false
  /-- The end of the input was not seen. -/
  ended_eq : lexer.ended = false

/-- A batch lexer that has nothing more to do. -/
structure IsOver (lexer : BatchLexer) : Prop where
  /-- No token waits. -/
  queue_eq : lexer.queue = []
  /-- Reading failed, or the input has ended and all of it was lexed. -/
  failed_or_ended : lexer.failed = true ∨ (lexer.ended = true ∧ lexer.pending.rest = [])

/-- The batch lexer after it has read a batch. -/
abbrev fed (lexer : BatchLexer) : BatchLexer :=
  lexer.receive lexer.gather

/-- What a round does, and when it does so. -/
inductive Works (lexer : BatchLexer) : Round → Prop
  | handOut {token : Token} {queue : List Token} : lexer.queue = token :: queue →
      Works lexer (.answer (some (.ok token)) { lexer with queue })
  | exhausted : lexer.IsOver → Works lexer (.answer none lexer)
  | lastPass : lexer.queue = [] → lexer.failed = false → lexer.ended = true →
      Works lexer lexer.relex
  | failure {error : ReadError} : lexer.IsReading → lexer.gather.error = some error →
      Works lexer (.answer (some (.error error)) lexer.fed.fail)
  | skip : lexer.IsReading → lexer.gather.error = none → lexer.quoteHeld = true →
      '"' ∉ lexer.gather.text → lexer.gather.ended = false → Works lexer (.again none lexer.fed)
  | pass : lexer.IsReading → lexer.gather.error = none → Works lexer lexer.fed.relex

/-- Every round does one of these things. -/
theorem works_round (lexer : BatchLexer) : lexer.Works lexer.round := by
  unfold round
  split
  · rename_i token queue hqueue
    exact .handOut hqueue
  · rename_i hqueue
    split
    · rename_i hover
      refine .exhausted ⟨hqueue, ?_⟩
      simpa only [Bool.or_eq_true, Bool.and_eq_true, List.isEmpty_iff] using hover
    · rename_i hgoing
      simp only [Bool.or_eq_true, not_or, Bool.not_eq_true] at hgoing
      split
      · rename_i hended
        exact .lastPass hqueue hgoing.1 hended
      · rename_i hended
        have hreading : lexer.IsReading := ⟨hqueue, hgoing.1, by simpa using hended⟩
        simp only
        split
        · rename_i error herror
          exact .failure hreading herror
        · rename_i herror
          split
          · rename_i hskip
            simp only [Bool.and_eq_true, Bool.not_eq_eq_eq_not, Bool.not_true] at hskip
            obtain ⟨⟨hheld, hquote⟩, hopen⟩ := hskip
            exact .skip hreading herror hheld (by simpa using hquote) hopen
          · exact .pass hreading herror

/-- While a quote is held, new text without a quote is not lexed. -/
theorem round_of_skip (hreading : lexer.IsReading) (herror : lexer.gather.error = none)
    (hheld : lexer.quoteHeld = true) (hquote : '"' ∉ lexer.gather.text)
    (hopen : lexer.gather.ended = false) : lexer.round = .again none lexer.fed := by
  have hskip : (lexer.fed.quoteHeld && !lexer.gather.text.contains '"' && !lexer.fed.ended) =
      true := by
    simp [receive, hheld, hquote, hopen]
  unfold round
  rw [hreading.queue_eq]
  simp only [hreading.failed_eq, hreading.ended_eq, Bool.false_and, Bool.false_or,
    Bool.false_eq_true, if_false, herror, if_pos hskip]

/-- A batch lexer that has nothing more to do hands out nothing and stays as it is. -/
theorem IsOver.round_eq (h : lexer.IsOver) : lexer.round = .answer none lexer := by
  unfold round
  rw [h.queue_eq]
  have hover : (lexer.failed || (lexer.ended && lexer.pending.rest.isEmpty)) = true := by
    simpa only [Bool.or_eq_true, Bool.and_eq_true, List.isEmpty_iff] using h.failed_or_ended
  simp only [if_pos hover]

/-- A round that hands out nothing leaves the batch lexer as it is, with nothing more to do. -/
theorem isOver_of_round (h : lexer.round = .answer none next) : lexer.IsOver ∧ next = lexer := by
  have hworks := works_round lexer
  rw [h] at hworks
  cases hworks with
  | exhausted hover => exact ⟨hover, rfl⟩

theorem next_of_answer {item : Option Item} (h : lexer.round = .answer item next) :
    lexer.next = ⟨[], item, next⟩ := by
  rw [BatchLexer.next]
  split
  · rename_i hround
    rw [h] at hround
    cases hround
    rfl
  · rename_i hround
    rw [h] at hround
    contradiction

theorem next_of_again {pass : Option Pass} (h : lexer.round = .again pass next) :
    lexer.next = { next.next with passes := pass.toList ++ next.next.passes } := by
  rw [BatchLexer.next]
  split
  · rename_i hround
    rw [h] at hround
    contradiction
  · rename_i hround
    rw [h] at hround
    cases hround
    rfl

/-- A request that is answered with nothing leaves a batch lexer that has nothing more to do. -/
theorem isOver_of_next (h : lexer.next.item = none) : lexer.next.lexer.IsOver := by
  fun_induction BatchLexer.next lexer with
  | case1 lexer answered next hround =>
    simp only at h
    subst h
    obtain ⟨hover, rfl⟩ := isOver_of_round hround
    exact hover
  | case2 lexer pass again hround _ pull ih => exact ih h

/-- The items are what one request after another is answered with. -/
theorem items_of_next (lexer : BatchLexer) :
    lexer.items = match lexer.next.item with
      | none => []
      | some item => item :: lexer.next.lexer.items := by
  rw [items]
  simp only
  split
  · rename_i hitem
    rw [hitem]
  · rename_i hitem
    rw [hitem]

theorem items_of_handOut {item : Item} (h : lexer.round = .answer (some item) next) :
    lexer.items = item :: next.items := by
  rw [items_of_next, next_of_answer h]

theorem items_of_again {pass : Option Pass} (h : lexer.round = .again pass next) :
    lexer.items = next.items := by
  rw [items_of_next, items_of_next next, next_of_again h]

theorem IsOver.items_eq (h : lexer.IsOver) : lexer.items = [] := by
  rw [items_of_next, next_of_answer h.round_eq]

/-- Reading that has failed is over. -/
theorem isOver_fail (h : lexer.queue = []) : lexer.fail.IsOver :=
  ⟨h, .inl rfl⟩

private theorem nearer_of_handOut {item : Item} (h : lexer.round = .answer (some item) next) :
    Nearer next.distance lexer.distance := by
  have hnext := next_of_answer h
  have hitem : lexer.next.item = some item := by rw [hnext]
  have hnearer := nearer_of_next hitem
  rwa [hnext] at hnearer

private theorem nearer_of_again {pass : Option Pass} (h : lexer.round = .again pass next) :
    Nearer next.distance lexer.distance :=
  Prod.Lex.left _ _ (rank_lt_of_round h)

/-- Runs can be followed round by round, because every round but the last brings the end nearer. -/
theorem run_induction {motive : BatchLexer → Prop}
    (handOut : ∀ lexer token queue, lexer.queue = token :: queue →
      lexer.round = .answer (some (.ok token)) { lexer with queue } →
      motive { lexer with queue } → motive lexer)
    (exhausted : ∀ lexer, lexer.IsOver → motive lexer)
    (lastPass : ∀ lexer, lexer.queue = [] → lexer.failed = false → lexer.ended = true →
      lexer.round = lexer.relex → motive (lexer.afterPass lexer.pass) → motive lexer)
    (failure : ∀ lexer error, lexer.IsReading → lexer.gather.error = some error →
      lexer.round = .answer (some (.error error)) lexer.fed.fail → motive lexer)
    (skip : ∀ lexer, lexer.IsReading → lexer.gather.error = none → lexer.quoteHeld = true →
      '"' ∉ lexer.gather.text → lexer.gather.ended = false →
      lexer.round = .again none lexer.fed → motive lexer.fed → motive lexer)
    (pass : ∀ lexer, lexer.IsReading → lexer.gather.error = none →
      lexer.round = lexer.fed.relex → motive (lexer.fed.afterPass lexer.fed.pass) →
      motive lexer)
    (lexer : BatchLexer) : motive lexer := by
  have hworks := works_round lexer
  generalize hround : lexer.round = done at hworks
  cases hworks with
  | @handOut token queue hqueue =>
    have := nearer_of_handOut hround
    exact handOut lexer token queue hqueue hround
      (run_induction handOut exhausted lastPass failure skip pass { lexer with queue })
  | exhausted hover => exact exhausted lexer hover
  | lastPass hqueue hfailed hended =>
    have := nearer_of_again hround
    exact lastPass lexer hqueue hfailed hended hround
      (run_induction handOut exhausted lastPass failure skip pass (lexer.afterPass lexer.pass))
  | failure hreading herror => exact failure lexer _ hreading herror hround
  | skip hreading herror hheld hquote hopen =>
    have := nearer_of_again hround
    exact skip lexer hreading herror hheld hquote hopen hround
      (run_induction handOut exhausted lastPass failure skip pass lexer.fed)
  | pass hreading herror =>
    have := nearer_of_again hround
    exact pass lexer hreading herror hround
      (run_induction handOut exhausted lastPass failure skip pass
        (lexer.fed.afterPass lexer.fed.pass))
termination_by lexer.distance
decreasing_by all_goals exact this

/-- The batch lexer after so many requests. -/
def after : Nat → BatchLexer → BatchLexer
  | 0, lexer => lexer
  | n + 1, lexer => after n lexer.next.lexer

/-- The last of several requests is made to what the others leave. -/
theorem after_succ (lexer : BatchLexer) (n : Nat) :
    lexer.after (n + 1) = (lexer.after n).next.lexer := by
  induction n generalizing lexer with
  | zero => rfl
  | succ n ih => exact ih lexer.next.lexer

theorem after_of_answer {item : Option Item} (h : lexer.round = .answer item next) (n : Nat) :
    lexer.after (n + 1) = next.after n := by
  rw [after, next_of_answer h]

theorem after_of_again {pass : Option Pass} (h : lexer.round = .again pass next) (n : Nat) :
    lexer.after (n + 1) = next.after (n + 1) := by
  rw [after, next_of_again h, after]

/-- Requests to a batch lexer that has nothing more to do leave it as it is. -/
theorem IsOver.after_eq (h : lexer.IsOver) (n : Nat) : lexer.after n = lexer := by
  induction n with
  | zero => rfl
  | succ n ih => rw [after_of_answer h.round_eq, ih]

/-- Requests can be made in two goes. -/
theorem after_add (lexer : BatchLexer) (m n : Nat) :
    lexer.after (m + n) = (lexer.after m).after n := by
  induction n with
  | zero => rfl
  | succ n ih => rw [← Nat.add_assoc, after_succ, after_succ, ih]

/-- Request by request the items are handed out, and after the last of them nothing ever is. -/
theorem item_after (lexer : BatchLexer) (n : Nat) :
    (lexer.after n).next.item = lexer.items[n]? := by
  induction n generalizing lexer with
  | zero =>
    rw [after, items_of_next]
    cases lexer.next.item <;> rfl
  | succ n ih =>
    rw [after, ih, items_of_next lexer]
    cases hitem : lexer.next.item with
    | none =>
      rw [(isOver_of_next hitem).items_eq]
      rfl
    | some item => rfl

/-- A request too many leaves a batch lexer that has nothing more to do. -/
theorem isOver_after {n : Nat} (h : lexer.items.length ≤ n) : (lexer.after (n + 1)).IsOver := by
  rw [after_succ]
  apply isOver_of_next
  rw [item_after, List.getElem?_eq_none h]

/-- From then on requests change nothing. -/
theorem after_eq_of_lt {n : Nat} (h : lexer.items.length < n) :
    lexer.after n = lexer.after (lexer.items.length + 1) := by
  obtain ⟨k, rfl⟩ := Nat.exists_eq_add_of_lt h
  rw [Nat.add_right_comm, after_add, (isOver_after (Nat.le_refl _)).after_eq]

end MapHighlight.BatchLexer
