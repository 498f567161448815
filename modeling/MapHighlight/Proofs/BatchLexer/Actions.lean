import MapHighlight.Proofs.BatchLexer.Runs

/-!
# What a run reports

The actions of a batch lexer are what it hands out, with what it reports in between. They yield its
items, and they report the passes that lead to the end of the run.
-/

namespace MapHighlight.BatchLexer

/-- A request reports the passes that it takes, and the actions behind it follow if it is answered
with an item. -/
theorem actions_of_next (lexer : BatchLexer) :
    lexer.actions = (lexer.next.passes.flatMap Pass.events).map .report ++
      match lexer.next.item with
      | none => []
      | some item => .yield item :: lexer.next.lexer.actions := by
  rw [actions]
  simp only
  split
  · rename_i hitem
    rw [hitem, List.append_nil]
  · rename_i hitem
    rw [hitem]

/-- What the actions yield are the items. -/
theorem values_actions (lexer : BatchLexer) : Action.values lexer.actions = lexer.items := by
  fun_induction items lexer with
  | case1 lexer pull hitem =>
    rw [actions_of_next, hitem, List.append_nil, Action.values_map_report]
  | case2 lexer pull item hitem _ ih =>
    rw [actions_of_next, hitem, Action.values_append, Action.values_map_report,
      Action.values_cons_yield, ih]
    rfl

/-- What the actions report are the passes up to the end of the run. -/
theorem exists_reaches_of_actions (lexer : BatchLexer) :
    ∃ passes, lexer.Reaches passes (lexer.after (lexer.items.length + 1)) ∧
      Action.events lexer.actions = passes.flatMap Pass.events := by
  fun_induction items lexer with
  | case1 lexer pull hitem =>
    refine ⟨lexer.next.passes, Reaches.start.next, ?_⟩
    rw [actions_of_next, hitem, List.append_nil, Action.events_map_report]
  | case2 lexer pull item hitem _ ih =>
    obtain ⟨passes, hreaches, hevents⟩ := ih
    refine ⟨lexer.next.passes ++ passes, Reaches.trans Reaches.start.next hreaches, ?_⟩
    rw [actions_of_next, hitem, Action.events_append, Action.events_map_report,
      Action.events_cons_yield, List.flatMap_append]
    exact congrArg _ hevents

end MapHighlight.BatchLexer
