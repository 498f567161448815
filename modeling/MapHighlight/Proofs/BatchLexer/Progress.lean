import MapHighlight.Proofs.BatchLexer.Malformed
import MapHighlight.Proofs.BatchLexer.Runs

/-!
# Progress of a batch lexer

A request may read several batches before it is answered, but no more than the reader holds: each
batch takes bytes from the reader, or the end of the input is seen, or reading fails. A whole run
hands out no more tokens than bytes were taken, at most one error behind them, and then nothing.
-/

namespace MapHighlight

namespace Gathered

/-- Reading lines takes bytes from the reader and never gives them back. -/
theorem taken_ofReader_le (target length bytesRead : Nat) (reader : Reader) :
    reader.taken ≤ (ofReader target length bytesRead reader).reader.taken := by
  fun_induction ofReader target length bytesRead reader with
  | case1 length bytesRead reader hlt error next hread
  | case2 length bytesRead reader hlt next hread
  | case3 length bytesRead reader hlt b bytes next hread =>
    exact Reader.taken_le_of_readLine hread
  | case4 length bytesRead reader hlt b bytes next hread _ text hdecode size more ih =>
    exact (Reader.taken_le_of_readLine hread).trans ih
  | case5 => exact Nat.le_refl _

/-- Whether a batch made progress: bytes were taken, the input has ended, or reading failed. -/
def MakesProgress (gathered : Gathered) (taken : Nat) : Prop :=
  taken < gathered.reader.taken ∨ gathered.ended = true ∨ gathered.error.isSome = true

/-- Reading lines toward a target not reached yet makes progress. -/
theorem makesProgress_ofReader {target length : Nat} (hlt : length < target) (bytesRead : Nat)
    (reader : Reader) :
    (ofReader target length bytesRead reader).MakesProgress reader.taken := by
  unfold ofReader
  rw [if_pos hlt]
  split
  · exact .inr (.inr rfl)
  · exact .inr (.inl rfl)
  · rename_i b bytes next hread
    split
    · exact .inr (.inr rfl)
    · have htaken := Reader.taken_of_readLine hread
      rw [List.length_cons] at htaken
      refine .inl (Nat.lt_of_lt_of_le ?_ (taken_ofReader_le _ _ _ _))
      omega

end Gathered

namespace BatchLexer

variable {lexer next : BatchLexer}

instance (lexer : BatchLexer) : Decidable lexer.IsReading :=
  decidable_of_iff (lexer.queue = [] ∧ lexer.failed = false ∧ lexer.ended = false)
    ⟨fun h => ⟨h.1, h.2.1, h.2.2⟩, fun h => ⟨h.queue_eq, h.failed_eq, h.ended_eq⟩⟩

/-- The batch lexer as it reads a batch in its next round, if it reads one. -/
def readings (lexer : BatchLexer) : List BatchLexer :=
  if lexer.IsReading then [lexer] else []

/-- A request is answered by rounds one after another, with the readings on the way. -/
inductive Answers : BatchLexer → List BatchLexer → Option Item → BatchLexer → Prop
  | now {lexer last : BatchLexer} {item : Option Item} : lexer.round = .answer item last →
      Answers lexer lexer.readings item last
  | later {lexer next last : BatchLexer} {pass : Option Pass} {readings : List BatchLexer}
      {item : Option Item} : lexer.round = .again pass next → Answers next readings item last →
      Answers lexer (lexer.readings ++ readings) item last

/-- Gathering a batch makes progress. -/
theorem makesProgress_gather (lexer : BatchLexer) :
    lexer.gather.MakesProgress lexer.reader.taken := by
  apply Gathered.makesProgress_ofReader
  unfold target
  omega

/-- A bound on the number of batches that are still to be read. -/
def readingsLeft (lexer : BatchLexer) : Nat :=
  Reader.weight lexer.reader.fills + if lexer.ended then 0 else 1

theorem length_readings_le (lexer : BatchLexer) :
    lexer.readings.length ≤ lexer.readingsLeft := by
  unfold readings readingsLeft
  split
  · rename_i hreading
    simp [hreading.ended_eq]
  · exact Nat.zero_le _

/-- Reading a batch leaves fewer batches to be read. -/
theorem IsReading.readingsLeft_lt (h : lexer.IsReading) :
    lexer.fed.readingsLeft < lexer.readingsLeft := by
  have htarget : lexer.pending.rest.byteLength < lexer.target := by
    unfold target
    omega
  have hfed : lexer.fed.readingsLeft =
      Reader.weight lexer.gather.reader.fills + if lexer.gather.ended then 0 else 1 := rfl
  have hle : Reader.weight lexer.gather.reader.fills ≤ Reader.weight lexer.reader.fills :=
    Gathered.weight_ofReader_le _ _ _ _
  have hless : Reader.weight lexer.gather.reader.fills < Reader.weight lexer.reader.fills ∨
      lexer.gather.ended = true := Gathered.weight_ofReader_lt_or_ended htarget _ _
  rw [hfed, readingsLeft, h.ended_eq]
  cases hended : lexer.gather.ended with
  | true =>
    simp only [if_true, Bool.false_eq_true, if_false]
    omega
  | false =>
    have hless := hless.resolve_right (by simp [hended])
    simp only [Bool.false_eq_true, if_false]
    omega

/-- The readings of a round are among those that were left before it. -/
theorem readingsLeft_of_again {pass : Option Pass} (hround : lexer.round = .again pass next) :
    lexer.readings.length + next.readingsLeft ≤ lexer.readingsLeft := by
  have hworks := works_round lexer
  rw [hround] at hworks
  unfold readings
  cases hworks with
  | lastPass _ _ hended =>
    have hnot : ¬ lexer.IsReading := fun hreading => by simp [hreading.ended_eq] at hended
    rw [if_neg hnot, List.length_nil, Nat.zero_add]
    exact Nat.le_refl _
  | skip hreading | pass hreading =>
    rw [if_pos hreading, List.length_singleton, Nat.add_comm]
    exact hreading.readingsLeft_lt

/-- Every request is answered, with no more readings than were left. -/
theorem exists_answers (lexer : BatchLexer) :
    ∃ readings, lexer.Answers readings lexer.next.item lexer.next.lexer ∧
      readings.length ≤ lexer.readingsLeft := by
  induction lexer using BatchLexer.next.induct with
  | case1 lexer item last hround =>
    rw [next_of_answer hround]
    exact ⟨_, .now hround, lexer.length_readings_le⟩
  | case2 lexer pass next hround _ ih =>
    obtain ⟨readings, hanswers, hlength⟩ := ih
    rw [next_of_again hround]
    refine ⟨_, .later hround hanswers, ?_⟩
    rw [List.length_append]
    exact (Nat.add_le_add_left hlength _).trans (readingsLeft_of_again hround)

/-- A run over any reader takes a byte for each token of its passes at least. -/
theorem Completes.length_tokens_le {reader last : Reader} {config : BatchConfig}
    {lines : List Text} {error : Option ReadError} {passes : List Pass}
    (h : (ofReader reader config).Completes lines error last passes)
    (hdelivers : reader.Delivers 0 lines error last) :
    reader.taken + (passes.flatMap Pass.tokens).length ≤ last.taken := by
  obtain ⟨unlexed, htext, -⟩ := h.exists_unlexed
  have htext : passes.flatMap Pass.text ++ unlexed = lines.flatten := htext
  have hbytes := congrArg Text.byteLength htext
  rw [Text.byteLength_append] at hbytes
  have hlength := (h.cover (Cursor.isPlaced_ofSource [])).length_le
  have hchars := Text.length_le_byteLength (passes.flatMap Pass.text)
  have htaken := hdelivers.taken_le
  omega

/-- Whatever a reader reports and however a batch lexer is configured, every request is answered
after finitely many readings, no more than the reader has answers and bytes and one for the end of
the input. Each reading takes a byte at least, sees the end of the input, or fails. In all, requests
are answered with tokens, at most one for each byte taken, then with one error at most, and then with
nothing. -/
theorem run_ends (reader : Reader) (config : BatchConfig) :
    let start := ofReader reader config
    (∀ n, ∃ readings,
      (start.after n).Answers readings (start.after n).next.item (start.after (n + 1)) ∧
      readings.length ≤ Reader.weight (start.after n).reader.fills + 1 ∧
      ∀ here ∈ readings, here.gather.MakesProgress here.reader.taken) ∧
    ∃ (tokens : List Token) (failure : Option ReadError),
      (∀ n, (start.after n).next.item =
        (tokens.map .ok ++ (failure.map .error).toList)[n]?) ∧
      ∀ n, tokens.length + 2 ≤ n → reader.taken + tokens.length ≤ (start.after n).reader.taken := by
  intro start
  constructor
  · intro n
    obtain ⟨readings, hanswers, hlength⟩ := (start.after n).exists_answers
    rw [after_succ]
    refine ⟨readings, hanswers, hlength.trans (Nat.add_le_add_left ?_ _), fun here _ =>
      here.makesProgress_gather⟩
    split <;> omega
  · obtain ⟨lines, error, last, passes, hdelivers, hrun⟩ := exists_completes_ofReader reader config
    have hitems : start.items = (config.lexer.select (passes.flatMap Pass.tokens)).map .ok ++
        (error.map .error).toList := hrun.items_eq
    refine ⟨config.lexer.select (passes.flatMap Pass.tokens), error, fun n => ?_, fun n hn => ?_⟩
    · rw [item_after, hitems]
    · have hkept : (config.lexer.select (passes.flatMap Pass.tokens)).length ≤
          (passes.flatMap Pass.tokens).length := List.length_filter_le _ _
      have hover : start.items.length < n := by
        rw [hitems, List.length_append, List.length_map]
        cases error <;> simp <;> omega
      have htaken := hrun.length_tokens_le hdelivers
      rw [hrun.reader_after hover]
      omega

/-- A quote that nothing closes is handed out by the first request, which reads to the end. -/
theorem run_ends_of_open_quote :
    let reader : Reader := ⟨[.buffer (Utf8.encode "\"\na\n".toList)], 0⟩
    let start := ofReader reader ⟨0, ⟨false, true⟩⟩
    (∃ readings, start.Answers readings (some (.ok ⟨.error, ['"'], .start⟩)) (start.after 1) ∧
      readings.length ≤ 6 ∧ ∀ here ∈ readings, here.gather.MakesProgress here.reader.taken) ∧
    ∃ (tokens : List Token) (failure : Option ReadError),
      (∀ n, (start.after n).next.item =
        (tokens.map .ok ++ (failure.map .error).toList)[n]?) ∧
      tokens.length ≤ (start.after (tokens.length + 2)).reader.taken := by
  intro reader start
  obtain ⟨hrequests, tokens, failure, hitems, htaken⟩ := run_ends reader ⟨0, ⟨false, true⟩⟩
  have hfirst : start.next.item = some (.ok ⟨.error, ['"'], .start⟩) := by
    have htokens : (LexerConfig.select ⟨false, true⟩ (tokenize "\"\na\n".toList)).head? =
        some ⟨.error, ['"'], .start⟩ := by decide +kernel
    have hbytes : reader.fills.flatMap Fill.bytes = Utf8.encode "\"\na\n".toList := by decide
    have hdecode : Utf8.decode (reader.fills.flatMap Fill.bytes) = .ok "\"\na\n".toList := by
      rw [hbytes, Utf8.decode_encode]
    have hall := items_ofReader_of_decode (by decide) hdecode ⟨0, ⟨false, true⟩⟩
    have hitem : start.next.item = start.items[0]? := item_after start 0
    rw [hitem, hall, ← List.head?_eq_getElem?, List.head?_map, htokens]
    rfl
  refine ⟨?_, tokens, failure, hitems, ?_⟩
  · obtain ⟨readings, hanswers, hlength, hprogress⟩ := hrequests 0
    exact ⟨readings, hfirst ▸ hanswers, hlength, hprogress⟩
  · have hlast := htaken _ (Nat.le_refl _)
    rwa [Nat.zero_add] at hlast

end BatchLexer

end MapHighlight
