import MapHighlight.Proofs.BatchLexer.Boundaries

/-!
# Cuts between batches

A text that is read to its end is cut where batches end. The last cut is the end of the text, where
a batch ends that finds no line end far enough behind the cut before it. No cut lies between a cut
and the next one, so the cuts are passed one after another however they are come upon.
-/

namespace MapHighlight

/-- The cut behind an offset: the end of the next batch, or the end of the text if no line end is
far enough behind the offset. -/
inductive IsNextCut (size : Nat) (bytes : List UInt8) (offset : Nat) : Nat → Prop
  | lineEnd {next : Nat} : IsNextEnd size bytes offset next → IsNextCut size bytes offset next
  | endOfText : (∀ other, IsLineEnd bytes other → other < offset + max size 1) →
      IsNextCut size bytes offset bytes.length

/-- The offsets at which a text is cut into batches, its start included. -/
inductive IsBatchCut (size : Nat) (bytes : List UInt8) : Nat → Prop
  | start : IsBatchCut size bytes 0
  | next {offset next : Nat} : IsBatchCut size bytes offset → IsNextCut size bytes offset next →
      IsBatchCut size bytes next

section Order

variable {size offset next other following : Nat} {bytes : List UInt8}

theorem IsLineEnd.le_length (h : IsLineEnd bytes offset) : offset ≤ bytes.length := by
  have hlt := (List.getElem?_eq_some_iff.mp h.2).1
  omega

theorem IsNextCut.le_length (h : IsNextCut size bytes offset next) : next ≤ bytes.length := by
  cases h with
  | lineEnd hend => exact hend.isLineEnd.le_length
  | endOfText => exact Nat.le_refl _

/-- The farther an offset, the farther the cut behind it. -/
theorem IsNextCut.mono (h : IsNextCut size bytes offset next)
    (hother : IsNextCut size bytes other following) (hle : offset ≤ other) : next ≤ following := by
  cases hother with
  | endOfText => exact h.le_length
  | lineEnd hend =>
    have hadd := hend.add_le
    cases h with
    | lineEnd hfirst => exact hfirst.le_of_isLineEnd _ hend.isLineEnd (by omega)
    | endOfText hfar =>
      have := hfar _ hend.isLineEnd
      omega

/-- There is no cut between a cut and the next one. -/
theorem IsBatchCut.le_or_le (h : IsBatchCut size bytes offset)
    (hnext : IsNextCut size bytes offset next) (hother : IsBatchCut size bytes other) :
    other ≤ offset ∨ next ≤ other := by
  induction h generalizing next other with
  | start =>
    cases hother with
    | start => exact .inl (Nat.le_refl _)
    | next _ hcut => exact .inr (hnext.mono hcut (Nat.zero_le _))
  | @next earlier offset hearlier hoffset ih =>
    cases hother with
    | start => exact .inl (Nat.zero_le _)
    | next hbefore hcut =>
      rcases ih hoffset hbefore with hle | hle
      · exact .inl (hcut.mono hoffset hle)
      · exact .inr (hnext.mono hcut hle)

end Order

/-- A text is some whole lines and an unfinished one, which may be empty. -/
theorem exists_linesOf_eq (text : Text) :
    ∃ full unfinished, (∀ line ∈ full, Text.IsLine line) ∧ '\n' ∉ unfinished ∧
      text = full.flatten ++ unfinished ∧
      linesOf '\n' text = full ++ linesOf '\n' unfinished := by
  induction text using lines_induction '\n' with
  | unfinished rest hmem => exact ⟨[], rest, by simp, hmem, rfl, rfl⟩
  | line before after hbefore ih =>
    obtain ⟨full, unfinished, hfull, hunfinished, rfl, hlines⟩ := ih
    refine ⟨(before ++ ['\n']) :: full, unfinished, ?_, hunfinished, by simp, ?_⟩
    · exact List.forall_mem_cons.mpr ⟨⟨before, hbefore, rfl⟩, hfull⟩
    · rw [linesOf_append_delimiter hbefore, hlines, List.cons_append]

/-- Lines behind those of a batch change nothing about the batch. -/
theorem nextBatch_append_of_some {need : Nat} {lines rest : List Text} {text : Text}
    (h : nextBatch need lines = some (text, rest)) (more : List Text) :
    nextBatch need (lines ++ more) = some (text, rest ++ more) := by
  fun_induction nextBatch need lines generalizing text with
  | case1 lines =>
    cases h
    exact nextBatch_zero _
  | case2 => contradiction
  | case3 need line lines ih =>
    obtain ⟨⟨batch, after⟩, hbatch, hpair⟩ := Option.map_eq_some_iff.mp h
    cases hpair
    rw [List.cons_append, nextBatch, ih hbatch]
    rfl

/-- Lines that do not suffice for a batch are completed by the lines behind them. -/
theorem nextBatch_append_of_none {need : Nat} {lines : List Text}
    (h : nextBatch need lines = none) (more : List Text) :
    nextBatch need (lines ++ more) =
      (nextBatch (need - Text.byteLength lines.flatten) more).map
        fun (text, rest) => (lines.flatten ++ text, rest) := by
  fun_induction nextBatch need lines with
  | case1 lines => contradiction
  | case2 need => simp
  | case3 need line lines ih =>
    rw [List.cons_append, nextBatch, ih (Option.map_eq_none_iff.mp h), List.flatten_cons,
      Text.byteLength_append, Nat.sub_sub]
    simp [Function.comp_def]

/-- Behind some whole lines that do not suffice for a batch, the text is cut at its end. -/
theorem isNextCut_of_unfinished {size : Nat} {full : List Text} {unfinished : Text}
    (hbatch : nextBatch (max size 1) full = none) (hunfinished : '\n' ∉ unfinished) (done : Text) :
    IsNextCut size (Utf8.encode (done ++ (full.flatten ++ unfinished))) done.byteLength
      (done ++ (full.flatten ++ unfinished)).byteLength := by
  have hlt := byteLength_lt_of_nextBatch hbatch
  rw [← Utf8.length_encode (done ++ (full.flatten ++ unfinished))]
  refine .endOfText fun other hother => ?_
  by_contra hfar
  have hlength : (Utf8.encode (done ++ full.flatten)).length < other := by
    rw [Utf8.length_encode, Text.byteLength_append]
    omega
  obtain ⟨beyond, rfl⟩ := Nat.exists_eq_add_of_lt hlength
  rw [← List.append_assoc, Utf8.encode_append, Nat.add_assoc, isLineEnd_append (by omega)] at hother
  exact hunfinished (Utf8.lineFeed_mem_encode.mp (List.mem_of_getElem? hother.2))

/-- A batch of the lines of a text reaches up to the next cut. -/
theorem isNextCut_of_nextBatch {size : Nat} {text batch : Text} {rest : List Text}
    (hbatch : nextBatch (max size 1) (linesOf '\n' text) = some (batch, rest)) (done : Text) :
    IsNextCut size (Utf8.encode (done ++ text)) done.byteLength (done ++ batch).byteLength := by
  obtain ⟨full, unfinished, hfull, hunfinished, rfl, hlines⟩ := exists_linesOf_eq text
  rw [hlines] at hbatch
  cases hwhole : nextBatch (max size 1) full with
  | some found =>
    obtain ⟨first, left⟩ := found
    rw [nextBatch_append_of_some hwhole] at hbatch
    cases hbatch
    have hend := @isNextEnd_of_nextBatch _ done _ _ _ hfull hwhole (Utf8.encode unfinished)
    rw [← Utf8.encode_append, List.append_assoc] at hend
    exact .lineEnd hend
  | none =>
    have hlt := byteLength_lt_of_nextBatch hwhole
    rw [nextBatch_append_of_none hwhole] at hbatch
    obtain ⟨⟨last, left⟩, hlast, hpair⟩ := Option.map_eq_some_iff.mp hbatch
    cases hpair
    -- Only the unfinished line can complete the batch.
    have htail : last = unfinished := by
      by_cases hne : unfinished = []
      · rw [hne, linesOf, nextBatch_nil_of_pos (by omega)] at hlast
        contradiction
      · rw [linesOf_of_not_mem hunfinished hne, nextBatch_cons_of_pos (by omega)] at hlast
        obtain ⟨⟨empty, nothing⟩, hempty, hpair⟩ := Option.map_eq_some_iff.mp hlast
        cases hpair
        obtain ⟨taken, htaken, rfl⟩ := eq_append_of_nextBatch hempty
        rw [(List.append_eq_nil_iff.mp htaken.symm).1, List.flatten_nil, List.append_nil]
    rw [htail]
    exact isNextCut_of_unfinished hwhole hunfinished done

/-- A text without lines enough for a batch is cut at its end. -/
theorem isNextCut_of_nextBatch_eq_none {size : Nat} {text : Text}
    (hbatch : nextBatch (max size 1) (linesOf '\n' text) = none) (done : Text) :
    IsNextCut size (Utf8.encode (done ++ text)) done.byteLength (done ++ text).byteLength := by
  obtain ⟨full, unfinished, -, hunfinished, rfl, hlines⟩ := exists_linesOf_eq text
  rw [hlines] at hbatch
  cases hwhole : nextBatch (max size 1) full with
  | some found =>
    rw [nextBatch_append_of_some hwhole] at hbatch
    contradiction
  | none => exact isNextCut_of_unfinished hwhole hunfinished done

end MapHighlight
