import MapHighlight.Proofs.BatchLexer.Batches

/-!
# Batch ends

Batches end where lines end. The first line end that is far enough behind the end of one batch is
the end of the next, so the ends are known from the bytes alone. The whole batches among some lines
reach up to the last batch end among them.
-/

namespace MapHighlight

/-- The text of as many whole batches as there are lines for. -/
def wholeBatches (size : Nat) (lines : List Text) : Text :=
  match h : nextBatch (max size 1) lines with
  | none => []
  | some (text, rest) =>
    have := length_lt_of_nextBatch (Nat.lt_of_lt_of_le Nat.one_pos (Nat.le_max_right size 1)) h
    text ++ wholeBatches size rest
termination_by lines.length

theorem wholeBatches_of_none {size : Nat} {lines : List Text}
    (h : nextBatch (max size 1) lines = none) : wholeBatches size lines = [] := by
  rw [wholeBatches]
  split
  · rfl
  · rename_i hsome
    rw [h] at hsome
    contradiction

theorem wholeBatches_of_some {size : Nat} {lines rest : List Text} {text : Text}
    (h : nextBatch (max size 1) lines = some (text, rest)) :
    wholeBatches size lines = text ++ wholeBatches size rest := by
  rw [wholeBatches]
  split
  · rename_i hnone
    rw [h] at hnone
    contradiction
  · rename_i hsome
    rw [h] at hsome
    cases hsome
    rfl

/-- The whole batches are the first of the lines. -/
theorem exists_wholeBatches_eq_flatten (size : Nat) (lines : List Text) :
    ∃ taken rest, lines = taken ++ rest ∧ wholeBatches size lines = taken.flatten := by
  fun_induction wholeBatches size lines with
  | case1 lines hbatch => exact ⟨[], lines, rfl, rfl⟩
  | case2 lines text rest hbatch _ ih =>
    obtain ⟨first, rfl, rfl⟩ := eq_append_of_nextBatch hbatch
    obtain ⟨taken, left, rfl, htaken⟩ := ih
    exact ⟨first ++ taken, left, by rw [List.append_assoc], by rw [List.flatten_append, htaken]⟩

/-- An offset just behind a line feed. -/
def IsLineEnd (bytes : List UInt8) (offset : Nat) : Prop :=
  0 < offset ∧ bytes[offset - 1]? = some Reader.lineFeed

/-- The end of the batch behind an offset: the first line end that is far enough behind it. -/
structure IsNextEnd (size : Nat) (bytes : List UInt8) (offset next : Nat) : Prop where
  /-- The batch ends where a line ends. -/
  isLineEnd : IsLineEnd bytes next
  /-- The batch is large enough. -/
  add_le : offset + max size 1 ≤ next
  /-- No line end before it would do. -/
  le_of_isLineEnd : ∀ other, IsLineEnd bytes other → offset + max size 1 ≤ other → next ≤ other

/-- The offsets between batches, the start included. -/
inductive IsBatchEnd (size : Nat) (bytes : List UInt8) : Nat → Prop
  | start : IsBatchEnd size bytes 0
  | next {offset next : Nat} : IsBatchEnd size bytes offset → IsNextEnd size bytes offset next →
      IsBatchEnd size bytes next

/-- Behind an offset there is only one next end. -/
theorem IsNextEnd.unique {size offset next other : Nat} {bytes : List UInt8}
    (h : IsNextEnd size bytes offset next) (hother : IsNextEnd size bytes offset other) :
    next = other :=
  Nat.le_antisymm (h.le_of_isLineEnd _ hother.isLineEnd hother.add_le)
    (hother.le_of_isLineEnd _ h.isLineEnd h.add_le)

/-- Behind a part of the bytes, line ends are those of the other part. -/
theorem isLineEnd_append {left right : List UInt8} {offset : Nat} (hpos : 0 < offset) :
    IsLineEnd (left ++ right) (left.length + offset) ↔ IsLineEnd right offset := by
  have hindex : left.length + offset - 1 = left.length + (offset - 1) := by omega
  unfold IsLineEnd
  rw [hindex, List.getElem?_append_right (Nat.le_add_right _ _), Nat.add_sub_cancel_left]
  constructor
  · rintro ⟨-, hbyte⟩
    exact ⟨hpos, hbyte⟩
  · rintro ⟨-, hbyte⟩
    exact ⟨by omega, hbyte⟩

/-- Whole lines end where a line ends. -/
theorem isLineEnd_of_isWholeLines {text : Text} (hlines : text.IsWholeLines) (hne : text ≠ [])
    (rest : List UInt8) : IsLineEnd (Utf8.encode text ++ rest) text.byteLength := by
  obtain ⟨init, rfl⟩ := List.getLast?_eq_some_iff.mp (hlines.resolve_left hne)
  have hencode : Utf8.encode (init ++ ['\n']) = Utf8.encode init ++ [Reader.lineFeed] :=
    Utf8.encode_append init ['\n']
  rw [← Utf8.length_encode, hencode]
  exact ⟨by simp, by simp⟩

/-- A line ends nowhere before its end. -/
theorem le_of_isLineEnd {line : Text} (hline : line.IsLine) {rest : List UInt8} {offset : Nat}
    (h : IsLineEnd (Utf8.encode line ++ rest) offset) : line.byteLength ≤ offset := by
  obtain ⟨before, hbefore, hencode⟩ := Utf8.encode_of_isLine hline
  obtain ⟨hpos, hbyte⟩ := h
  rw [hencode, List.append_assoc] at hbyte
  rw [← Utf8.length_encode, hencode, List.length_append, List.length_singleton]
  by_contra hlt
  have hindex : offset - 1 < before.length := by omega
  rw [List.getElem?_append_left hindex] at hbyte
  exact hbefore (List.mem_of_getElem? hbyte)

/-- A batch is as large as it needs to be. -/
theorem le_byteLength_of_nextBatch {need : Nat} {lines rest : List Text} {text : Text}
    (h : nextBatch need lines = some (text, rest)) : need ≤ text.byteLength := by
  fun_induction nextBatch need lines generalizing text with
  | case1 lines => exact Nat.zero_le _
  | case2 => contradiction
  | case3 need line lines ih =>
    obtain ⟨⟨batch, after⟩, hbatch, hpair⟩ := Option.map_eq_some_iff.mp h
    cases hpair
    have hle := ih hbatch
    rw [Text.byteLength_append]
    omega

/-- Lines that do not suffice for a batch have too few bytes. -/
theorem byteLength_lt_of_nextBatch {need : Nat} {lines : List Text}
    (h : nextBatch need lines = none) : Text.byteLength lines.flatten < need := by
  fun_induction nextBatch need lines with
  | case1 lines => contradiction
  | case2 => exact Nat.succ_pos _
  | case3 need line lines ih =>
    have hlt := ih (Option.map_eq_none_iff.mp h)
    rw [List.flatten_cons, Text.byteLength_append]
    omega

/-- A batch ends at the first line end that is far enough. -/
theorem byteLength_le_of_isLineEnd {need : Nat} {lines rest : List Text} {text : Text}
    (hlines : ∀ line ∈ lines, line.IsLine) (hbatch : nextBatch need lines = some (text, rest))
    {tail : List UInt8} {offset : Nat}
    (hend : IsLineEnd (Utf8.encode lines.flatten ++ tail) offset) (hle : need ≤ offset) :
    text.byteLength ≤ offset := by
  fun_induction nextBatch need lines generalizing text offset with
  | case1 lines =>
    cases hbatch
    exact Nat.zero_le _
  | case2 => contradiction
  | case3 need line lines ih =>
    obtain ⟨hline, hlater⟩ := List.forall_mem_cons.mp hlines
    obtain ⟨⟨batch, after⟩, hmore, hpair⟩ := Option.map_eq_some_iff.mp hbatch
    cases hpair
    rw [List.flatten_cons, Utf8.encode_append, List.append_assoc] at hend
    obtain ⟨beyond, rfl⟩ := Nat.exists_eq_add_of_le (le_of_isLineEnd hline hend)
    rw [Text.byteLength_append]
    rcases Nat.eq_zero_or_pos beyond with rfl | hpos
    · have hnone : need + 1 - line.byteLength = 0 := by omega
      rw [hnone, nextBatch_zero] at hmore
      cases hmore
      exact Nat.le_refl _
    · rw [← Utf8.length_encode, isLineEnd_append hpos] at hend
      have hbeyond := ih hlater hmore hend (by omega)
      omega

/-- Lines put together are whole lines. -/
theorem isWholeLines_flatten {lines : List Text} (hlines : ∀ line ∈ lines, line.IsWholeLines) :
    Text.IsWholeLines lines.flatten := by
  induction lines with
  | nil => exact Text.isWholeLines_nil
  | cons line lines ih =>
    obtain ⟨hline, hlater⟩ := List.forall_mem_cons.mp hlines
    exact hline.append (ih hlater)

/-- A batch of whole lines is made of whole lines, and so are the lines left. -/
theorem isWholeLines_of_nextBatch {need : Nat} {lines rest : List Text} {text : Text}
    (hlines : ∀ line ∈ lines, line.IsWholeLines)
    (hbatch : nextBatch need lines = some (text, rest)) :
    text.IsWholeLines ∧ ∀ line ∈ rest, line.IsWholeLines := by
  obtain ⟨taken, rfl, rfl⟩ := eq_append_of_nextBatch hbatch
  obtain ⟨htaken, hrest⟩ := List.forall_mem_append.mp hlines
  exact ⟨isWholeLines_flatten htaken, hrest⟩

/-- Whole batches of whole lines are made of whole lines. -/
theorem isWholeLines_wholeBatches (size : Nat) {lines : List Text}
    (hlines : ∀ line ∈ lines, line.IsWholeLines) : (wholeBatches size lines).IsWholeLines := by
  obtain ⟨taken, rest, rfl, htaken⟩ := exists_wholeBatches_eq_flatten size lines
  rw [htaken]
  exact isWholeLines_flatten fun line hline => hlines line (List.mem_append_left rest hline)

/-- Behind a batch end, the next batch reaches up to the next end. -/
theorem isNextEnd_of_nextBatch {size : Nat} {done text : Text} {lines rest : List Text}
    (hlines : ∀ line ∈ lines, line.IsLine)
    (hbatch : nextBatch (max size 1) lines = some (text, rest)) (tail : List UInt8) :
    IsNextEnd size (Utf8.encode (done ++ lines.flatten) ++ tail) done.byteLength
      (done ++ text).byteLength := by
  have hsize : 0 < max size 1 := Nat.lt_of_lt_of_le Nat.one_pos (Nat.le_max_right size 1)
  have hle := le_byteLength_of_nextBatch hbatch
  rw [Utf8.encode_append, List.append_assoc, Text.byteLength_append, ← Utf8.length_encode done]
  refine ⟨?_, by omega, fun other hother hfar => ?_⟩
  · obtain ⟨taken, rfl, rfl⟩ := eq_append_of_nextBatch hbatch
    have htaken : Text.IsWholeLines taken.flatten := isWholeLines_flatten fun line hline =>
      (hlines line (List.mem_append_left rest hline)).isWholeLines
    have hne : taken.flatten ≠ [] := by
      intro hnil
      rw [hnil, Text.byteLength_nil] at hle
      omega
    rw [isLineEnd_append (by omega), List.flatten_append, Utf8.encode_append, List.append_assoc]
    exact isLineEnd_of_isWholeLines htaken hne _
  · obtain ⟨beyond, rfl⟩ := Nat.exists_eq_add_of_le (Nat.le_of_add_right_le hfar)
    rw [isLineEnd_append (by omega)] at hother
    have := byteLength_le_of_isLineEnd hlines hbatch hother (by omega)
    omega

/-- The whole batches end at a batch end. -/
theorem isBatchEnd_wholeBatches {size : Nat} {done : Text} {lines : List Text}
    (hlines : ∀ line ∈ lines, line.IsLine) {tail : List UInt8}
    (hdone : IsBatchEnd size (Utf8.encode (done ++ lines.flatten) ++ tail) done.byteLength) :
    IsBatchEnd size (Utf8.encode (done ++ lines.flatten) ++ tail)
      (done ++ wholeBatches size lines).byteLength := by
  fun_induction wholeBatches size lines generalizing done with
  | case1 lines hbatch => rwa [List.append_nil]
  | case2 lines text rest hbatch _ ih =>
    have hend := hdone.next (isNextEnd_of_nextBatch hlines hbatch tail)
    have happend := append_flatten_of_nextBatch hbatch
    rw [← happend, ← List.append_assoc] at hend ⊢
    rw [← List.append_assoc]
    refine ih (fun line hline => hlines line ?_) hend
    obtain ⟨taken, rfl, -⟩ := eq_append_of_nextBatch hbatch
    exact List.mem_append_right taken hline

/-- Every batch end among the lines is one of those that the whole batches go through. -/
theorem exists_split_of_isBatchEnd {size : Nat} {lines : List Text}
    (hlines : ∀ line ∈ lines, line.IsLine) {tail : List UInt8} {offset : Nat}
    (hend : IsBatchEnd size (Utf8.encode lines.flatten ++ tail) offset)
    (hle : offset ≤ Text.byteLength lines.flatten) :
    ∃ taken rest, lines = taken ++ rest ∧ offset = Text.byteLength taken.flatten ∧
      wholeBatches size lines = taken.flatten ++ wholeBatches size rest := by
  induction hend with
  | start => exact ⟨[], lines, rfl, rfl, rfl⟩
  | @next offset next hend hnext ih =>
    have hadd := hnext.add_le
    obtain ⟨taken, rest, rfl, rfl, hwhole⟩ := ih (by omega)
    rw [List.flatten_append] at hle hnext
    have hrest : ∀ line ∈ rest, line.IsLine :=
      fun line hline => hlines line (List.mem_append_right taken hline)
    cases hbatch : nextBatch (max size 1) rest with
    | none =>
      have := byteLength_lt_of_nextBatch hbatch
      rw [Text.byteLength_append] at hle
      omega
    | some batch =>
      obtain ⟨text, left⟩ := batch
      have hunique := hnext.unique (isNextEnd_of_nextBatch hrest hbatch tail)
      obtain ⟨first, rfl, rfl⟩ := eq_append_of_nextBatch hbatch
      refine ⟨taken ++ first, left, by rw [List.append_assoc], ?_, ?_⟩
      · rw [hunique, List.flatten_append]
      · rw [hwhole, wholeBatches_of_some hbatch, List.flatten_append, List.append_assoc]

/-- A text that reaches up to the last batch end within the text that could be read. -/
structure ReachesLastEnd (size : Nat) (bytes : List UInt8) (readable text : Text) : Prop where
  /-- The text could be read. -/
  prefix_readable : text <+: readable
  /-- The text reaches up to a batch end. -/
  isBatchEnd : IsBatchEnd size bytes text.byteLength
  /-- No later batch end could be reached. -/
  le_of_isBatchEnd : ∀ offset, IsBatchEnd size bytes offset → offset ≤ readable.byteLength →
    offset ≤ text.byteLength

/-- Only one text reaches up to the last batch end. -/
theorem ReachesLastEnd.unique {size : Nat} {bytes : List UInt8} {readable text other : Text}
    (h : ReachesLastEnd size bytes readable text)
    (hother : ReachesLastEnd size bytes readable other) : text = other := by
  obtain ⟨rest, hrest⟩ := h.prefix_readable
  obtain ⟨rest', hrest'⟩ := hother.prefix_readable
  have hle : text.byteLength ≤ readable.byteLength := by
    rw [← hrest, Text.byteLength_append]
    exact Nat.le_add_right _ _
  have hle' : other.byteLength ≤ readable.byteLength := by
    rw [← hrest', Text.byteLength_append]
    exact Nat.le_add_right _ _
  have hlength : (Utf8.encode text).length = (Utf8.encode other).length := by
    rw [Utf8.length_encode, Utf8.length_encode]
    exact Nat.le_antisymm (hother.le_of_isBatchEnd _ h.isBatchEnd hle)
      (h.le_of_isBatchEnd _ hother.isBatchEnd hle')
  have hbytes : Utf8.encode text ++ Utf8.encode rest = Utf8.encode other ++ Utf8.encode rest' := by
    rw [← Utf8.encode_append, ← Utf8.encode_append, hrest, hrest']
  exact Utf8.encode_inj (List.append_inj_left hbytes hlength)

/-- The whole batches among some lines reach up to the last batch end within these lines. -/
theorem reachesLastEnd_wholeBatches (size : Nat) {lines : List Text}
    (hlines : ∀ line ∈ lines, line.IsLine) (tail : List UInt8) :
    ReachesLastEnd size (Utf8.encode lines.flatten ++ tail) lines.flatten
      (wholeBatches size lines) := by
  constructor
  · obtain ⟨taken, rest, rfl, htaken⟩ := exists_wholeBatches_eq_flatten size lines
    rw [htaken, List.flatten_append]
    exact List.prefix_append _ _
  · exact @isBatchEnd_wholeBatches size [] lines hlines tail .start
  · intro offset hend hle
    obtain ⟨taken, rest, rfl, rfl, hwhole⟩ := exists_split_of_isBatchEnd hlines hend hle
    rw [hwhole, Text.byteLength_append]
    exact Nat.le_add_right _ _

end MapHighlight
