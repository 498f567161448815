import MapHighlight.BatchLexer
import MapHighlight.Proofs.Reader.Delivery

/-!
# Batches of lines

A batch takes lines until they have enough bytes. How a batch lexer gathers a batch is compared here
with how the lines that its reader delivers are cut into batches: either there are lines enough for
a batch, or all that is left is gathered together with the reason why there is no more.
-/

namespace MapHighlight

/-- The text of the lines that it takes to have so many bytes, and the lines after them, unless
there are too few lines. -/
def nextBatch : Nat → List Text → Option (Text × List Text)
  | 0, lines => some ([], lines)
  | _ + 1, [] => none
  | need + 1, line :: lines =>
    (nextBatch (need + 1 - line.byteLength) lines).map fun (text, rest) => (line ++ text, rest)

@[simp] theorem nextBatch_zero (lines : List Text) : nextBatch 0 lines = some ([], lines) := by
  cases lines <;> rfl

theorem nextBatch_nil_of_pos {need : Nat} (hneed : 0 < need) : nextBatch need [] = none := by
  obtain ⟨need, rfl⟩ := Nat.exists_eq_succ_of_ne_zero (Nat.ne_of_gt hneed)
  rfl

theorem nextBatch_cons_of_pos {need : Nat} (hneed : 0 < need) (line : Text) (lines : List Text) :
    nextBatch need (line :: lines) = (nextBatch (need - line.byteLength) lines).map
      fun (text, rest) => (line ++ text, rest) := by
  obtain ⟨need, rfl⟩ := Nat.exists_eq_succ_of_ne_zero (Nat.ne_of_gt hneed)
  rfl

/-- A batch is the first of the lines, and the others are left. -/
theorem eq_append_of_nextBatch {need : Nat} {lines rest : List Text} {text : Text}
    (h : nextBatch need lines = some (text, rest)) :
    ∃ taken, lines = taken ++ rest ∧ taken.flatten = text := by
  fun_induction nextBatch need lines generalizing text with
  | case1 lines =>
    cases h
    exact ⟨[], rfl, rfl⟩
  | case2 => contradiction
  | case3 need line lines ih =>
    obtain ⟨⟨batch, after⟩, hbatch, hpair⟩ := Option.map_eq_some_iff.mp h
    cases hpair
    obtain ⟨taken, rfl, rfl⟩ := ih hbatch
    exact ⟨line :: taken, rfl, rfl⟩

/-- A batch and the lines left are together all the text. -/
theorem append_flatten_of_nextBatch {need : Nat} {lines rest : List Text} {text : Text}
    (h : nextBatch need lines = some (text, rest)) : text ++ rest.flatten = lines.flatten := by
  obtain ⟨taken, rfl, rfl⟩ := eq_append_of_nextBatch h
  rw [List.flatten_append]

/-- A batch that needs any bytes takes at least one line. -/
theorem length_lt_of_nextBatch {need : Nat} {lines rest : List Text} {text : Text}
    (hneed : 0 < need) (h : nextBatch need lines = some (text, rest)) :
    rest.length < lines.length := by
  cases lines with
  | nil =>
    rw [nextBatch_nil_of_pos hneed] at h
    contradiction
  | cons line lines =>
    rw [nextBatch_cons_of_pos hneed] at h
    obtain ⟨⟨batch, after⟩, hbatch, hpair⟩ := Option.map_eq_some_iff.mp h
    cases hpair
    obtain ⟨taken, rfl, _⟩ := eq_append_of_nextBatch hbatch
    simp only [List.length_cons, List.length_append]
    omega

namespace Gathered

variable {target length bytesRead : Nat} {reader next : Reader}

theorem ofReader_of_le (h : target ≤ length) :
    ofReader target length bytesRead reader = ⟨[], bytesRead, reader, false, none⟩ := by
  rw [ofReader, if_neg (Nat.not_lt.mpr h)]

theorem ofReader_of_ended (h : length < target) (hread : reader.readLine = (.ok [], next)) :
    ofReader target length bytesRead reader = ⟨[], bytesRead, next, true, none⟩ := by
  rw [ofReader, if_pos h]
  split <;> simp_all

theorem ofReader_of_failed {error : InputError} (h : length < target)
    (hread : reader.readLine = (.error error, next)) :
    ofReader target length bytesRead reader =
      ⟨[], bytesRead, next, false, some (.input error)⟩ := by
  rw [ofReader, if_pos h]
  split <;> simp_all

theorem ofReader_of_malformed {b : UInt8} {bytes : List UInt8} {valid : Nat} (h : length < target)
    (hread : reader.readLine = (.ok (b :: bytes), next))
    (hdecode : Utf8.decode (b :: bytes) = .error valid) :
    ofReader target length bytesRead reader =
      ⟨[], bytesRead, next, false, some (.invalidUtf8 (bytesRead + valid))⟩ := by
  rw [ofReader, if_pos h]
  split <;> simp_all

theorem ofReader_of_line {b : UInt8} {bytes : List UInt8} {text : Text} (h : length < target)
    (hread : reader.readLine = (.ok (b :: bytes), next))
    (hdecode : Utf8.decode (b :: bytes) = .ok text) :
    ofReader target length bytesRead reader =
      let more := ofReader target (length + (b :: bytes).length)
        (bytesRead + (b :: bytes).length) next
      { more with text := text ++ more.text } := by
  rw [ofReader, if_pos h]
  split <;> simp_all

/-- The lines of a whole batch were read, and the reader delivers the others. -/
structure IsBatch (gathered : Gathered) (text : Text) (rest : List Text)
    (error : Option ReadError) (last : Reader) : Prop where
  /-- The text of the batch was read. -/
  text_eq : gathered.text = text
  /-- Nothing went wrong. -/
  error_eq : gathered.error = none
  /-- The end of the input was not seen. -/
  ended_eq : gathered.ended = false
  /-- The other lines are yet to come. -/
  delivers : Reader.Delivers gathered.bytesRead gathered.reader rest error last

/-- All lines were read, too few for a batch, and then the input ended or reading failed. -/
structure IsRemainder (gathered : Gathered) (lines : List Text) (error : Option ReadError)
    (last : Reader) : Prop where
  /-- The text of all lines was read. -/
  text_eq : gathered.text = lines.flatten
  /-- What went wrong is what went wrong in the end. -/
  error_eq : gathered.error = error
  /-- The end of the input was seen if nothing went wrong. -/
  ended_eq : gathered.ended = error.isNone
  /-- Nothing more is read. -/
  reader_eq : gathered.reader = last

variable {lines rest : List Text} {text : Text} {error : Option ReadError} {last : Reader}

private theorem isBatch_of_le (h : target ≤ length)
    (hdelivers : Reader.Delivers bytesRead reader lines error last)
    (hbatch : nextBatch (target - length) lines = some (text, rest)) :
    (ofReader target length bytesRead reader).IsBatch text rest error last := by
  rw [Nat.sub_eq_zero_of_le h, nextBatch_zero] at hbatch
  cases hbatch
  rw [ofReader_of_le h]
  exact ⟨rfl, rfl, rfl, hdelivers⟩

/-- If the lines suffice for a batch, the batch is gathered. -/
theorem isBatch_ofReader (hdelivers : Reader.Delivers bytesRead reader lines error last)
    (hbatch : nextBatch (target - length) lines = some (text, rest)) :
    (ofReader target length bytesRead reader).IsBatch text rest error last := by
  induction hdelivers generalizing length text with
  | ended hread | failed hread | malformed hread hdecode =>
    rcases Nat.lt_or_ge length target with h | h
    · rw [nextBatch_nil_of_pos (Nat.sub_pos_of_lt h)] at hbatch
      contradiction
    · exact isBatch_of_le h (by constructor <;> assumption) hbatch
  | line hread hdecode hdelivers ih =>
    rcases Nat.lt_or_ge length target with h | h
    · rw [nextBatch_cons_of_pos (Nat.sub_pos_of_lt h)] at hbatch
      obtain ⟨⟨batch, after⟩, hrest, hpair⟩ := Option.map_eq_some_iff.mp hbatch
      cases hpair
      rw [← Utf8.length_encode, ← Utf8.eq_encode_of_decode hdecode, Nat.sub_sub] at hrest
      have hmore := ih hrest
      rw [ofReader_of_line h hread hdecode]
      exact ⟨congrArg _ hmore.text_eq, hmore.error_eq, hmore.ended_eq, hmore.delivers⟩
    · exact isBatch_of_le h (.line hread hdecode hdelivers) hbatch

/-- If the lines do not suffice for a batch, all of them are gathered. -/
theorem isRemainder_ofReader (hdelivers : Reader.Delivers bytesRead reader lines error last)
    (hbatch : nextBatch (target - length) lines = none) :
    (ofReader target length bytesRead reader).IsRemainder lines error last := by
  have hlt {length : Nat} {lines : List Text} (h : nextBatch (target - length) lines = none) :
      length < target := by
    refine Nat.lt_of_sub_pos (Nat.pos_of_ne_zero fun hzero => ?_)
    rw [hzero, nextBatch_zero] at h
    contradiction
  induction hdelivers generalizing length with
  | ended hread =>
    rw [ofReader_of_ended (hlt hbatch) hread]
    exact ⟨rfl, rfl, rfl, rfl⟩
  | failed hread =>
    rw [ofReader_of_failed (hlt hbatch) hread]
    exact ⟨rfl, rfl, rfl, rfl⟩
  | malformed hread hdecode =>
    rw [ofReader_of_malformed (hlt hbatch) hread hdecode]
    exact ⟨rfl, rfl, rfl, rfl⟩
  | line hread hdecode hdelivers ih =>
    have h := hlt hbatch
    rw [nextBatch_cons_of_pos (Nat.sub_pos_of_lt h), Option.map_eq_none_iff,
      ← Utf8.length_encode, ← Utf8.eq_encode_of_decode hdecode, Nat.sub_sub] at hbatch
    have hmore := ih hbatch
    rw [ofReader_of_line h hread hdecode]
    exact ⟨congrArg _ hmore.text_eq, hmore.error_eq, hmore.ended_eq, hmore.reader_eq⟩

end Gathered

end MapHighlight
