import MapHighlight.Proofs.BatchLexer.States
import MapHighlight.Proofs.Reader.Scripts
import Mathlib.Algebra.Group.Nat.Defs

/-!
# Targets of a batch lexer

The length that the pending text must reach is its length so far and the size of a batch, and the
size may be any number of 64 bits. But text is pending between rounds only after a batch of that
size was read. So a size that is more than a reader has to bring is added to nothing, and any other
size to no more than the reader has brought. While the number of these bytes fits into 63 bits,
every target fits into 64.
-/

namespace MapHighlight

namespace Reader

/-- The number of bytes that a reader has yet to bring. -/
def bytesLeft (reader : Reader) : Nat :=
  (reader.fills.flatMap Fill.bytes).length

/-- Cutting a line off loses no bytes. -/
theorem append_cutLine (bytes : List UInt8) :
    (cutLine bytes).1 ++ (cutLine bytes).2.getD [] = bytes := by
  unfold cutLine
  split
  · exact List.append_nil bytes
  · rename_i ending rest hdrop
    rw [Option.getD_some, List.append_assoc, List.singleton_append, ← hdrop,
      List.takeWhile_append_dropWhile]

/-- Bytes are taken for a line, or they are left. -/
theorem taken_add_length_readLineFrom (fills : List Fill) :
    (readLineFrom fills).taken + ((readLineFrom fills).fills.flatMap Fill.bytes).length =
      (fills.flatMap Fill.bytes).length := by
  fun_induction readLineFrom fills with
  | case1 => rfl
  | case2 error fills hinterruption ih => exact ih
  | case3 => exact Nat.zero_add _
  | case4 => exact Nat.zero_add _
  | case5 b bytes fills line rest hcut =>
    have hbytes := append_cutLine (b :: bytes)
    rw [hcut, Option.getD_some] at hbytes
    rw [flatMap_putBack, List.flatMap_cons, Fill.bytes, ← hbytes, List.length_append,
      List.length_append, List.length_append, Nat.add_assoc]
  | case6 b bytes fills line hcut read ih =>
    have hbytes := append_cutLine (b :: bytes)
    rw [hcut, Option.getD_none, List.append_nil] at hbytes
    rw [List.flatMap_cons, Fill.bytes, ← hbytes, List.length_append, ← ih, Nat.add_assoc]

variable {reader next : Reader}

theorem taken_add_bytesLeft {line : Except InputError (List UInt8)}
    (h : reader.readLine = (line, next)) :
    next.taken + next.bytesLeft = reader.taken + reader.bytesLeft := by
  simp only [readLine, Prod.mk.injEq] at h
  rw [← h.2, Nat.add_assoc]
  exact congrArg (reader.taken + ·) (taken_add_length_readLineFrom reader.fills)

/-- Reading brings no bytes back. -/
theorem bytesLeft_le_of_readLine {line : Except InputError (List UInt8)}
    (h : reader.readLine = (line, next)) : next.bytesLeft ≤ reader.bytesLeft := by
  have hsum := taken_add_bytesLeft h
  have htaken := taken_le_of_readLine h
  omega

/-- The bytes of a line are no longer left. -/
theorem length_add_bytesLeft {line : List UInt8} (h : reader.readLine = (.ok line, next)) :
    line.length + next.bytesLeft = reader.bytesLeft := by
  have hsum := taken_add_bytesLeft h
  rw [taken_of_readLine h] at hsum
  omega

end Reader

namespace Gathered

/-- The bytes read as text are no longer left in the reader. -/
theorem bytesRead_add_bytesLeft_le (target length bytesRead : Nat) (reader : Reader) :
    (ofReader target length bytesRead reader).bytesRead +
        (ofReader target length bytesRead reader).reader.bytesLeft ≤
      bytesRead + reader.bytesLeft := by
  fun_induction ofReader target length bytesRead reader with
  | case1 length bytesRead reader hlt error next hread
  | case2 length bytesRead reader hlt next hread
  | case3 length bytesRead reader hlt b bytes next hread =>
    exact Nat.add_le_add_left (Reader.bytesLeft_le_of_readLine hread) bytesRead
  | case4 length bytesRead reader hlt b bytes next hread _ text hdecode size more ih =>
    have hleft := Reader.length_add_bytesLeft hread
    refine ih.trans ?_
    rw [← hleft, Nat.add_assoc]
  | case5 => exact Nat.le_refl _

/-- Lines are read until the target is reached, unless the input ends or reading fails. -/
theorem target_le (target length bytesRead : Nat) (reader : Reader)
    (herror : (ofReader target length bytesRead reader).error = none)
    (hopen : (ofReader target length bytesRead reader).ended = false) :
    target ≤ length + (ofReader target length bytesRead reader).text.byteLength := by
  fun_induction ofReader target length bytesRead reader with
  | case1 => contradiction
  | case2 => contradiction
  | case3 => contradiction
  | case4 length bytesRead reader hlt b bytes next hread _ text hdecode size more ih =>
    have hsize : size = text.byteLength := by
      rw [← Utf8.length_encode, ← Utf8.eq_encode_of_decode hdecode]
    have hreached : target ≤ length + size + more.text.byteLength := ih herror hopen
    simp only [Text.byteLength_append]
    omega
  | case5 length bytesRead reader hnot => simpa using hnot

end Gathered

namespace BatchLexer

variable {lexer next : BatchLexer} {reader : Reader} {config : BatchConfig} {bytes : Nat}

/-- Where the pending text between rounds comes from, if the reader had so many bytes to bring. -/
structure HasRead (config : BatchConfig) (bytes : Nat) (lexer : BatchLexer) : Prop where
  /-- The configuration stays as it is. -/
  config_eq : lexer.config = config
  /-- The bytes read are among those of the reader, and so are the bytes left. -/
  bytesRead_add_le : lexer.bytesRead + lexer.reader.bytesLeft ≤ bytes
  /-- Only text that was read is pending. -/
  byteLength_le : lexer.pending.rest.byteLength ≤ lexer.bytesRead
  /-- Text is pending only after a whole batch was read. -/
  size_le_of_ne_nil : lexer.pending.rest ≠ [] → max config.size 1 ≤ lexer.bytesRead

theorem hasRead_ofReader (reader : Reader) (config : BatchConfig) :
    (ofReader reader config).HasRead config reader.bytesLeft :=
  ⟨rfl, (Nat.zero_add _).le, Nat.le_refl _, fun hrest => absurd rfl hrest⟩

/-- When nothing is pending, only the bytes have to be accounted for. -/
theorem hasRead_of_rest_eq_nil (hconfig : lexer.config = config)
    (hbytes : lexer.bytesRead + lexer.reader.bytesLeft ≤ bytes) (hrest : lexer.pending.rest = []) :
    lexer.HasRead config bytes := by
  refine ⟨hconfig, hbytes, ?_, fun hne => absurd hrest hne⟩
  rw [hrest]
  exact Nat.zero_le _

namespace HasRead

/-- Reading a batch takes from the reader what it reads. -/
theorem bytesRead_fed_add_le (h : lexer.HasRead config bytes) :
    lexer.fed.bytesRead + lexer.fed.reader.bytesLeft ≤ bytes :=
  (Gathered.bytesRead_add_bytesLeft_le _ _ _ _).trans h.bytesRead_add_le

/-- A batch that is cut short neither by an error nor by the end of the input has its whole size. -/
theorem fed (h : lexer.HasRead config bytes) (herror : lexer.gather.error = none)
    (hopen : lexer.gather.ended = false) : lexer.fed.HasRead config bytes := by
  have hread : lexer.fed.bytesRead = lexer.bytesRead + lexer.gather.text.byteLength :=
    Gathered.bytesRead_ofReader _ _ _ _
  have hrest : lexer.fed.pending.rest.byteLength =
      lexer.pending.rest.byteLength + lexer.gather.text.byteLength := Text.byteLength_append _ _
  have hlength := h.byteLength_le
  have hreached : lexer.target ≤ lexer.pending.rest.byteLength + lexer.gather.text.byteLength :=
    Gathered.target_le _ _ _ _ herror hopen
  rw [target, h.config_eq] at hreached
  refine ⟨h.config_eq, h.bytesRead_fed_add_le, ?_, fun _ => ?_⟩
  · omega
  · omega

/-- A pass leaves no more pending than there was. -/
theorem afterPass (h : lexer.HasRead config bytes) :
    (lexer.afterPass lexer.pass).HasRead config bytes := by
  have hsplit := lexer.text_append_rest_pass
  refine ⟨h.config_eq, h.bytesRead_add_le, ?_, fun hrest => h.size_le_of_ne_nil ?_⟩
  · have hbytes := congrArg Text.byteLength hsplit
    rw [Text.byteLength_append] at hbytes
    exact (Nat.le_add_left _ _).trans (hbytes.trans_le h.byteLength_le)
  · rw [← hsplit]
    exact List.append_ne_nil_of_right_ne_nil _ hrest

/-- A round keeps account of the bytes, whether another one follows it or a request is answered. -/
theorem of_again {pass : Option Pass} (h : lexer.HasRead config bytes)
    (hround : lexer.round = .again pass next) : next.HasRead config bytes := by
  have hworks := works_round lexer
  rw [hround] at hworks
  cases hworks with
  | lastPass _ _ hended =>
    exact hasRead_of_rest_eq_nil h.config_eq h.bytesRead_add_le (afterPass_of_ended hended).2
  | skip _ herror _ _ hopen => exact h.fed herror hopen
  | pass _ herror =>
    cases hended : lexer.gather.ended with
    | true =>
      exact hasRead_of_rest_eq_nil h.config_eq h.bytesRead_fed_add_le (afterPass_of_ended hended).2
    | false => exact (h.fed herror hended).afterPass

theorem of_answer {item : Option Item} (h : lexer.HasRead config bytes)
    (hround : lexer.round = .answer item next) : next.HasRead config bytes := by
  have hworks := works_round lexer
  rw [hround] at hworks
  cases hworks with
  | handOut => exact ⟨h.config_eq, h.bytesRead_add_le, h.byteLength_le, h.size_le_of_ne_nil⟩
  | exhausted => exact h
  | failure => exact hasRead_of_rest_eq_nil h.config_eq h.bytesRead_fed_add_le rfl

/-- A target goes beyond 64 bits only if the size does or the bytes of the reader go beyond 63. -/
theorem target_lt (h : lexer.HasRead config bytes) (hsize : config.size < 2 ^ 64)
    (hbytes : bytes < 2 ^ 63) : lexer.target < 2 ^ 64 := by
  have hread := h.bytesRead_add_le
  have hlength := h.byteLength_le
  rw [target, h.config_eq]
  by_cases hrest : lexer.pending.rest = []
  · rw [hrest, Text.byteLength_nil]
    omega
  · have hbatch := h.size_le_of_ne_nil hrest
    omega

end HasRead

/-- Every state of a run has read what is pending in it. -/
theorem hasRead_of_reaches {passes : List Pass}
    (h : (ofReader reader config).Reaches passes lexer) :
    lexer.HasRead config reader.bytesLeft := by
  induction h with
  | start => exact hasRead_ofReader reader config
  | again _ hround ih => exact ih.of_again hround
  | answer _ hround ih => exact ih.of_answer hround

/-- Whatever size of 64 bits a batch has, and whatever a reader reports that has fewer than `2 ^ 63`
bytes to bring: in every state of a run, and so whenever a batch is read, the length of the pending
text and the size add up to less than `2 ^ 64`. Adding them in 64 bits gives the target. -/
theorem target_lt_of_reaches (reader : Reader) (config : BatchConfig)
    (hsize : config.size < 2 ^ 64) (hbytes : reader.bytesLeft < 2 ^ 63)
    {passes : List Pass} (h : (ofReader reader config).Reaches passes lexer) :
    lexer.pending.rest.byteLength + max config.size 1 < 2 ^ 64 ∧
      (UInt64.ofNat lexer.pending.rest.byteLength + UInt64.ofNat (max config.size 1)).toNat =
        lexer.target := by
  have hread := hasRead_of_reaches h
  have hlt : lexer.target < 2 ^ 64 := hread.target_lt hsize hbytes
  have htarget : lexer.target = lexer.pending.rest.byteLength + max config.size 1 := by
    rw [target, hread.config_eq]
  refine ⟨htarget ▸ hlt, ?_⟩
  rw [UInt64.toNat_add, UInt64.toNat_ofNat', UInt64.toNat_ofNat', ← Nat.add_mod, ← htarget,
    Nat.mod_eq_of_lt hlt]

/-- The largest size is added to nothing. A size that the first batch has reached is added to the
quote that this batch leaves open, when the next batch is read. -/
theorem target_lt_of_reaches_of_held_quote :
    (ofReader ⟨[.buffer [34, 10]], 0⟩ ⟨2 ^ 64 - 1, {}⟩).target < 2 ^ 64 ∧
    ∃ passes lexer, (ofReader ⟨[.buffer [34, 10]], 0⟩ ⟨2, {}⟩).Reaches passes lexer ∧
      lexer.IsReading ∧ lexer.quoteHeld = true ∧ lexer.pending.rest.byteLength = 2 ∧
      lexer.pending.rest.byteLength + max 2 1 < 2 ^ 64 := by
  constructor
  · exact (target_lt_of_reaches ⟨[.buffer [34, 10]], 0⟩ ⟨2 ^ 64 - 1, {}⟩ (by decide) (by decide)
      .start).1
  · have hheld : (match (ofReader ⟨[.buffer [34, 10]], 0⟩ ⟨2, {}⟩).round with
        | .again _ next => next.queue.isEmpty && !next.failed && !next.ended && next.quoteHeld &&
          next.pending.rest.byteLength == 2
        | .answer _ _ => false) = true := by decide +kernel
    cases hround : (ofReader ⟨[.buffer [34, 10]], 0⟩ ⟨2, {}⟩).round with
    | answer => simp [hround] at hheld
    | again pass next =>
      simp only [hround, Bool.and_eq_true, List.isEmpty_iff, Bool.not_eq_true',
        beq_iff_eq] at hheld
      obtain ⟨⟨⟨⟨hqueue, hfailed⟩, hended⟩, hquote⟩, hlength⟩ := hheld
      have hreaches := Reaches.start.again hround
      exact ⟨_, next, hreaches, ⟨hqueue, hfailed, hended⟩, hquote, hlength,
        (target_lt_of_reaches _ _ (by decide) (by decide) hreaches).1⟩

end BatchLexer

end MapHighlight
