import MapHighlight.Proofs.Text.Utf8

/-!
# Where encoded texts can be cut

The first byte of a character tells that a character begins, and its other bytes tell that they go
on with one. The bytes of a text can therefore be cut at a place without cutting a character exactly
if the byte behind the place does not go on with a character, which is where a part of the text
ends.
-/

namespace MapHighlight.Utf8

/-- Whether a byte goes on with a character that began before it. -/
def isContinuation (b : UInt8) : Bool :=
  0x80 ≤ b && b < 0xC0

/-- Whether no character is cut behind so many bytes: the next one begins a character, or there is
no next one. -/
def isBoundary (bytes : List UInt8) (n : Nat) : Bool :=
  n == bytes.length || bytes[n]?.any fun b => !isContinuation b

theorem isContinuation_ofNat (n : Nat) :
    isContinuation (UInt8.ofNat n) = decide (128 ≤ n % 256 ∧ n % 256 < 192) := by
  simp [isContinuation, UInt8.le_iff_toNat_le, UInt8.lt_iff_toNat_lt]

/-- A character begins with a byte that goes on with none, and its other bytes all go on with it. -/
theorem exists_utf8EncodeChar_eq_cons (c : Char) :
    ∃ first others, String.utf8EncodeChar c = first :: others ∧ isContinuation first = false ∧
      ∀ b ∈ others, isContinuation b = true := by
  fun_cases String.utf8EncodeChar c
  all_goals
    refine ⟨_, _, rfl, ?_, ?_⟩ <;>
      simp only [List.forall_mem_cons, List.not_mem_nil, false_implies, implies_true, and_true,
        isContinuation_ofNat, decide_eq_true_eq, decide_eq_false_iff_not] <;>
      omega

/-- Bytes in front move a place without changing whether it can be cut there. -/
theorem isBoundary_append (front bytes : List UInt8) (n : Nat) :
    isBoundary (front ++ bytes) (front.length + n) = isBoundary bytes n := by
  have hend : (front.length + n == (front ++ bytes).length) = (n == bytes.length) := by
    rw [Bool.eq_iff_iff]
    simp
  rw [isBoundary, isBoundary, hend, List.getElem?_append_right (Nat.le_add_right _ _),
    Nat.add_sub_cancel_left]

/-- Behind its first byte a character has only bytes that go on with it. -/
theorem isBoundary_encode_cons_of_lt {c : Char} {n : Nat} (hpos : 0 < n) (hlt : n < c.utf8Size)
    (text : Text) : isBoundary (encode (c :: text)) n = false := by
  obtain ⟨first, others, hchar, -, hothers⟩ := exists_utf8EncodeChar_eq_cons c
  obtain ⟨m, rfl⟩ := Nat.exists_eq_succ_of_ne_zero (Nat.ne_of_gt hpos)
  have hlength : others.length + 1 = c.utf8Size := by
    rw [← String.length_utf8EncodeChar, hchar, List.length_cons]
  have hm : m < others.length := by omega
  have hbyte : (encode (c :: text))[m + 1]? = some others[m] := by
    rw [encode_cons, hchar, List.cons_append, List.getElem?_cons_succ,
      List.getElem?_append_left hm, List.getElem?_eq_getElem hm]
  have hend : (m + 1 == (encode (c :: text)).length) = false := by
    rw [beq_eq_false_iff_ne, length_encode, Text.byteLength_cons]
    omega
  rw [isBoundary, Nat.succ_eq_add_one, hend, hbyte, Option.any_some,
    hothers _ (List.getElem_mem hm)]
  rfl

/-- The bytes of a text can be cut exactly where a part of the text ends. -/
theorem isBoundary_encode_iff {text : Text} {n : Nat} :
    isBoundary (encode text) n = true ↔
      ∃ left right, text = left ++ right ∧ n = left.byteLength := by
  constructor
  · intro h
    induction text generalizing n with
    | nil => exact ⟨[], [], rfl, by simpa [isBoundary] using h⟩
    | cons c text ih =>
      rcases Nat.eq_zero_or_pos n with rfl | hpos
      · exact ⟨[], c :: text, rfl, rfl⟩
      rcases Nat.lt_or_ge n c.utf8Size with hlt | hle
      · rw [isBoundary_encode_cons_of_lt hpos hlt] at h
        contradiction
      · obtain ⟨m, rfl⟩ := Nat.exists_eq_add_of_le hle
        rw [encode_cons, ← String.length_utf8EncodeChar, isBoundary_append] at h
        obtain ⟨left, right, rfl, rfl⟩ := ih h
        exact ⟨c :: left, right, rfl, rfl⟩
  · rintro ⟨left, right, rfl, rfl⟩
    rw [encode_append, ← length_encode, ← Nat.add_zero (encode left).length, isBoundary_append]
    cases right with
    | nil => rfl
    | cons c right =>
      obtain ⟨first, others, hchar, hfirst, -⟩ := exists_utf8EncodeChar_eq_cons c
      simp [isBoundary, encode_cons, hchar, hfirst]

/-- Bytes that are cut where a part of the text ends are cut into the bytes of that part and those
of the others. -/
theorem take_encode_append (left right : Text) :
    (encode (left ++ right)).take left.byteLength = encode left ∧
      (encode (left ++ right)).drop left.byteLength = encode right := by
  rw [encode_append, ← length_encode]
  exact ⟨List.take_left, List.drop_left⟩

end MapHighlight.Utf8
