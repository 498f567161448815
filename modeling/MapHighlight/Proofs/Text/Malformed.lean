import MapHighlight.Proofs.Text.Utf8

/-!
# Malformed bytes

Decoding reads the longest text that the bytes begin with, so the offset of the first malformed byte
is the length of that text. A character's bytes never run over the byte of a line feed, and a
malformed byte in a line is found at the same place whatever follows the line.
-/

namespace MapHighlight

namespace Utf8

/-- A text is the longest of those that the bytes begin with. -/
structure IsLongestText (bytes : List UInt8) (text : Text) : Prop where
  /-- The bytes begin with the text. -/
  encode_isPrefix : encode text <+: bytes
  /-- They begin with no longer one. -/
  byteLength_le : ∀ other, encode other <+: bytes → other.byteLength ≤ text.byteLength

variable {bytes rest : List UInt8} {text : Text} {n : Nat}

/-- What was read before decoding starts stays at the start of the text. -/
theorem reverse_prefix_decodeOnto (reversed : Text) (bytes : List UInt8) :
    reversed.reverse <+: (decodeOnto reversed bytes).1 := by
  fun_induction decodeOnto reversed bytes with
  | case1 reversed bytes hnone => exact List.prefix_rfl
  | case2 reversed bytes c hc _ ih =>
    rw [List.reverse_cons] at ih
    exact (List.prefix_append _ _).trans ih

/-- Where decoding stops, no character stands. -/
theorem first?_decodeOnto (reversed : Text) (bytes : List UInt8) :
    first? (decodeOnto reversed bytes).2 = none := by
  fun_induction decodeOnto reversed bytes with
  | case1 reversed bytes hnone => exact hnone
  | case2 reversed bytes c hc _ ih => exact ih

/-- Every text that the bytes begin with is the start of the text that decoding reads. -/
theorem prefix_decodePrefix (h : encode text <+: bytes) : text <+: (decodePrefix bytes).1 := by
  obtain ⟨rest, rfl⟩ := h
  have hstart := reverse_prefix_decodeOnto text.reverse rest
  rw [List.reverse_reverse] at hstart
  rwa [decodePrefix, decodeOnto_encode_append, List.append_nil]

theorem encode_decodePrefix (bytes : List UInt8) :
    encode (decodePrefix bytes).1 ++ (decodePrefix bytes).2 = bytes :=
  encode_decodeOnto [] bytes

/-- Decoding reads the longest text that the bytes begin with. -/
theorem isLongestText_decodePrefix (bytes : List UInt8) :
    IsLongestText bytes (decodePrefix bytes).1 :=
  ⟨⟨_, encode_decodePrefix bytes⟩, fun _ hother =>
    Text.byteLength_le_of_isPrefix (prefix_decodePrefix hother)⟩

/-- Bytes begin with only one longest text. -/
theorem IsLongestText.eq_decodePrefix (h : IsLongestText bytes text) :
    text = (decodePrefix bytes).1 := by
  obtain ⟨more, hmore⟩ := prefix_decodePrefix h.encode_isPrefix
  have hle := h.byteLength_le _ (isLongestText_decodePrefix bytes).encode_isPrefix
  rw [← hmore, Text.byteLength_append] at hle
  cases more with
  | nil => rwa [List.append_nil] at hmore
  | cons c more =>
    have hpos := c.utf8Size_pos
    rw [Text.byteLength_cons] at hle
    omega

/-- Every text that the bytes begin with is the start of the longest one. -/
theorem IsLongestText.isPrefix_of_encode (h : IsLongestText bytes text) {other : Text}
    (hother : encode other <+: bytes) : other <+: text := by
  rw [h.eq_decodePrefix]
  exact prefix_decodePrefix hother

/-- Decoding stops behind a text where no character stands. -/
theorem decodePrefix_encode_append (text : Text) (h : first? rest = none) :
    decodePrefix (encode text ++ rest) = (text, rest) := by
  rw [decodePrefix, decodeOnto_encode_append, List.append_nil, decodeOnto]
  split
  · rw [List.reverse_reverse]
  · rename_i hfound
    rw [h] at hfound
    contradiction

/-- Decoding fails exactly where the bytes go on behind a text without a character. -/
theorem decode_eq_error_iff : decode bytes = .error n ↔
    ∃ text rest, bytes = encode text ++ rest ∧ rest ≠ [] ∧ first? rest = none ∧
      n = text.byteLength := by
  constructor
  · intro h
    have hbytes := encode_decodePrefix bytes
    have hfirst := first?_decodeOnto [] bytes
    rw [← decodePrefix] at hfirst
    unfold decode at h
    split at h
    · contradiction
    · rename_i text b rest hread
      cases h
      rw [hread] at hbytes hfirst
      exact ⟨text, b :: rest, hbytes.symm, List.cons_ne_nil b rest, hfirst, rfl⟩
  · rintro ⟨text, rest, rfl, hne, hfirst, rfl⟩
    obtain ⟨b, rest, rfl⟩ := List.exists_cons_of_ne_nil hne
    rw [decode, decodePrefix_encode_append text hfirst]

/-- The offset of the first malformed byte is the length of the longest text before it. -/
theorem exists_isLongestText_of_decode (h : decode bytes = .error n) :
    ∃ text, IsLongestText bytes text ∧ n = text.byteLength := by
  obtain ⟨text, rest, rfl, -, hfirst, rfl⟩ := decode_eq_error_iff.mp h
  have hlongest := isLongestText_decodePrefix (encode text ++ rest)
  rw [decodePrefix_encode_append text hfirst] at hlongest
  exact ⟨text, hlongest, rfl⟩

/-- Bytes that end with a line feed and start with no character do not start with one if more bytes
follow: the character would have to run over the line feed. -/
theorem first?_append_of_lineFeed (h : first? bytes = none) (hlast : bytes.getLast? = some 10)
    (rest : List UInt8) : first? (bytes ++ rest) = none := by
  apply Option.eq_none_iff_forall_ne_some.mpr
  intro c hc
  have hsplit := eq_append_drop_of_first? hc
  rcases List.append_eq_append_iff.mp hsplit with ⟨inner, hchar, -⟩ | ⟨inner, hbytes, -⟩
  · have hmem : 10 ∈ String.utf8EncodeChar c := by
      rw [hchar]
      exact List.mem_append_left inner (List.mem_of_getLast? hlast)
    obtain rfl := lineFeed_mem_utf8EncodeChar.mp hmem
    have hlength := congrArg List.length hchar
    have hpos := List.length_pos_iff.mpr (List.ne_nil_of_mem (List.mem_of_getLast? hlast))
    have hinner : inner = [] := by
      apply List.eq_nil_of_length_eq_zero
      simp only [String.length_utf8EncodeChar, List.length_append] at hlength
      have hsize : '\n'.utf8Size = 1 := rfl
      omega
    rw [hinner, List.append_nil] at hchar
    rw [← hchar, ← List.append_nil (String.utf8EncodeChar '\n'), first?_encode_append] at h
    contradiction
  · rw [hbytes, first?_encode_append] at h
    contradiction

/-- A malformed byte in the middle of bytes is found there, if the part that holds it ends with a
line feed or nothing follows that part. -/
theorem decode_append_of_error (h : decode bytes = .error n)
    (hend : rest ≠ [] → bytes.getLast? = some 10) (before : Text) :
    decode (encode before ++ (bytes ++ rest)) = .error (before.byteLength + n) := by
  obtain ⟨text, malformed, rfl, hne, hfirst, rfl⟩ := decode_eq_error_iff.mp h
  rw [decode_eq_error_iff]
  refine ⟨before ++ text, malformed ++ rest, by simp, by simp [hne], ?_, by simp⟩
  by_cases hrest : rest = []
  · rwa [hrest, List.append_nil]
  · have hlast := hend hrest
    rw [List.getLast?_append_of_ne_nil _ hne] at hlast
    exact first?_append_of_lineFeed hfirst hlast rest

end Utf8

end MapHighlight
