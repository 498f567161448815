import MapHighlight.Text.Utf8
import MapHighlight.Proofs.Text.Lines

/-!
# Encoding and decoding

A text can be read back from its bytes, and bytes that can be read as a text are the bytes of that
text. The byte of a line feed occurs in the bytes of a text only where the text has a line feed, so
cutting the bytes into lines never cuts a character.
-/

namespace MapHighlight.Utf8

@[simp] theorem encode_nil : encode [] = [] := rfl

@[simp] theorem encode_cons (c : Char) (text : Text) :
    encode (c :: text) = String.utf8EncodeChar c ++ encode text := rfl

@[simp] theorem encode_append (left right : Text) :
    encode (left ++ right) = encode left ++ encode right :=
  List.flatMap_append

theorem encode_flatten (lines : List Text) : encode lines.flatten = (lines.map encode).flatten := by
  induction lines with
  | nil => rfl
  | cons line lines ih =>
    rw [List.flatten_cons, encode_append, ih, List.map_cons, List.flatten_cons]

/-- A text takes as many bytes as its length in bytes says. -/
@[simp] theorem length_encode (text : Text) : (encode text).length = text.byteLength := by
  induction text with
  | nil => rfl
  | cons c text ih => simp [ih]

/-- The bytes of a character are read as that character, whatever follows them. -/
theorem first?_encode_append (c : Char) (rest : List UInt8) :
    first? (String.utf8EncodeChar c ++ rest) = some c := by
  have hlength : (String.utf8EncodeChar c).length ≤ 4 := by
    rw [String.length_utf8EncodeChar]
    exact c.utf8Size_le_four
  unfold first?
  rw [List.take_append, List.take_of_length_le hlength, List.toByteArray_append]
  exact ByteArray.utf8DecodeChar?_utf8EncodeChar_append

/-- Bytes that are read as a character start with the bytes of that character. -/
theorem eq_append_drop_of_first? {bytes : List UInt8} {c : Char} (h : first? bytes = some c) :
    bytes = String.utf8EncodeChar c ++ bytes.drop c.utf8Size := by
  obtain ⟨rest, hrest⟩ := ByteArray.exists_of_utf8DecodeChar?_eq_some h
  have htake : bytes.take 4 = String.utf8EncodeChar c ++ rest.data.toList := by
    have hdata := congrArg (fun array => array.data.toList) hrest
    simpa using hdata
  have hbytes : bytes =
      String.utf8EncodeChar c ++ (rest.data.toList ++ bytes.drop 4) := by
    rw [← List.append_assoc, ← htake, List.take_append_drop]
  rw [hbytes, List.drop_left' (String.length_utf8EncodeChar c)]

/-- Decoding goes past the bytes of a text and takes the text with it. -/
theorem decodeOnto_encode_append (reversed text : Text) (rest : List UInt8) :
    decodeOnto reversed (encode text ++ rest) = decodeOnto (text.reverse ++ reversed) rest := by
  induction text generalizing reversed with
  | nil => rfl
  | cons c text ih =>
    rw [encode_cons, List.append_assoc, decodeOnto]
    split
    · rename_i hnone
      rw [first?_encode_append] at hnone
      contradiction
    · rename_i found hfound
      rw [first?_encode_append] at hfound
      cases hfound
      rw [List.drop_left' (String.length_utf8EncodeChar c), ih]
      simp

/-- What decoding has read and what it has left are together the bytes that there were. -/
theorem encode_decodeOnto (reversed : Text) (bytes : List UInt8) :
    encode (decodeOnto reversed bytes).1 ++ (decodeOnto reversed bytes).2 =
      encode reversed.reverse ++ bytes := by
  fun_induction decodeOnto reversed bytes with
  | case1 reversed bytes hnone => rfl
  | case2 reversed bytes c hc _ ih =>
    rw [ih, List.reverse_cons, encode_append]
    conv_rhs => rw [eq_append_drop_of_first? hc]
    simp

/-- A text is read back from its bytes. -/
theorem decode_encode (text : Text) : decode (encode text) = .ok text := by
  have hprefix : decodePrefix (encode text) = (text, []) := by
    have hencode := decodeOnto_encode_append [] text []
    rw [List.append_nil, List.append_nil] at hencode
    rw [decodePrefix, hencode, decodeOnto]
    split
    · rw [List.reverse_reverse]
    · rename_i hfound
      rw [first?_nil] at hfound
      contradiction
  rw [decode, hprefix]

/-- Bytes that are read as a text are the bytes of that text. -/
theorem eq_encode_of_decode {bytes : List UInt8} {text : Text} (h : decode bytes = .ok text) :
    bytes = encode text := by
  have hprefix := encode_decodeOnto [] bytes
  unfold decode decodePrefix at h
  split at h
  · rename_i read hread
    cases h
    rw [hread] at hprefix
    simpa using hprefix.symm
  · contradiction

/-- The byte of a line feed stands in no other character's encoding. -/
theorem lineFeed_mem_utf8EncodeChar {c : Char} : 10 ∈ String.utf8EncodeChar c ↔ c = '\n' := by
  have hchar : c = '\n' ↔ c.val.toNat = 10 := by
    rw [Char.ext_iff, ← UInt32.toNat_inj]
    rfl
  have hbyte (n : Nat) : (10 : UInt8) = UInt8.ofNat n ↔ n % 256 = 10 := by
    rw [← UInt8.toNat_inj, UInt8.toNat_ofNat']
    exact eq_comm
  -- Every byte of a longer encoding is at least 128.
  rw [hchar]
  fun_cases String.utf8EncodeChar c <;>
    simp only [List.mem_cons, List.not_mem_nil, or_false, hbyte] <;> omega

/-- The byte of a line feed is among the bytes of a text only if the text has a line feed. -/
theorem lineFeed_mem_encode {text : Text} : 10 ∈ encode text ↔ '\n' ∈ text := by
  induction text with
  | nil => simp
  | cons c text ih =>
    rw [encode_cons, List.mem_append, lineFeed_mem_utf8EncodeChar, ih, List.mem_cons]
    exact or_congr_left eq_comm

/-- Different texts have different bytes. -/
theorem encode_inj {left right : Text} (h : encode left = encode right) : left = right := by
  have hdecode := decode_encode left
  rw [h, decode_encode] at hdecode
  exact (Except.ok.inj hdecode).symm

/-- The lines of a text's bytes are the bytes of its lines. -/
theorem linesOf_encode (text : Text) :
    linesOf 10 (encode text) = (linesOf '\n' text).map encode := by
  induction text using lines_induction '\n' with
  | unfinished rest hmem =>
    by_cases hne : rest = []
    · rw [hne]
      rfl
    · have hencode : encode rest ≠ [] := by
        obtain ⟨c, rest, rfl⟩ := List.exists_cons_of_ne_nil hne
        simp [String.utf8EncodeChar_ne_nil]
      rw [linesOf_of_not_mem hmem hne,
        linesOf_of_not_mem (fun h => hmem (lineFeed_mem_encode.mp h)) hencode]
      rfl
  | line before after hbefore ih =>
    have hline : encode (before ++ '\n' :: after) = encode before ++ 10 :: encode after :=
      encode_append before ('\n' :: after)
    have hend : encode (before ++ ['\n']) = encode before ++ [10] := encode_append before ['\n']
    rw [linesOf_append_delimiter hbefore, hline,
      linesOf_append_delimiter (fun h => hbefore (lineFeed_mem_encode.mp h)), ih, List.map_cons,
      hend]

/-- The bytes of a line end with their first byte of a line feed. -/
theorem encode_of_isLine {line : Text} (h : line.IsLine) :
    ∃ before, 10 ∉ before ∧ encode line = before ++ [10] := by
  obtain ⟨content, hcontent, rfl⟩ := h
  exact ⟨encode content, fun h => hcontent (lineFeed_mem_encode.mp h),
    encode_append content ['\n']⟩

/-- Bytes that end with the first byte of a line feed are those of a line. -/
theorem isLine_of_encode {text : Text} {before : List UInt8} (hbefore : 10 ∉ before)
    (h : encode text = before ++ [10]) : text.IsLine := by
  have hmem : '\n' ∈ text := by
    rw [← lineFeed_mem_encode, h]
    simp
  obtain ⟨content, after, rfl, hcontent⟩ := List.eq_append_cons_of_mem hmem
  refine ⟨content, hcontent, ?_⟩
  have hencode : encode content ++ 10 :: encode after = before ++ 10 :: [] :=
    (encode_append content ('\n' :: after)).symm.trans h
  have hafter := (append_delimiter_inj (fun h => hcontent (lineFeed_mem_encode.mp h)) hbefore
    hencode).2
  rw [@encode_inj after [] hafter]

end MapHighlight.Utf8
