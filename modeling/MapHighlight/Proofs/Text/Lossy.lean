import MapHighlight.Proofs.Text.Utf8

/-!
# Reading any bytes

Any bytes can be read as a text. The characters in them are kept, and each malformed stretch between
them gives one replacement character, so every byte is accounted for. A stretch is as long as it
could have been the start of a character, so there is one way to read so.
-/

namespace MapHighlight.Utf8

/-- A malformed stretch in front of the bytes that follow it. -/
structure IsMalformed (stretch rest : List UInt8) : Prop where
  /-- There is at least one malformed byte. -/
  ne_nil : stretch ≠ []
  /-- No character stands there. -/
  first?_eq_none : first? (stretch ++ rest) = none
  /-- Only bytes that could have begun a character are taken together. -/
  isStart : stretch.length = 1 ∨ ∃ c, stretch <+: String.utf8EncodeChar c
  /-- They are all the bytes that could have begun one. -/
  length_le : ∀ start c, start <+: stretch ++ rest → start <+: String.utf8EncodeChar c →
    start.length ≤ stretch.length

/-- A text as which bytes can be read if each malformed stretch is replaced. -/
inductive ReadsLossily : List UInt8 → Text → Prop
  | nil : ReadsLossily [] []
  | character (c : Char) {rest : List UInt8} {text : Text} :
      ReadsLossily rest text → ReadsLossily (String.utf8EncodeChar c ++ rest) (c :: text)
  | malformed {stretch rest : List UInt8} {text : Text} : IsMalformed stretch rest →
      ReadsLossily rest text → ReadsLossily (stretch ++ rest) (replacement :: text)

/-- Bytes at which no character stands, but that are found to lack only the end of one, are the
start of its bytes. -/
theorem exists_isPrefix_of_isTruncated {start rest : List UInt8} (h : isTruncated start = true)
    (hnone : first? (start ++ rest) = none) : ∃ c, start <+: String.utf8EncodeChar c := by
  obtain ⟨missing, c, hc⟩ : ∃ missing c, first? (start ++ missing) = some c := by
    rcases (Bool.or_eq_true _ _).mp h with hone | htwo
    · exact ⟨_, Option.isSome_iff_exists.mp hone⟩
    · exact ⟨_, Option.isSome_iff_exists.mp htwo⟩
  refine ⟨c, ?_⟩
  rcases List.append_eq_append_iff.mp (eq_append_drop_of_first? hc) with
    ⟨inner, hchar, -⟩ | ⟨inner, hstart, -⟩
  · exact ⟨inner, hchar.symm⟩
  · rw [hstart, List.append_assoc, first?_encode_append] at hnone
    contradiction

/-- A scalar value can be rounded down to a multiple of a number that divides the end of the
surrogates. -/
theorem exists_toNat_eq (c : Char) {m : Nat} (hm : m ∣ 0xE000) :
    ∃ d : Char, d.toNat = c.toNat / m * m := by
  have hle := Nat.div_mul_le_self c.toNat m
  have hvalid : (c.toNat / m * m).isValidChar := by
    rcases (show c.toNat.isValidChar from c.valid) with hlow | ⟨hhigh, hmax⟩
    · exact .inl (Nat.lt_of_le_of_lt hle hlow)
    · have hfloor := Nat.mul_le_mul_right m (Nat.div_le_div_right (c := m) (Nat.succ_le_of_lt hhigh))
      rw [Nat.div_mul_cancel hm] at hfloor
      exact .inr ⟨hfloor, Nat.lt_of_le_of_lt hle hmax⟩
  exact ⟨.ofNatAux _ hvalid, rfl⟩

/-- The start of a character's bytes is completed to a character by the lowest bytes that can
follow. One byte may not be: what follows it may have to be higher. -/
theorem exists_encode_eq_take_append (c : Char) {n : Nat} (hn : 2 ≤ n) (hlt : n < c.utf8Size) :
    ∃ d, String.utf8EncodeChar d =
      (String.utf8EncodeChar c).take n ++ List.replicate (c.utf8Size - n) 0x80 := by
  obtain ⟨low, hlow⟩ := exists_toNat_eq c (m := 64) (by decide)
  obtain ⟨lower, hlower⟩ := exists_toNat_eq c (m := 4096) (by decide)
  have hbytes (d : Char) := String.utf8EncodeChar.eq_1 d
  simp only [Char.toNat_val] at hbytes
  have hc := hbytes c
  rw [← String.length_utf8EncodeChar] at hlt ⊢
  -- A start of two bytes is shorter than the whole for characters of three or four bytes only.
  split_ifs at hc with hone htwo hthree
  all_goals
    rw [hc] at hlt ⊢
    simp only [List.length_cons, List.length_nil] at hlt
  · omega
  · omega
  · obtain rfl : n = 2 := by omega
    refine ⟨low, ?_⟩
    rw [hbytes, hlow, if_neg (by omega), if_neg (by omega), if_pos (by omega),
      show c.toNat / 64 * 64 / 4096 = c.toNat / 4096 by omega,
      Nat.mul_div_cancel _ (by decide), Nat.mul_mod_left]
    rfl
  · obtain rfl | rfl : n = 2 ∨ n = 3 := by omega
    · refine ⟨lower, ?_⟩
      rw [hbytes, hlower, if_neg (by omega), if_neg (by omega), if_neg (by omega),
        show c.toNat / 4096 * 4096 / 262144 = c.toNat / 262144 by omega,
        Nat.mul_div_cancel _ (by decide),
        show c.toNat / 4096 * 4096 / 64 % 64 = 0 by omega,
        show c.toNat / 4096 * 4096 % 64 = 0 by omega]
      rfl
    · refine ⟨low, ?_⟩
      rw [hbytes, hlow, if_neg (by omega), if_neg (by omega), if_neg (by omega),
        show c.toNat / 64 * 64 / 262144 = c.toNat / 262144 by omega,
        show c.toNat / 64 * 64 / 4096 = c.toNat / 4096 by omega,
        Nat.mul_div_cancel _ (by decide), Nat.mul_mod_left]
      rfl

/-- Two bytes or more of a character are found to lack only its end. -/
theorem isTruncated_of_isPrefix {start : List UInt8} {c : Char}
    (h : start <+: String.utf8EncodeChar c) (htwo : 2 ≤ start.length)
    (hlt : start.length < c.utf8Size) : isTruncated start = true := by
  obtain ⟨d, hd⟩ := exists_encode_eq_take_append c htwo hlt
  rw [← List.prefix_iff_eq_take.mp h] at hd
  have hfirst : first? (start ++ List.replicate (c.utf8Size - start.length) 0x80) = some d := by
    rw [← hd, ← List.append_nil (String.utf8EncodeChar d), first?_encode_append]
  have hfour := c.utf8Size_le_four
  obtain hone | htwo : c.utf8Size - start.length = 1 ∨ c.utf8Size - start.length = 2 := by omega
  · rw [hone] at hfirst
    exact (Bool.or_eq_true _ _).mpr (.inl (Option.isSome_of_mem hfirst))
  · rw [htwo] at hfirst
    exact (Bool.or_eq_true _ _).mpr (.inr (Option.isSome_of_mem hfirst))

theorem malformedLength_pos {bytes : List UInt8} (hne : bytes ≠ []) : 0 < malformedLength bytes := by
  have hlength := List.length_pos_iff.mpr hne
  unfold malformedLength
  split_ifs <;> omega

/-- Where no character stands, the malformed stretch takes in all that could have begun one. -/
theorem length_le_malformedLength {bytes start : List UInt8} {c : Char} (hne : bytes ≠ [])
    (hnone : first? bytes = none) (hstart : start <+: bytes)
    (hchar : start <+: String.utf8EncodeChar c) : start.length ≤ malformedLength bytes := by
  have hpos := malformedLength_pos hne
  have hlt : start.length < c.utf8Size := by
    rw [← String.length_utf8EncodeChar]
    refine Nat.lt_of_le_of_ne hchar.length_le fun hlength => ?_
    obtain ⟨rest, rfl⟩ := hchar.eq_of_length hlength ▸ hstart
    rw [first?_encode_append] at hnone
    contradiction
  by_cases htwo : 2 ≤ start.length
  · have htruncated := isTruncated_of_isPrefix hchar htwo hlt
    rw [List.prefix_iff_eq_take.mp hstart] at htruncated
    have hle := hstart.length_le
    have hfour := c.utf8Size_le_four
    unfold malformedLength
    obtain hlength | hlength : start.length = 3 ∨ start.length = 2 := by omega
    · rw [hlength] at htruncated
      rw [if_pos htruncated]
      omega
    · rw [hlength] at htruncated
      split_ifs <;> omega
  · omega

/-- Bytes that start with no character start with a malformed stretch. -/
theorem isMalformed_take {bytes : List UInt8} (hne : bytes ≠ []) (hnone : first? bytes = none) :
    IsMalformed (bytes.take (malformedLength bytes)) (bytes.drop (malformedLength bytes)) := by
  have hpos := malformedLength_pos hne
  refine ⟨by simp [hne, Nat.ne_of_gt hpos], by rwa [List.take_append_drop], ?_,
    fun start c hstart hchar => ?_⟩
  · have hstart (n : Nat) (h : isTruncated (bytes.take n) = true) :
        ∃ c, bytes.take (min bytes.length n) <+: String.utf8EncodeChar c := by
      have htake : bytes.take (min bytes.length n) = bytes.take n := by
        rw [List.take_eq_take_iff]
        omega
      rw [htake]
      exact exists_isPrefix_of_isTruncated h (by rwa [List.take_append_drop n])
    unfold malformedLength
    split_ifs with hthree htwo
    · exact .inr (hstart 3 hthree)
    · exact .inr (hstart 2 htwo)
    · left
      have hlength := List.length_pos_iff.mpr hne
      rw [List.length_take]
      omega
  · rw [List.take_append_drop] at hstart
    rw [List.length_take]
    exact Nat.le_min_of_le_of_le (length_le_malformedLength hne hnone hstart hchar)
      hstart.length_le

/-- Reading replaces malformed stretches and nothing else. -/
theorem readsLossily_decodeLossy (bytes : List UInt8) : ReadsLossily bytes (decodeLossy bytes) := by
  fun_induction decodeLossy bytes with
  | case1 => exact .nil
  | case2 b rest c hc _ ih =>
    have hreads := ReadsLossily.character c ih
    rwa [← eq_append_drop_of_first? hc] at hreads
  | case3 b rest hnone ih =>
    have hpos := malformedLength_pos (List.cons_ne_nil b rest)
    have hdrop : rest.drop (malformedLength (b :: rest) - 1) =
        (b :: rest).drop (malformedLength (b :: rest)) := by
      conv_rhs => rw [← Nat.sub_add_cancel hpos]
      rw [List.drop_succ_cons]
    rw [hdrop] at ih ⊢
    have hreads := ReadsLossily.malformed (isMalformed_take (List.cons_ne_nil b rest) hnone) ih
    rwa [List.take_append_drop] at hreads

/-- A malformed stretch is not longer than another one at the same place. -/
theorem IsMalformed.length_le_of_eq {stretch rest other after : List UInt8}
    (h : IsMalformed stretch rest) (hother : IsMalformed other after)
    (hsame : stretch ++ rest = other ++ after) : other.length ≤ stretch.length := by
  rcases hother.isStart with hone | ⟨c, hc⟩
  · exact hone ▸ List.length_pos_iff.mpr h.ne_nil
  · exact h.length_le other c ⟨after, hsame.symm⟩ hc

/-- Bytes can be read so in one way. -/
theorem ReadsLossily.unique {bytes : List UInt8} {left right : Text}
    (hleft : ReadsLossily bytes left) (hright : ReadsLossily bytes right) : left = right := by
  induction hleft generalizing right with
  | nil =>
    -- The bytes are named in each case: the other reading may split them in another way.
    generalize hbytes : ([] : List UInt8) = bytes at hright
    cases hright with
    | nil => rfl
    | character c _ => simp [String.utf8EncodeChar_ne_nil] at hbytes
    | malformed hmalformed _ => simp [hmalformed.ne_nil] at hbytes
  | @character c rest text _ ih =>
    generalize hbytes : String.utf8EncodeChar c ++ rest = bytes at hright
    have hfirst : first? bytes = some c := hbytes ▸ first?_encode_append c rest
    cases hright with
    | nil => simp [first?_nil] at hfirst
    | character d hrest =>
      rw [first?_encode_append] at hfirst
      obtain rfl := Option.some.inj hfirst
      rw [ih (List.append_cancel_left hbytes ▸ hrest)]
    | malformed hmalformed _ =>
      rw [hmalformed.first?_eq_none] at hfirst
      contradiction
  | @malformed stretch rest text hmalformed _ ih =>
    generalize hbytes : stretch ++ rest = bytes at hright
    have hfirst : first? bytes = none := hbytes ▸ hmalformed.first?_eq_none
    cases hright with
    | nil => simp [hmalformed.ne_nil] at hbytes
    | character d _ =>
      rw [first?_encode_append] at hfirst
      contradiction
    | malformed hother hrest =>
      have hlength := Nat.le_antisymm (hother.length_le_of_eq hmalformed hbytes.symm)
        (hmalformed.length_le_of_eq hother hbytes)
      obtain ⟨rfl, rfl⟩ := List.append_inj hbytes hlength
      rw [ih hrest]

/-- What bytes are read as is the only text with each malformed stretch replaced. -/
theorem readsLossily_iff {bytes : List UInt8} {text : Text} :
    ReadsLossily bytes text ↔ text = decodeLossy bytes :=
  ⟨fun h => h.unique (readsLossily_decodeLossy bytes), fun h => h ▸ readsLossily_decodeLossy bytes⟩

end MapHighlight.Utf8
