import MapHighlight.Reader
import MapHighlight.Proofs.Text.Utf8

/-!
# What a reader delivers

Reading line by line brings lines until one comes back empty, cannot be read, or is not UTF-8. This
holds of every reader, also of one that reports the end of its input too early: a line is then
whatever one request for a line has brought, and need not end with a line feed.
-/

namespace MapHighlight.Reader

/-- Reading line by line, from so many bytes on, brings these lines. Then the input has ended or
reading fails, and the reader is left as the last one is. -/
inductive Delivers : Nat → Reader → List Text → Option ReadError → Reader → Prop
  | ended {bytesRead : Nat} {reader next : Reader} : reader.readLine = (.ok [], next) →
      Delivers bytesRead reader [] none next
  | failed {bytesRead : Nat} {reader next : Reader} {error : InputError} :
      reader.readLine = (.error error, next) →
      Delivers bytesRead reader [] (some (.input error)) next
  | malformed {bytesRead valid : Nat} {reader next : Reader} {b : UInt8} {bytes : List UInt8} :
      reader.readLine = (.ok (b :: bytes), next) → Utf8.decode (b :: bytes) = .error valid →
      Delivers bytesRead reader [] (some (.invalidUtf8 (bytesRead + valid))) next
  | line {bytesRead : Nat} {reader next last : Reader} {b : UInt8} {bytes : List UInt8}
      {text : Text} {lines : List Text} {error : Option ReadError} :
      reader.readLine = (.ok (b :: bytes), next) → Utf8.decode (b :: bytes) = .ok text →
      Delivers (bytesRead + (b :: bytes).length) next lines error last →
      Delivers bytesRead reader (text :: lines) error last

/-- Every reader delivers something, because every line uses up part of what it holds. -/
theorem exists_delivers (bytesRead : Nat) (reader : Reader) :
    ∃ lines error last, Delivers bytesRead reader lines error last := by
  match hread : reader.readLine with
  | (.error error, next) => exact ⟨_, _, _, .failed hread⟩
  | (.ok [], next) => exact ⟨_, _, _, .ended hread⟩
  | (.ok (b :: bytes), next) =>
    have := weight_lt_of_readLine hread
    match hdecode : Utf8.decode (b :: bytes) with
    | .error valid => exact ⟨_, _, _, .malformed hread hdecode⟩
    | .ok text =>
      obtain ⟨lines, error, last, hdelivers⟩ :=
        exists_delivers (bytesRead + (b :: bytes).length) next
      exact ⟨_, _, _, .line hread hdecode hdelivers⟩
termination_by weight reader.fills

/-- The bytes taken for a line are the bytes of the line. -/
theorem taken_of_readLineFrom (fills : List Fill) : ∀ line : List UInt8,
    (readLineFrom fills).line = .ok line → (readLineFrom fills).taken = line.length := by
  fun_induction readLineFrom fills with
  | case2 error fills hinterruption ih => exact ih
  | case3 error fills hinterruption =>
    intro line h
    contradiction
  | case1 | case4 | case5 =>
    intro line h
    cases h
    rfl
  | case6 b bytes fills first hcut read ih =>
    intro line h
    simp only at h ⊢
    cases hmore : read.line with
    | error error =>
      rw [hmore] at h
      contradiction
    | ok more =>
      rw [hmore] at h
      cases h
      rw [ih more hmore, List.length_append]

theorem taken_of_readLine {reader next : Reader} {line : List UInt8}
    (h : reader.readLine = (.ok line, next)) : next.taken = reader.taken + line.length := by
  simp only [readLine, Prod.mk.injEq] at h
  rw [← h.2, taken_of_readLineFrom reader.fills line h.1]

/-- Bytes taken from a reader stay taken. -/
theorem taken_le_of_readLine {reader next : Reader} {line : Except InputError (List UInt8)}
    (h : reader.readLine = (line, next)) : reader.taken ≤ next.taken := by
  simp only [readLine, Prod.mk.injEq] at h
  rw [← h.2]
  exact Nat.le_add_right _ _

/-- The bytes of the lines delivered are taken from the reader, whatever comes in the end. -/
theorem Delivers.taken_le {bytesRead : Nat} {reader last : Reader} {lines : List Text}
    {error : Option ReadError} (h : Delivers bytesRead reader lines error last) :
    reader.taken + Text.byteLength lines.flatten ≤ last.taken := by
  induction h with
  | ended hread | failed hread | malformed hread _ => exact taken_le_of_readLine hread
  | line hread hdecode _ ih =>
    rw [taken_of_readLine hread] at ih
    rw [List.flatten_cons, Text.byteLength_append, ← Utf8.length_encode,
      ← Utf8.eq_encode_of_decode hdecode, ← Nat.add_assoc]
    exact ih

/-- If nothing goes wrong, the bytes taken from the reader are those of the lines delivered. -/
theorem Delivers.taken_last {bytesRead : Nat} {reader last : Reader} {lines : List Text}
    (h : Delivers bytesRead reader lines none last) :
    last.taken = reader.taken + Text.byteLength lines.flatten := by
  generalize hnone : none = error at h
  induction h with
  | ended hread => exact taken_of_readLine hread
  | failed hread => contradiction
  | malformed hread hdecode => contradiction
  | line hread hdecode _ ih =>
    rw [ih hnone, taken_of_readLine hread, List.flatten_cons, Text.byteLength_append,
      Utf8.eq_encode_of_decode hdecode, Utf8.length_encode, Nat.add_assoc]

/-- Reading line by line brings these bytes before a line comes back empty, and the reader is then
left as the last one is. -/
inductive ReadsToEnd : Reader → List UInt8 → Reader → Prop
  | ended {reader next : Reader} : reader.readLine = (.ok [], next) → ReadsToEnd reader [] next
  | line {reader next last : Reader} {b : UInt8} {bytes more : List UInt8} :
      reader.readLine = (.ok (b :: bytes), next) → ReadsToEnd next more last →
      ReadsToEnd reader (b :: bytes ++ more) last

/-- If nothing goes wrong, the bytes read are those of the lines delivered. -/
theorem Delivers.readsToEnd {bytesRead : Nat} {reader last : Reader} {lines : List Text}
    (h : Delivers bytesRead reader lines none last) :
    ReadsToEnd reader (Utf8.encode lines.flatten) last := by
  generalize hnone : none = error at h
  induction h with
  | ended hread => exact .ended hread
  | failed hread => contradiction
  | malformed hread hdecode => contradiction
  | line hread hdecode _ ih =>
    rw [List.flatten_cons, Utf8.encode_append, ← Utf8.eq_encode_of_decode hdecode]
    exact .line hread (ih hnone)

end MapHighlight.Reader
