import MapHighlight.ReadError

/-!
# Readers

A reader answers each request for more bytes with a buffer or a failure. An empty buffer reports
the end of the input, and once all prepared answers are used up every request does. `readLine`
collects bytes up to and including a line feed, however the buffers cut them, and stops early when
the end of the input is reported or a failure is not a mere interruption.
-/

namespace MapHighlight

/-- A reader's answer to a request for more bytes. -/
inductive Fill where
  /-- The bytes to go on with; none of them if the input has ended for now. -/
  | buffer (bytes : List UInt8)
  /-- The request failed. -/
  | failure (error : InputError)
deriving DecidableEq, Repr

/-- A reader with the answers it has yet to give. -/
structure Reader where
  /-- The answers to the next requests. -/
  fills : List Fill
  /-- The number of bytes taken from the reader so far. -/
  taken : Nat := 0
deriving DecidableEq, Repr

/-- The outcome of reading a line. -/
structure LineRead where
  /-- The bytes of the line, or the failure that cut it short. -/
  line : Except InputError (List UInt8)
  /-- The number of bytes taken, whether or not they made it into a line. -/
  taken : Nat
  /-- The answers that the reader has yet to give. -/
  fills : List Fill

namespace Reader

/-- The byte that ends a line. -/
def lineFeed : UInt8 :=
  10

/-- The bytes up to and including the first line feed, and the bytes after it if there is one. -/
def cutLine (bytes : List UInt8) : List UInt8 × Option (List UInt8) :=
  match bytes.dropWhile (· != lineFeed) with
  | [] => (bytes, none)
  | ending :: rest => (bytes.takeWhile (· != lineFeed) ++ [ending], some rest)

/-- A reader's remaining answers once bytes of the first buffer are left over. Nothing left over is
no answer, because an empty buffer would report the end of the input. -/
def putBack (rest : List UInt8) (fills : List Fill) : List Fill :=
  if rest.isEmpty then fills else .buffer rest :: fills

/-- Reads up to and including the next line feed from prepared answers. -/
def readLineFrom : List Fill → LineRead
  | [] => ⟨.ok [], 0, []⟩
  | .failure error :: fills =>
    if error.isInterruption then readLineFrom fills else ⟨.error error, 0, fills⟩
  | .buffer [] :: fills => ⟨.ok [], 0, fills⟩
  | .buffer (b :: bytes) :: fills =>
    match cutLine (b :: bytes) with
    | (line, some rest) => ⟨.ok line, line.length, putBack rest fills⟩
    | (line, none) =>
      let read := readLineFrom fills
      ⟨read.line.map (line ++ ·), line.length + read.taken, read.fills⟩

/-- Reads up to and including the next line feed. The bytes read are empty only if the end of the
input is reported before any byte comes. -/
def readLine (reader : Reader) : Except InputError (List UInt8) × Reader :=
  let read := readLineFrom reader.fills
  (read.line, ⟨read.fills, reader.taken + read.taken⟩)

/-- All bytes up to the first report that the input has ended. -/
def readAllFrom : List Fill → Except InputError (List UInt8)
  | [] => .ok []
  | .failure error :: fills =>
    if error.isInterruption then readAllFrom fills else .error error
  | .buffer [] :: _ => .ok []
  | .buffer (b :: bytes) :: fills => (readAllFrom fills).map ((b :: bytes) ++ ·)

/-- All bytes that a reader has to give. -/
def readAll (reader : Reader) : Except InputError (List UInt8) :=
  readAllFrom reader.fills

/-- The reader that delivers the bytes in one buffer. -/
def ofBytes (bytes : List UInt8) : Reader :=
  ⟨putBack bytes [], 0⟩

/-- How much a reader still holds: its bytes, and one more for each answer. -/
def weight : List Fill → Nat
  | [] => 0
  | .buffer bytes :: fills => bytes.length + 1 + weight fills
  | .failure _ :: fills => 1 + weight fills

private theorem weight_putBack_le (rest : List UInt8) (fills : List Fill) :
    weight (putBack rest fills) ≤ rest.length + 1 + weight fills := by
  unfold putBack
  split
  · omega
  · simp [weight]

private theorem length_cutLine_rest {bytes line rest : List UInt8}
    (h : cutLine bytes = (line, some rest)) : rest.length < bytes.length := by
  unfold cutLine at h
  split at h
  · simp at h
  · rename_i ending after hdrop
    have hsuffix := (List.dropWhile_suffix (l := bytes) (· != lineFeed)).length_le
    rw [hdrop, List.length_cons] at hsuffix
    cases h
    omega

private theorem weight_readLineFrom_le (fills : List Fill) :
    weight (readLineFrom fills).fills ≤ weight fills := by
  induction fills with
  | nil => simp [readLineFrom]
  | cons fill fills ih =>
    cases fill with
    | failure error =>
      simp only [readLineFrom, weight]
      split
      · omega
      · simp
    | buffer bytes =>
      cases bytes with
      | nil => simp [readLineFrom, weight]
      | cons b bytes =>
        simp only [readLineFrom, weight]
        split
        · rename_i line rest hcut
          have := weight_putBack_le rest fills
          have := length_cutLine_rest hcut
          simp only [List.length_cons] at *
          omega
        · simp only
          omega

/-- Reading a line uses up part of what the reader holds, unless it holds nothing. -/
theorem weight_readLineFrom_lt {fills : List Fill} (h : fills ≠ []) :
    weight (readLineFrom fills).fills < weight fills := by
  cases fills with
  | nil => contradiction
  | cons fill fills =>
    have hle := weight_readLineFrom_le fills
    cases fill with
    | failure error =>
      simp only [readLineFrom, weight]
      split
      · omega
      · simp only
        omega
    | buffer bytes =>
      cases bytes with
      | nil => simp [readLineFrom, weight]
      | cons b bytes =>
        simp only [readLineFrom, weight]
        split
        · rename_i line rest hcut
          have := weight_putBack_le rest fills
          have := length_cutLine_rest hcut
          simp only [List.length_cons] at *
          omega
        · simp only
          omega

theorem weight_readLine_le {reader next : Reader} {line : Except InputError (List UInt8)}
    (h : reader.readLine = (line, next)) : weight next.fills ≤ weight reader.fills := by
  simp only [readLine, Prod.mk.injEq] at h
  rw [← h.2]
  exact weight_readLineFrom_le reader.fills

theorem weight_readLine_lt {reader next : Reader} {line : Except InputError (List UInt8)}
    (h : reader.readLine = (line, next)) (hfills : reader.fills ≠ []) :
    weight next.fills < weight reader.fills := by
  simp only [readLine, Prod.mk.injEq] at h
  rw [← h.2]
  exact weight_readLineFrom_lt hfills

/-- A reader holds less after a line with bytes in it. -/
theorem weight_lt_of_readLine {reader next : Reader} {b : UInt8} {bytes : List UInt8}
    (h : reader.readLine = (.ok (b :: bytes), next)) : weight next.fills < weight reader.fills := by
  refine weight_readLine_lt h fun hnil => ?_
  simp [readLine, hnil, readLineFrom] at h

end Reader

end MapHighlight
