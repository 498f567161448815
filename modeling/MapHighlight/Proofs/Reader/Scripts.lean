import MapHighlight.Proofs.Reader.Delivery
import Mathlib.Data.List.TakeWhile

/-!
# Scripts of a reader

Until it stops, a reader serves requests: it answers with bytes, or it asks to be asked again. What
such a reader delivers depends only on the bytes that it serves and on why it stops, not on where
its buffers are cut. It delivers the lines of those bytes, up to the first failure.
-/

namespace MapHighlight

/-- The bytes that an answer brings. -/
def Fill.bytes : Fill → List UInt8
  | .buffer bytes => bytes
  | .failure _ => []

/-- Whether an answer brings bytes or merely asks to be asked again. -/
def Fill.serves : Fill → Bool
  | .buffer bytes => !bytes.isEmpty
  | .failure error => error.isInterruption

namespace Reader

/-- Why a reader serves no more requests. -/
inductive Stop where
  /-- Nothing more comes. -/
  | endOfInput
  /-- A request failed. Other answers may follow. -/
  | failure (error : InputError) (later : List Fill)
deriving DecidableEq, Repr

/-- The answers of a reader that has stopped. -/
def Stop.fills : Stop → List Fill
  | endOfInput => []
  | failure error later => .failure error :: later

/-- Whether a reader that stops in this way has indeed stopped, so that it does not merely ask to be
asked again. -/
def Stop.IsFinal : Stop → Prop
  | endOfInput => True
  | failure error _ => error.isInterruption = false

instance : (stop : Stop) → Decidable stop.IsFinal
  | .endOfInput => inferInstanceAs (Decidable True)
  | .failure _ _ => inferInstanceAs (Decidable (_ = _))

/-- A buffer with a line feed is read up to it, and what is left of it is put back. -/
theorem readLineFrom_buffer_of_lineFeed {before : List UInt8} (hbefore : lineFeed ∉ before)
    (after : List UInt8) (fills : List Fill) :
    readLineFrom (.buffer (before ++ lineFeed :: after) :: fills) =
      ⟨.ok (before ++ [lineFeed]), before.length + 1, putBack after fills⟩ := by
  have hcut : cutLine (before ++ lineFeed :: after) = (before ++ [lineFeed], some after) := by
    unfold cutLine
    rw [dropWhile_append_delimiter hbefore, takeWhile_append_delimiter hbefore]
  cases hbytes : before ++ lineFeed :: after with
  | nil => simp at hbytes
  | cons b bytes =>
    rw [hbytes] at hcut
    simp only [readLineFrom, hcut, List.length_append, List.length_singleton]

/-- A buffer without a line feed is read up, and reading goes on behind it. -/
theorem readLineFrom_buffer_of_not_mem {bytes : List UInt8} (hne : bytes ≠ [])
    (hmem : lineFeed ∉ bytes) (fills : List Fill) :
    readLineFrom (.buffer bytes :: fills) =
      ⟨(readLineFrom fills).line.map (bytes ++ ·), bytes.length + (readLineFrom fills).taken,
        (readLineFrom fills).fills⟩ := by
  have hcut : cutLine bytes = (bytes, none) := by
    have hall : ∀ b ∈ bytes, (b != lineFeed) = true := by
      intro b hb
      exact bne_iff_ne.mpr (ne_of_mem_of_not_mem hb hmem)
    unfold cutLine
    rw [List.dropWhile_eq_nil_iff.mpr hall]
  obtain ⟨b, bytes, rfl⟩ := List.exists_cons_of_ne_nil hne
  simp only [readLineFrom, hcut]

theorem flatMap_putBack (bytes : List UInt8) (fills : List Fill) :
    (putBack bytes fills).flatMap Fill.bytes = bytes ++ fills.flatMap Fill.bytes := by
  cases bytes <;> rfl

theorem putBack_append (bytes : List UInt8) (fills more : List Fill) :
    putBack bytes (fills ++ more) = putBack bytes fills ++ more := by
  cases bytes <;> rfl

theorem serves_putBack {fills : List Fill} (hserves : ∀ fill ∈ fills, fill.serves = true)
    (bytes : List UInt8) : ∀ fill ∈ putBack bytes fills, fill.serves = true := by
  cases bytes with
  | nil => exact hserves
  | cons b bytes => exact List.forall_mem_cons.mpr ⟨rfl, hserves⟩

section Serving

variable {served : List Fill}

/-- A reader that serves a line feed is asked until it has served the line, and then keeps the
bytes behind it. -/
theorem readLineFrom_of_lineFeed {before after : List UInt8}
    (hserves : ∀ fill ∈ served, fill.serves = true) (hbefore : lineFeed ∉ before)
    (hbytes : served.flatMap Fill.bytes = before ++ lineFeed :: after) (fills : List Fill) :
    ∃ left, (∀ fill ∈ left, fill.serves = true) ∧ left.flatMap Fill.bytes = after ∧
      readLineFrom (served ++ fills) =
        ⟨.ok (before ++ [lineFeed]), before.length + 1, left ++ fills⟩ := by
  induction served generalizing before with
  | nil => simp at hbytes
  | cons fill served ih =>
    obtain ⟨hfill, hserved⟩ := List.forall_mem_cons.mp hserves
    rw [List.flatMap_cons] at hbytes
    cases fill with
    | failure error =>
      have hinterruption : error.isInterruption = true := hfill
      obtain ⟨left, hleft, hafter, hread⟩ := ih hserved hbefore hbytes
      refine ⟨left, hleft, hafter, ?_⟩
      rw [List.cons_append, readLineFrom, if_pos hinterruption, hread]
    | buffer bytes =>
      simp only [Fill.bytes] at hbytes
      -- The line ends in this buffer, or it goes on in the answers behind it.
      by_cases hmem : lineFeed ∈ bytes
      · obtain ⟨first, second, rfl, hfirst⟩ := List.eq_append_cons_of_mem hmem
        rw [List.append_assoc, List.cons_append] at hbytes
        obtain ⟨rfl, rfl⟩ := append_delimiter_inj hfirst hbefore hbytes
        refine ⟨putBack second served, serves_putBack hserved second,
          flatMap_putBack second served, ?_⟩
        rw [List.cons_append, readLineFrom_buffer_of_lineFeed hfirst, putBack_append]
      · obtain ⟨middle, rfl, hmiddle, hrest⟩ := exists_append_delimiter hmem hbefore hbytes
        obtain ⟨left, hleft, hafter, hread⟩ := ih hserved hmiddle hrest
        refine ⟨left, hleft, hafter, ?_⟩
        have hne : bytes ≠ [] := by simpa [Fill.serves] using hfill
        rw [List.cons_append, readLineFrom_buffer_of_not_mem hne hmem, hread]
        simp [Except.map, Nat.add_assoc]

/-- A reader that serves no line feed is asked until it stops. -/
theorem readLineFrom_of_not_mem (hserves : ∀ fill ∈ served, fill.serves = true)
    (hmem : lineFeed ∉ served.flatMap Fill.bytes) (fills : List Fill) :
    readLineFrom (served ++ fills) =
      ⟨(readLineFrom fills).line.map (served.flatMap Fill.bytes ++ ·),
        (served.flatMap Fill.bytes).length + (readLineFrom fills).taken,
        (readLineFrom fills).fills⟩ := by
  induction served with
  | nil =>
    rw [List.nil_append]
    generalize readLineFrom fills = read
    obtain ⟨line, taken, left⟩ := read
    cases line <;> simp [Except.map]
  | cons fill served ih =>
    obtain ⟨hfill, hserved⟩ := List.forall_mem_cons.mp hserves
    rw [List.flatMap_cons, List.mem_append, not_or] at hmem
    have hread := ih hserved hmem.2
    cases fill with
    | failure error =>
      have hinterruption : error.isInterruption = true := hfill
      rw [List.cons_append, readLineFrom, if_pos hinterruption, hread]
      rfl
    | buffer bytes =>
      have hne : bytes ≠ [] := by simpa [Fill.serves] using hfill
      rw [List.cons_append, readLineFrom_buffer_of_not_mem hne hmem.1, hread]
      obtain ⟨line, taken, left⟩ := readLineFrom fills
      cases line <;> simp [Except.map, Fill.bytes, Nat.add_assoc]

end Serving

/-- The first failure of a reader that serves bytes, counted from an offset on, and then stops:
the lines before it and the error. A line that is not UTF-8 fails once it is complete, either
because it has its line feed or because nothing more comes. -/
inductive FirstFailure (start : Nat) (bytes : List UInt8) (stop : Stop) :
    List Text → ReadError → Prop
  | malformed {valid : List Text} {line : List UInt8} {after : List (List UInt8)} {n : Nat} :
      linesOf lineFeed bytes = valid.map Utf8.encode ++ line :: after →
      (∀ text ∈ valid, text.IsLine) → (lineFeed ∈ line ∨ stop = .endOfInput) →
      Utf8.decode line = .error n →
      FirstFailure start bytes stop valid
        (.invalidUtf8 (start + Text.byteLength valid.flatten + n))
  | failed {valid : List Text} {unfinished : List (List UInt8)} {error : InputError}
      {later : List Fill} :
      linesOf lineFeed bytes = valid.map Utf8.encode ++ unfinished →
      (∀ text ∈ valid, text.IsLine) → (∀ line ∈ unfinished, lineFeed ∉ line) →
      stop = .failure error later →
      FirstFailure start bytes stop valid (.input error)

variable {start taken : Nat} {before after : List UInt8} {served : List Fill} {stop : Stop}
  {text : Text}

/-- The failure of a first line that is not UTF-8. -/
theorem FirstFailure.of_first_line {bytes line : List UInt8} {later : List (List UInt8)} {n : Nat}
    (hlines : linesOf lineFeed bytes = line :: later)
    (hcomplete : lineFeed ∈ line ∨ stop = .endOfInput) (hdecode : Utf8.decode line = .error n) :
    FirstFailure start bytes stop [] (.invalidUtf8 (start + n)) :=
  .malformed hlines (by simp) hcomplete hdecode

/-- A line without failure before the first failure. -/
theorem FirstFailure.cons {valid : List Text} {error : ReadError}
    (hbefore : lineFeed ∉ before) (htext : before ++ [lineFeed] = Utf8.encode text)
    (h : FirstFailure (start + text.byteLength) after stop valid error) :
    FirstFailure start (before ++ lineFeed :: after) stop (text :: valid) error := by
  have hline : text.IsLine := Utf8.isLine_of_encode hbefore htext.symm
  have hlines : linesOf lineFeed (before ++ lineFeed :: after) =
      Utf8.encode text :: linesOf lineFeed after := by
    rw [linesOf_append_delimiter hbefore, htext]
  cases h with
  | @malformed line later n hafter hvalid hcomplete hdecode =>
    rw [hafter] at hlines
    have hoffset : start + text.byteLength + Text.byteLength valid.flatten + n =
        start + Text.byteLength (text :: valid).flatten + n := by
      rw [List.flatten_cons, Text.byteLength_append]
      omega
    rw [hoffset]
    exact .malformed hlines (List.forall_mem_cons.mpr ⟨hline, hvalid⟩) hcomplete hdecode
  | failed hafter hvalid hunfinished hstop =>
    rw [hafter] at hlines
    exact .failed hlines (List.forall_mem_cons.mpr ⟨hline, hvalid⟩) hunfinished hstop

/-- The lines before the first failure are whole lines, and the bytes begin with them. -/
theorem FirstFailure.isLine_and_bytes_eq {bytes : List UInt8} {valid : List Text}
    {error : ReadError} (h : FirstFailure start bytes stop valid error) :
    (∀ line ∈ valid, line.IsLine) ∧ ∃ tail, bytes = Utf8.encode valid.flatten ++ tail := by
  have hflatten := flatten_linesOf lineFeed bytes
  cases h with
  | malformed hlines hvalid | failed hlines hvalid =>
    rw [hlines, List.flatten_append, ← Utf8.encode_flatten] at hflatten
    exact ⟨hvalid, _, hflatten.symm⟩

/-- Whether a line can be read as a text and has its line feed. -/
def isReadable (line : List UInt8) : Bool :=
  line.contains lineFeed && (Utf8.decode line).isOk

theorem isReadable_encode {line : Text} (h : line.IsLine) :
    isReadable (Utf8.encode line) = true := by
  obtain ⟨before, -, hencode⟩ := Utf8.encode_of_isLine h
  have hmem : lineFeed ∈ Utf8.encode line := by
    rw [hencode]
    exact List.mem_append_right before List.mem_cons_self
  unfold isReadable
  rw [Utf8.decode_encode, List.contains_iff_mem.mpr hmem]
  rfl

/-- The lines before the first failure are the readable lines at the start. -/
theorem FirstFailure.takeWhile_isReadable {bytes : List UInt8} {valid : List Text}
    {error : ReadError} (h : FirstFailure start bytes stop valid error) :
    (linesOf lineFeed bytes).takeWhile isReadable = valid.map Utf8.encode := by
  have hreadable (hvalid : ∀ text ∈ valid, text.IsLine) :
      ∀ line ∈ valid.map Utf8.encode, isReadable line = true := by
    intro line hline
    obtain ⟨text, htext, rfl⟩ := List.mem_map.mp hline
    exact isReadable_encode (hvalid text htext)
  cases h with
  | @malformed line after n hlines hvalid _ hdecode =>
    have hline : isReadable line = false := by
      simp [isReadable, hdecode, Except.isOk, Except.toBool]
    rw [hlines, List.takeWhile_append_of_pos (hreadable hvalid), List.takeWhile_cons_of_neg]
    · exact List.append_nil _
    · simp [hline]
  | @failed unfinished _ _ hlines hvalid hunfinished _ =>
    rw [hlines, List.takeWhile_append_of_pos (hreadable hvalid)]
    cases unfinished with
    | nil => exact List.append_nil _
    | cons line lines =>
      have hmem := hunfinished line List.mem_cons_self
      rw [List.takeWhile_cons_of_neg]
      · exact List.append_nil _
      · simp [isReadable, hmem]

/-- A line that fails before reading does was complete, so it is not the line that reading fails
in. -/
private theorem false_of_unfinished {line : List UInt8} {unfinished : List (List UInt8)}
    {error : InputError} {later : List Fill} (hmem : line ∈ unfinished)
    (hunfinished : ∀ line ∈ unfinished, lineFeed ∉ line)
    (hcomplete : lineFeed ∈ line ∨ stop = .endOfInput) (hstop : stop = .failure error later) :
    False := by
  rw [hstop] at hcomplete
  rcases hcomplete with hline | hend
  · exact hunfinished line hmem hline
  · contradiction

/-- There is only one first failure. -/
theorem FirstFailure.unique {bytes : List UInt8} {valid valid' : List Text}
    {error error' : ReadError} (h : FirstFailure start bytes stop valid error)
    (h' : FirstFailure start bytes stop valid' error') : valid = valid' ∧ error = error' := by
  have hvalid : valid = valid' := by
    have hlines := h.takeWhile_isReadable
    rw [h'.takeWhile_isReadable, List.map_inj_right fun _ _ => Utf8.encode_inj] at hlines
    exact hlines.symm
  subst hvalid
  refine ⟨rfl, ?_⟩
  cases h with
  | @malformed line after n hlines _ hcomplete hdecode =>
    cases h' with
    | malformed hlines' _ _ hdecode' =>
      rw [hlines] at hlines'
      obtain ⟨rfl, -⟩ := List.cons.inj (List.append_cancel_left hlines')
      rw [hdecode] at hdecode'
      cases hdecode'
      rfl
    | failed hlines' _ hunfinished hstop =>
      rw [hlines] at hlines'
      have hrest := List.append_cancel_left hlines'
      exact (false_of_unfinished (by simp [← hrest]) hunfinished hcomplete hstop).elim
  | @failed unfinished _ _ hlines _ hunfinished hstop =>
    cases h' with
    | @malformed line after n hlines' _ hcomplete hdecode =>
      rw [hlines] at hlines'
      have hrest := List.append_cancel_left hlines'
      exact (false_of_unfinished (by simp [hrest]) hunfinished hcomplete hstop).elim
    | failed _ _ _ hstop' =>
      rw [hstop] at hstop'
      cases hstop'
      rfl

/-- What a reader delivers that brings bytes, from an offset on, and then stops: all lines of the
bytes, or the lines before the first failure and that failure. -/
inductive DeliversBytes (start : Nat) (bytes : List UInt8) (stop : Stop) (reader : Reader) : Prop
  | complete {lines : List Text} {last : Reader} : stop = .endOfInput →
      linesOf lineFeed bytes = lines.map Utf8.encode → Delivers start reader lines none last →
      DeliversBytes start bytes stop reader
  | failing {valid : List Text} {error : ReadError} {last : Reader} :
      FirstFailure start bytes stop valid error → Delivers start reader valid (some error) last →
      DeliversBytes start bytes stop reader

variable {reader next : Reader}

/-- A line goes first in what is delivered, unless it is the first failure. -/
theorem DeliversBytes.line (hread : reader.readLine = (.ok (before ++ [lineFeed]), next))
    (hbefore : lineFeed ∉ before)
    (h : DeliversBytes (start + (before ++ [lineFeed]).length) after stop next) :
    DeliversBytes start (before ++ lineFeed :: after) stop reader := by
  have hlines : linesOf lineFeed (before ++ lineFeed :: after) =
      (before ++ [lineFeed]) :: linesOf lineFeed after := linesOf_append_delimiter hbefore
  have hmem : lineFeed ∈ before ++ [lineFeed] := by simp
  generalize hline : before ++ [lineFeed] = line at hread h hlines hmem
  obtain ⟨b, bytes, rfl⟩ := List.exists_cons_of_ne_nil (List.ne_nil_of_mem hmem)
  cases hdecode : Utf8.decode (b :: bytes) with
  | error n =>
    exact .failing (.of_first_line hlines (.inl hmem) hdecode) (.malformed hread hdecode)
  | ok text =>
    have htext := Utf8.eq_encode_of_decode hdecode
    cases h with
    | complete hstop hafter hdelivers =>
      refine .complete hstop ?_ (.line hread hdecode hdelivers)
      rw [hlines, hafter, htext]
      rfl
    | failing hfirst hdelivers =>
      refine .failing ?_ (.line hread hdecode hdelivers)
      rw [htext, Utf8.length_encode] at hfirst
      exact hfirst.cons hbefore (hline.trans htext)

/-- Bytes without a line feed are delivered as a line once nothing more comes. -/
theorem deliversBytes_of_endOfInput {bytes : List UInt8} (hmem : lineFeed ∉ bytes)
    (hread : reader.readLine = (.ok bytes, ⟨[], taken⟩)) :
    DeliversBytes start bytes .endOfInput reader := by
  cases bytes with
  | nil =>
    refine .complete rfl ?_ (.ended hread)
    rfl
  | cons b bytes =>
    have hlines := linesOf_of_not_mem hmem (List.cons_ne_nil b bytes)
    cases hdecode : Utf8.decode (b :: bytes) with
    | error n =>
      exact .failing (.of_first_line hlines (.inr rfl) hdecode) (.malformed hread hdecode)
    | ok text =>
      refine .complete rfl ?_ (.line hread hdecode (.ended rfl))
      rw [hlines, Utf8.eq_encode_of_decode hdecode]
      rfl

/-- Bytes without a line feed are lost if the next request fails. -/
theorem deliversBytes_of_failure {bytes : List UInt8} {error : InputError} {later : List Fill}
    (hmem : lineFeed ∉ bytes) (hread : reader.readLine = (.error error, next)) :
    DeliversBytes start bytes (.failure error later) reader := by
  have hunfinished : ∀ line ∈ linesOf lineFeed bytes, lineFeed ∉ line := by
    rw [← flatten_linesOf lineFeed bytes] at hmem
    exact fun line hline h => hmem (List.mem_flatten_of_mem hline h)
  refine .failing (.failed ?_ ?_ hunfinished rfl) (.failed hread)
  · rfl
  · simp

/-- A reader that serves bytes and then stops delivers these bytes, however they are cut. -/
theorem deliversBytes_of_serves (hserves : ∀ fill ∈ served, fill.serves = true)
    (hfinal : stop.IsFinal) (start taken : Nat) :
    DeliversBytes start (served.flatMap Fill.bytes) stop ⟨served ++ stop.fills, taken⟩ := by
  generalize hbytes : served.flatMap Fill.bytes = bytes
  induction bytes using lines_induction lineFeed generalizing served start taken with
  | unfinished rest hmem =>
    rw [← hbytes] at hmem
    have hread := readLineFrom_of_not_mem hserves hmem stop.fills
    rw [hbytes] at hmem hread
    cases stop with
    | endOfInput =>
      have hline : readLine ⟨served ++ Stop.endOfInput.fills, taken⟩ =
          (.ok rest, ⟨[], taken + (rest.length + 0)⟩) := by
        rw [readLine, hread, Stop.fills, readLineFrom]
        simp only [Except.map, List.append_nil]
      exact deliversBytes_of_endOfInput hmem hline
    | failure error later =>
      have hinterruption : ¬error.isInterruption = true := Bool.eq_false_iff.mp hfinal
      apply deliversBytes_of_failure hmem
      rw [readLine, hread, Stop.fills, readLineFrom, if_neg hinterruption]
      rfl
  | line before after hbefore ih =>
    obtain ⟨left, hleft, hafter, hread⟩ :=
      readLineFrom_of_lineFeed hserves hbefore hbytes stop.fills
    have hline : readLine ⟨served ++ stop.fills, taken⟩ =
        (.ok (before ++ [lineFeed]), ⟨left ++ stop.fills, taken + (before.length + 1)⟩) := by
      rw [readLine, hread]
    exact .line hline hbefore (ih hleft _ _ hafter)

/-- A reader that serves the bytes of a text delivers the lines of the text. -/
theorem exists_delivers_of_encode (hserves : ∀ fill ∈ served, fill.serves = true)
    (hbytes : served.flatMap Fill.bytes = Utf8.encode text) (start taken : Nat) :
    ∃ last, Delivers start ⟨served, taken⟩ (linesOf '\n' text) none last := by
  have hlines : linesOf lineFeed (served.flatMap Fill.bytes) =
      (linesOf '\n' text).map Utf8.encode := by
    rw [hbytes]
    exact Utf8.linesOf_encode text
  have hfinal : Stop.endOfInput.IsFinal := trivial
  cases deliversBytes_of_serves hserves hfinal start taken with
  | @complete lines last _ hread hdelivers =>
    rw [hlines, List.map_inj_right fun _ _ => Utf8.encode_inj] at hread
    rw [Stop.fills, List.append_nil, ← hread] at hdelivers
    exact ⟨last, hdelivers⟩
  | failing hfirst _ =>
    exfalso
    cases hfirst with
    | failed _ _ _ hstop => contradiction
    | @malformed line later n hread _ _ hdecode =>
      have hmem : line ∈ (linesOf '\n' text).map Utf8.encode := by
        rw [← hlines, hread]
        simp
      obtain ⟨content, -, rfl⟩ := List.mem_map.mp hmem
      rw [Utf8.decode_encode] at hdecode
      contradiction

end Reader

end MapHighlight
