import MapHighlight.CommandLine.Program
import MapHighlight.Proofs.Reader.Scripts
import MapHighlight.Proofs.Text.Malformed

/-!
# Reading at once

A source can be read line by line or at once. At once its bytes are had however they are cut, and
the first malformed byte among them is the one that reading line by line comes upon.
-/

namespace MapHighlight

namespace Reader

variable {served : List Fill}

/-- Read at once, a reader that serves bytes and then stops has these bytes. -/
theorem readAllFrom_of_serves (hserves : ∀ fill ∈ served, fill.serves = true) :
    readAllFrom served = .ok (served.flatMap Fill.bytes) := by
  induction served with
  | nil => rfl
  | cons fill served ih =>
    obtain ⟨hfill, hserved⟩ := List.forall_mem_cons.mp hserves
    have hread := ih hserved
    cases fill with
    | failure error =>
      have hinterruption : error.isInterruption = true := hfill
      rw [readAllFrom, if_pos hinterruption, hread]
      rfl
    | buffer bytes =>
      have hne : bytes ≠ [] := by simpa [Fill.serves] using hfill
      obtain ⟨b, bytes, rfl⟩ := List.exists_cons_of_ne_nil hne
      rw [readAllFrom, hread]
      rfl

theorem serves_ofBytes (bytes : List UInt8) :
    ∀ fill ∈ (ofBytes bytes).fills, fill.serves = true :=
  serves_putBack (by simp) bytes

theorem flatMap_ofBytes (bytes : List UInt8) :
    (ofBytes bytes).fills.flatMap Fill.bytes = bytes := by
  rw [ofBytes, flatMap_putBack, List.flatMap_nil, List.append_nil]

/-- A first failure at the end of the input is the first malformed byte of all the bytes. -/
theorem FirstFailure.exists_decode_eq {bytes : List UInt8} {valid : List Text} {error : ReadError}
    (h : FirstFailure 0 bytes .endOfInput valid error) :
    ∃ n, error = .invalidUtf8 n ∧ Utf8.decode bytes = .error n := by
  cases h with
  | failed _ _ _ hstop => contradiction
  | @malformed line after n hlines hvalid hcomplete hdecode =>
    have hend : after.flatten ≠ [] → line.getLast? = some 10 := by
      intro hne
      apply getLast?_of_linesOf hlines
      rintro rfl
      exact hne rfl
    have hbytes := flatten_linesOf lineFeed bytes
    rw [hlines, List.flatten_append, List.flatten_cons, ← Utf8.encode_flatten] at hbytes
    refine ⟨_, rfl, ?_⟩
    rw [← hbytes, Utf8.decode_append_of_error hdecode hend, Nat.zero_add]

end Reader

namespace CommandLine

variable {served : List Fill}

/-- The text read at once is the text of all the bytes, and so is what keeps it from being read. -/
theorem readSource_of_serves (hserves : ∀ fill ∈ served, fill.serves = true) (taken : Nat) :
    readSource ⟨served, taken⟩ =
      (Utf8.decode (served.flatMap Fill.bytes)).mapError .invalidUtf8 := by
  rw [readSource, Reader.readAll, Reader.readAllFrom_of_serves hserves]

end CommandLine

end MapHighlight
