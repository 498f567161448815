import MapHighlight.CommandLine.Device
import MapHighlight.Proofs.Text.Lines
import Mathlib.Data.List.TakeWhile

/-!
# What a channel hands on

A channel neither loses nor moves anything that is written to it: what its layers have handed on and
what they still hold make up what was written. A line buffer never holds a line feed, so nothing is
left in it behind whole lines. From this it follows which outcomes a device that takes no output can
have.
-/

namespace MapHighlight.CommandLine

namespace Buffer

variable (capacity : Nat) (buffer : Buffer) (piece : Text)

@[simp] theorem text_empty : text {} = [] := rfl

@[simp] theorem text_hold : (buffer.hold piece).text = buffer.text ++ piece := by
  simp [text, hold]

/-- A piece cut behind its last line feed is cut in two. -/
theorem append_cutLines : (cutLines piece).1 ++ (cutLines piece).2 = piece := by
  rw [cutLines, ← List.reverse_append, List.takeWhile_append_dropWhile, List.reverse_reverse]

/-- What a buffer hands on and what it holds then are what it held and what was written. -/
theorem flatten_write :
    (buffer.write capacity piece).1.flatten ++ (buffer.write capacity piece).2.text =
      buffer.text ++ piece := by
  unfold write
  split
  · simp
  · split <;> simp

theorem flatten_writeLines :
    (buffer.writeLines capacity piece).1.flatten ++ (buffer.writeLines capacity piece).2.text =
      buffer.text ++ piece := by
  have hcut := append_cutLines piece
  unfold writeLines
  split
  · rename_i rest heq
    simp only [heq, List.nil_append] at hcut
    rw [flatten_write, hcut]
  · rename_i lines rest _ heq
    have hrest := flatten_write capacity {} rest
    rw [heq] at hcut
    simp only [List.flatten_cons, List.append_assoc, hrest, text_empty, List.nil_append, hcut]

variable {buffer piece}

end Buffer

namespace Layer

variable (layer : Layer) (pieces : List Text)

/-- What a layer hands on and what it holds then are what it held and what was written. -/
theorem flatten_write (buffer : Buffer) (piece : Text) :
    (layer.write buffer piece).1.flatten ++ (layer.write buffer piece).2.text =
      buffer.text ++ piece := by
  cases layer with
  | block capacity => exact Buffer.flatten_write capacity buffer piece
  | line capacity => exact Buffer.flatten_writeLines capacity buffer piece

theorem writeOnto_cons (written : List Text × Buffer) (piece : Text) :
    layer.writeOnto written (piece :: pieces) =
      layer.writeOnto (written.1 ++ (layer.write written.2 piece).1,
        (layer.write written.2 piece).2) pieces := rfl

theorem writeOnto_append (written : List Text × Buffer) (more : List Text) :
    layer.writeOnto written (pieces ++ more) =
      layer.writeOnto (layer.writeOnto written pieces) more :=
  List.foldl_append

/-- What was handed on stays first. -/
theorem isPrefix_writeOnto (written : List Text × Buffer) :
    written.1 <+: (layer.writeOnto written pieces).1 := by
  induction pieces generalizing written with
  | nil => exact List.prefix_rfl
  | cons piece pieces ih =>
    rw [writeOnto_cons]
    exact (List.prefix_append _ _).trans (ih (_, _))

/-- Nothing is lost over any number of pieces. -/
theorem flatten_writeOnto (written : List Text × Buffer) :
    (layer.writeOnto written pieces).1.flatten ++ (layer.writeOnto written pieces).2.text =
      written.1.flatten ++ written.2.text ++ pieces.flatten := by
  induction pieces generalizing written with
  | nil => simp [writeOnto]
  | cons piece pieces ih =>
    have hwrite := layer.flatten_write written.2 piece
    rw [writeOnto_cons, ih, List.flatten_append, List.append_assoc written.1.flatten, hwrite,
      List.flatten_cons]
    simp only [List.append_assoc]

theorem flatten_writeAll :
    (layer.writeAll pieces).1.flatten ++ (layer.writeAll pieces).2.text = pieces.flatten :=
  layer.flatten_writeOnto pieces ([], {})

variable {pieces}

end Layer

namespace Channel

/-- The device is asked to take what was written, once everything is handed on. -/
theorem flatten_flushedThrough (layers : List Layer) (pieces : List Text) :
    (flushedThrough layers pieces).flatten = pieces.flatten := by
  induction layers generalizing pieces with
  | nil => rfl
  | cons layer below ih =>
    simp only [flushedThrough, ih, List.flatten_append, List.flatten_singleton]
    exact layer.flatten_writeAll pieces

/-- More pieces lead to more requests, behind the earlier ones. -/
theorem requestsThrough_isPrefix (layers : List Layer) {pieces all : List Text}
    (h : pieces <+: all) : requestsThrough layers pieces <+: requestsThrough layers all := by
  induction layers generalizing pieces all with
  | nil => exact h
  | cons layer below ih =>
    obtain ⟨more, rfl⟩ := h
    refine ih ?_
    rw [Layer.writeAll, Layer.writeAll, layer.writeOnto_append]
    exact layer.isPrefix_writeOnto _ _

variable (channel : Channel) (writing : Writing)

theorem flatten_flushed : (channel.flushed writing.pieces).flatten = writing.text :=
  flatten_flushedThrough channel.layers writing.pieces

variable {writing}

end Channel

namespace Device

variable (channel : Channel) {writing : Writing}

/-- A full device refuses every request for some text. -/
theorem refusal_full (requests : List Text) :
    full.refusal requests = if requests.flatten = [] then none else some .noSpaceLeft := by
  simp only [refusal, List.all_eq_true, List.isEmpty_iff, List.flatten_eq_nil_iff]

/-- A device that takes all output is left with what was written, however it was held back. -/
theorem deliver_working (writing : Writing) :
    working.deliver channel writing = .ofFailure writing.text writing.failure := by
  simp only [deliver, refusal, taken, channel.flatten_flushed]
  cases writing.failure with
  | none => simp
  | some failure => rfl

end Device

end MapHighlight.CommandLine
