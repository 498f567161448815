import MapHighlight.CommandLine.Program
import MapHighlight.Proofs.CommandLine.Buffers

/-!
# What is reported

The layout of the output makes no difference to what there is to report. A device that takes no
output stops the program at the first piece that it is asked to take, so the program reports there
what it would have reported otherwise, up to that piece. What a logger makes of it depends on the
arguments and the surroundings; without a wish for reports it is nothing.
-/

namespace MapHighlight.CommandLine

namespace Device

variable (channel : Channel) (written : List Text) (actions : List (Action Text))

variable {channel actions}

/-- As long as the device is asked to take nothing, everything is reported, and the rest goes on from
there. -/
theorem heard_append (after : List (Action Text))
    (h : (channel.requests (written ++ Action.values actions)).flatten = []) :
    heard channel written (actions ++ after) =
      Action.events actions ++ heard channel (written ++ Action.values actions) after := by
  induction actions generalizing written with
  | nil => simp
  | cons action actions ih =>
    cases action with
    | report event => exact congrArg (event :: ·) (ih written h)
    | yield piece =>
      rw [Action.values_cons_yield, List.append_cons] at h ⊢
      have hearlier := Channel.requestsThrough_isPrefix channel.layers
        (List.prefix_append (written ++ [piece]) (Action.values actions))
      have hnone : (channel.requests (written ++ [piece])).flatten = [] := by
        rw [List.flatten_eq_nil_iff]
        exact fun request hmem => List.flatten_eq_nil_iff.mp h request (hearlier.subset hmem)
      simp only [List.cons_append, heard, refusal_full, hnone, if_true]
      exact ih _ h

/-- The first piece that the device is asked to take is the end of it. -/
theorem heard_cons_yield {piece : Text} {written : List Text}
    (h : (channel.requests (written ++ [piece])).flatten ≠ []) :
    heard channel written (.yield piece :: actions) = [] := by
  simp only [heard, refusal_full, if_neg h]

variable (channel) (writing : Writing) (device : Device)

/-- If a full device is asked to take something when a piece is written, what was reported before is
all that is reported. -/
theorem reported_full_of_piece {before after : List (Action Text)} {piece : Text}
    {failure : Option Failure} (hbefore : (channel.requests (Action.values before)).flatten = [])
    (hpiece : (channel.requests (Action.values before ++ [piece])).flatten ≠ []) :
    full.reported channel ⟨before ++ .yield piece :: after, failure⟩ = Action.events before := by
  have happend := heard_append [] (.yield piece :: after) hbefore
  rwa [List.nil_append, heard_cons_yield hpiece, List.append_nil] at happend

end Device

/-- What is reported while tokens are written as lines is what is reported until an error ends
them. -/
theorem events_lines (actions : List (Action BatchLexer.Item)) :
    (lines actions).events = (collect actions).1 := by
  induction actions with
  | nil => rfl
  | cons action actions ih =>
    match action with
    | .report event => exact congrArg (event :: ·) ih
    | .yield (.error error) => rfl
    | .yield (.ok token) => rw [lines, Writing.events_behindPieces, ih, collect]

/-- So it is for a document. -/
theorem events_jsonDocument (actions : List (Action BatchLexer.Item)) :
    (jsonDocument actions).events = (collect actions).1 := by
  simp only [jsonDocument, Writing.events]
  split
  · exact Action.events_map_report _
  · rw [Action.events_append, Action.events_map_report, Action.events_map_yield, List.append_nil]

/-- If no error ends the tokens, everything is reported. -/
theorem events_collect {actions : List (Action BatchLexer.Item)}
    (h : ∀ error, .error error ∉ Action.values actions) :
    (collect actions).1 = Action.events actions := by
  induction actions with
  | nil => rfl
  | cons action actions ih =>
    match action with
    | .report event => exact congrArg (event :: ·) (ih h)
    | .yield (.error error) => exact absurd List.mem_cons_self (h error)
    | .yield (.ok token) => exact ih fun error hmem => h error (List.mem_cons_of_mem _ hmem)

/-- The choice of a lexer is reported, and then what is reported until an error ends the tokens,
whatever the layout is. -/
theorem events_writeTokens {settings : Settings} {registration : Registration}
    (h : settings.registration = .ok registration) (world : World) :
    (writeTokens settings world).events =
      .lexerChosen registration.name :: (collect (tokenActions settings world)).1 := by
  simp only [writeTokens, h, Writing.events_behindReport]
  cases settings.format.getD .text with
  | text => rw [events_lines]
  | json => rw [events_jsonDocument]

end MapHighlight.CommandLine
