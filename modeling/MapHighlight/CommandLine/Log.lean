import MapHighlight.CommandLine.Device

/-!
# The log

What a run of the program reports goes to standard error, one record a line, and is followed there
by the error that ends the run. Which records are written depends on how often the arguments ask for
more of them, unless the surroundings have a say in it; so does how a record is laid out.
-/

namespace MapHighlight

/-- The line in which an event is recorded, unless the surroundings want another one. -/
def Event.line (event : Event) : Text :=
  let level := event.level.name
  '[' :: level ++ List.replicate (5 - level.length) ' ' ++ ' ' :: event.target ++ "] ".toList ++
    event.message ++ ['\n']

namespace CommandLine

/-- How the surroundings have events recorded. -/
structure Logger where
  /-- Which events are recorded, if it is not left to the arguments. -/
  wanted? : Option (Event → Bool) := none
  /-- The line in which an event is recorded. -/
  line : Event → Text := Event.line

/-- Whether a logger records an event if the arguments ask for reports up to some level. -/
def Logger.records (logger : Logger) (watched : Level) (event : Event) : Bool :=
  match logger.wanted? with
  | some wanted => wanted event
  | none => watched.shows event.level

/-- The lines in which a logger records events. -/
def Logger.lines (logger : Logger) (watched : Level) (events : List Event) : Text :=
  (events.filter (logger.records watched)).flatMap logger.line

/-- A run of the program: its outcome and what it has reported. -/
structure Run extends Outcome where
  /-- The level up to which the arguments ask for reports. -/
  watched : Level
  /-- The events that were reported, in order. -/
  events : List Event
deriving DecidableEq, Repr

namespace Run

/-- Apart from its log, a run is its outcome. -/
instance : Coe Run Outcome := ⟨toOutcome⟩

/-- A run that writes to a device through a channel. -/
def ofWriting (watched : Level) (channel : Channel) (device : Device) (writing : Writing) : Run :=
  ⟨device.deliver channel writing, watched, device.reported channel writing⟩

/-- All that is written to standard error: the log, and the error that ends the run behind it. -/
def standardError (logger : Logger) (run : Run) : Text :=
  logger.lines run.watched run.events ++ run.errors

end Run

end CommandLine

end MapHighlight
