import MapHighlight.Event

/-!
# Actions

Work is watched as a list of actions: what it reports and what it yields, in the order in which
both happen. Each of the two can be looked at without the other.
-/

namespace MapHighlight

/-- One thing that work does. -/
inductive Action (α : Type) where
  /-- An event is reported. -/
  | report (event : Event)
  /-- A part of the result is yielded. -/
  | yield (value : α)
deriving DecidableEq, Repr

namespace Action

variable {α β : Type}

/-- The event that an action reports, if it reports one. -/
def event? : Action α → Option Event
  | report event => some event
  | yield _ => none

/-- The part of the result that an action yields, if it yields one. -/
def value? : Action α → Option α
  | report _ => none
  | yield value => some value

/-- The action with another result. -/
def map (f : α → β) : Action α → Action β
  | report event => report event
  | yield value => yield (f value)

/-- The events that actions report. -/
def events (actions : List (Action α)) : List Event :=
  actions.filterMap event?

/-- What actions yield. -/
def values (actions : List (Action α)) : List α :=
  actions.filterMap value?

section Lists

variable (event : Event) (value : α)
  (actions more : List (Action α))

@[simp] theorem events_nil : events ([] : List (Action α)) = [] := rfl

@[simp] theorem values_nil : values ([] : List (Action α)) = [] := rfl

@[simp] theorem events_cons_report : events (report event :: actions) = event :: events actions :=
  rfl

@[simp] theorem values_cons_report : values (report event :: actions) = values actions := rfl

@[simp] theorem events_cons_yield : events (yield value :: actions) = events actions := rfl

@[simp] theorem values_cons_yield : values (yield value :: actions) = value :: values actions :=
  rfl

@[simp] theorem events_append : events (actions ++ more) = events actions ++ events more :=
  List.filterMap_append

@[simp] theorem values_append : values (actions ++ more) = values actions ++ values more :=
  List.filterMap_append

theorem events_map_report (events : List Event) :
    Action.events (events.map report : List (Action α)) = events := by
  induction events with
  | nil => rfl
  | cons event events ih => rw [List.map_cons, events_cons_report, ih]

theorem values_map_report (events : List Event) :
    values (events.map report : List (Action α)) = [] := by
  induction events with
  | nil => rfl
  | cons event events ih => rw [List.map_cons, values_cons_report, ih]

theorem events_map_yield (values : List α) : events (values.map yield) = [] := by
  induction values with
  | nil => rfl
  | cons value values ih => rw [List.map_cons, events_cons_yield, ih]

theorem values_map_yield (values : List α) : Action.values (values.map yield) = values := by
  induction values with
  | nil => rfl
  | cons value values ih => rw [List.map_cons, values_cons_yield, ih]

theorem events_map_map (f : α → β) : events (actions.map (map f)) = events actions := by
  induction actions with
  | nil => rfl
  | cons action actions ih => cases action <;> simp [map, ih]

theorem values_map_map (f : α → β) : values (actions.map (map f)) = (values actions).map f := by
  induction actions with
  | nil => rfl
  | cons action actions ih => cases action <;> simp [map, ih]

end Lists

end Action

end MapHighlight
