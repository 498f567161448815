import MapHighlight.Pattern
import Mathlib.Data.List.TakeWhile

/-!
# Runs of characters

A run of characters may stop anywhere, and the search tries the longest run first. Where nothing can
go on before a character of the run, only the longest run counts.
-/

namespace MapHighlight

namespace Place

variable {accepts : Char → Bool}

/-- The place at the end of the longest run of characters as asked. -/
def pastRun (accepts : Char → Bool) (place : Place) : Place :=
  ⟨(place.rest.takeWhile accepts).getLast?.or place.before,
    place.passed + (place.rest.takeWhile accepts).length, place.rest.dropWhile accepts⟩

private theorem pastRun_cons {c : Char} (haccepts : accepts c = true) (before : Option Char)
    (passed : Nat) (rest : Text) :
    pastRun accepts ⟨before, passed, c :: rest⟩ = pastRun accepts ⟨some c, passed + 1, rest⟩ := by
  have hlength (n : Nat) : passed + (n + 1) = passed + 1 + n := by omega
  simp only [pastRun, List.takeWhile_cons_of_pos haccepts, List.dropWhile_cons_of_pos haccepts,
    List.length_cons, List.getLast?_cons]
  rw [hlength]
  cases (rest.takeWhile accepts).getLast? <;> rfl

private theorem flatMap_runsOnto {step : Place → List Place}
    (hstep : ∀ place c rest, place.rest = c :: rest → accepts c = true → step place = [])
    (rest : Text) (shorter : List Place) (before : Option Char) (passed : Nat) :
    (runsOnto accepts shorter before passed rest).flatMap step =
      step (pastRun accepts ⟨before, passed, rest⟩) ++ shorter.flatMap step := by
  induction rest generalizing shorter before passed with
  | nil => simp [runsOnto, pastRun]
  | cons c rest ih =>
    simp only [runsOnto]
    by_cases haccepts : accepts c = true
    · rw [if_pos haccepts, ih, pastRun_cons haccepts, List.flatMap_cons,
        hstep ⟨before, passed, c :: rest⟩ c rest rfl haccepts, List.nil_append]
    · rw [if_neg haccepts, List.flatMap_cons]
      simp [pastRun, haccepts]

/-- What can only go on where a run cannot be made longer goes on from the longest run alone. -/
theorem flatMap_runs {step : Place → List Place}
    (hstep : ∀ place c rest, place.rest = c :: rest → accepts c = true → step place = [])
    (place : Place) : (place.runs accepts).flatMap step = step (place.pastRun accepts) := by
  rw [runs, flatMap_runsOnto hstep, List.flatMap_nil, List.append_nil]

private theorem head?_runsOnto (rest : Text) (shorter : List Place) (before : Option Char)
    (passed : Nat) : (runsOnto accepts shorter before passed rest).head? =
      some (pastRun accepts ⟨before, passed, rest⟩) := by
  induction rest generalizing shorter before passed with
  | nil => simp [runsOnto, pastRun]
  | cons c rest ih =>
    simp only [runsOnto]
    by_cases haccepts : accepts c = true
    · rw [if_pos haccepts, ih, pastRun_cons haccepts]
    · rw [if_neg haccepts]
      simp [pastRun, haccepts]

/-- The longest of the runs is tried first. -/
theorem head?_runs (place : Place) : (place.runs accepts).head? = some (place.pastRun accepts) :=
  head?_runsOnto place.rest [] place.before place.passed

private theorem runsOnto_append (rest : Text) (shorter shortest : List Place)
    (before : Option Char) (passed : Nat) :
    runsOnto accepts (shorter ++ shortest) before passed rest =
      runsOnto accepts shorter before passed rest ++ shortest := by
  induction rest generalizing shorter before passed with
  | nil => rfl
  | cons c rest ih =>
    simp only [runsOnto]
    split
    · exact ih (⟨before, passed, c :: rest⟩ :: shorter) _ _
    · rfl

/-- The runs that begin with a character are tried before the empty run. -/
theorem runs_cons {c : Char} (haccepts : accepts c = true) (before : Option Char) (passed : Nat)
    (rest : Text) :
    runs accepts ⟨before, passed, c :: rest⟩ =
      runs accepts ⟨some c, passed + 1, rest⟩ ++ [⟨before, passed, c :: rest⟩] := by
  simp only [runs, runsOnto, if_pos haccepts]
  exact runsOnto_append rest [] _ _ _

end Place

/-- A run that must not be empty is matched as far as it goes. -/
theorem Pattern.matchLength_plus {set : CharSet} {c : Char} (hc : set.contains c = true)
    (rest : Text) :
    (plus set).matchLength (c :: rest) = some ((c :: rest).takeWhile set.contains).length := by
  have hends : (plus set).ends (.atStart (c :: rest)) =
      (⟨some c, 1, rest⟩ : Place).runs set.contains := by
    simp [ends, Place.next, Place.atStart, hc]
  rw [matchLength, hends, Place.head?_runs, List.takeWhile_cons_of_pos hc]
  simp [Place.pastRun, Nat.add_comm]

end MapHighlight
