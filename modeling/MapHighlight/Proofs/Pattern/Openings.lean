import MapHighlight.Proofs.Pattern.Lookahead

/-!
# Where a match can begin

Which characters a match can begin with is read off a pattern, and so is whether a match can be
empty. At a character that opens no match, a pattern matches at most the empty text; most rules are
ruled out by the first character alone.
-/

namespace MapHighlight

namespace Pattern

/-- Whether a pattern may match the empty text. -/
def canBeEmpty : Pattern → Bool
  | empty => true
  | char _ => false
  | escaped _ => false
  | lineFeed => false
  | one _ => false
  | star _ => true
  | plus _ => false
  | lazyPlus _ => false
  | opt _ => true
  | seq first second => first.canBeEmpty && second.canBeEmpty
  | alt first second => first.canBeEmpty || second.canBeEmpty
  | group pattern => pattern.canBeEmpty
  | capture pattern => pattern.canBeEmpty
  | wordBoundary => true

/-- Whether a match of a pattern may begin with a character. -/
def opensWith (c : Char) : Pattern → Bool
  | empty => false
  | char d => c == d
  | escaped d => c == d
  | lineFeed => c == '\n'
  | one set => set.contains c
  | star set => set.contains c
  | plus set => set.contains c
  | lazyPlus set => set.contains c
  | opt pattern => pattern.opensWith c
  | seq first second => first.opensWith c || (first.canBeEmpty && second.opensWith c)
  | alt first second => first.opensWith c || second.opensWith c
  | group pattern => pattern.opensWith c
  | capture pattern => pattern.opensWith c
  | wordBoundary => false

end Pattern

variable {c : Char} {rest : Text}

/-- A character that is not accepted is not passed. -/
theorem Place.next_eq_nil (accepts : Char → Bool) {place : Place} (hrest : place.rest = c :: rest)
    (haccepts : accepts c = false) : place.next accepts = [] := by
  simp [next, hrest, haccepts]

/-- In front of a character that is not accepted the only run is the empty one. -/
theorem Place.runs_eq_singleton {accepts : Char → Bool} {place : Place}
    (hrest : place.rest = c :: rest) (haccepts : accepts c = false) :
    place.runs accepts = [place] := by
  obtain ⟨before, passed, _⟩ := place
  subst hrest
  simp [runs, runsOnto, haccepts]

namespace Pattern

/-- At a character that opens no match, a pattern leads nowhere else, and not even there unless it
may match the empty text. -/
theorem eq_of_mem_ends {pattern : Pattern} (hopens : pattern.opensWith c = false)
    {place reached : Place} (hrest : place.rest = c :: rest) (h : reached ∈ pattern.ends place) :
    reached = place ∧ pattern.canBeEmpty = true := by
  induction pattern generalizing reached place with
  | empty => exact ⟨List.mem_singleton.mp h, rfl⟩
  | char d => simp [ends, Place.next_eq_nil (· == d) hrest hopens] at h
  | escaped d => simp [ends, Place.next_eq_nil (· == d) hrest hopens] at h
  | lineFeed => simp [ends, Place.next_eq_nil (· == '\n') hrest hopens] at h
  | one set => simp [ends, Place.next_eq_nil set.contains hrest hopens] at h
  | star set =>
    rw [ends, Place.runs_eq_singleton hrest hopens] at h
    exact ⟨List.mem_singleton.mp h, rfl⟩
  | plus set => simp [ends, Place.next_eq_nil set.contains hrest hopens] at h
  | lazyPlus set => simp [ends, Place.next_eq_nil set.contains hrest hopens] at h
  | opt pattern ih =>
    rcases List.mem_append.mp h with hinner | hempty
    · exact ⟨(ih hopens hrest hinner).1, rfl⟩
    · exact ⟨List.mem_singleton.mp hempty, rfl⟩
  | seq first second ihfirst ihsecond =>
    rw [opensWith, Bool.or_eq_false_iff] at hopens
    obtain ⟨middle, hmiddle, hlast⟩ := List.mem_flatMap.mp h
    obtain ⟨rfl, hfirst⟩ := ihfirst hopens.1 hrest hmiddle
    rw [hfirst, Bool.true_and] at hopens
    obtain ⟨rfl, hsecond⟩ := ihsecond hopens.2 hrest hlast
    exact ⟨rfl, by rw [canBeEmpty, hfirst, hsecond, Bool.and_self]⟩
  | alt first second ihfirst ihsecond =>
    rw [opensWith, Bool.or_eq_false_iff] at hopens
    rcases List.mem_append.mp h with hleft | hright
    · obtain ⟨rfl, hfirst⟩ := ihfirst hopens.1 hrest hleft
      exact ⟨rfl, by rw [canBeEmpty, hfirst, Bool.true_or]⟩
    · obtain ⟨rfl, hsecond⟩ := ihsecond hopens.2 hrest hright
      exact ⟨rfl, by rw [canBeEmpty, hsecond, Bool.or_true]⟩
  | group pattern ih => exact ih hopens hrest h
  | capture pattern ih => exact ih hopens hrest h
  | wordBoundary =>
    simp only [ends] at h
    split at h
    · exact ⟨List.mem_singleton.mp h, rfl⟩
    · simp at h

/-- A pattern that matches some text only leads nowhere in front of a character that opens no
match. -/
theorem ends_eq_nil {pattern : Pattern} (hopens : pattern.opensWith c = false)
    (hempty : pattern.canBeEmpty = false) {place : Place} (hrest : place.rest = c :: rest) :
    pattern.ends place = [] := by
  apply List.eq_nil_iff_forall_not_mem.mpr
  intro reached hreached
  have hcan := (eq_of_mem_ends hopens hrest hreached).2
  rw [hempty] at hcan
  contradiction

/-- A pattern that matches some text only does not match in front of a character that opens no
match. -/
theorem matchLength_eq_none {pattern : Pattern} (hopens : pattern.opensWith c = false)
    (hempty : pattern.canBeEmpty = false) (rest : Text) :
    pattern.matchLength (c :: rest) = none := by
  rw [matchLength, ends_eq_nil hopens hempty rfl]
  rfl

end Pattern

end MapHighlight
