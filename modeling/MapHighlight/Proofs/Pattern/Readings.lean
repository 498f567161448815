import MapHighlight.Proofs.Pattern.Openings
import MapHighlight.Proofs.Pattern.WholeWords

/-!
# The texts that a pattern describes

A pattern describes texts without regard to any search: these are its readings. A search ends behind
readings only, and unless the pattern asks for word boundaries it can end behind each of them. So
whether a pattern matches, and what else it could have matched, is known from its readings; only
which of them comes first depends on the order of the search.
-/

namespace MapHighlight

namespace Pattern

/-- Whether a text is one that the pattern describes. A word boundary describes the empty text; what
it asks of the text around it plays no part here. -/
def Reads : Pattern → Text → Prop
  | empty, text => text = []
  | char c, text => text = [c]
  | escaped c, text => text = [c]
  | lineFeed, text => text = ['\n']
  | one set, text => ∃ c, set.contains c = true ∧ text = [c]
  | star set, text => ∀ c ∈ text, set.contains c = true
  | plus set, text => text ≠ [] ∧ ∀ c ∈ text, set.contains c = true
  | lazyPlus set, text => text ≠ [] ∧ ∀ c ∈ text, set.contains c = true
  | opt pattern, text => text = [] ∨ pattern.Reads text
  | seq first second, text =>
    ∃ left right, text = left ++ right ∧ first.Reads left ∧ second.Reads right
  | alt first second, text => first.Reads text ∨ second.Reads text
  | group pattern, text => pattern.Reads text
  | capture pattern, text => pattern.Reads text
  | wordBoundary, text => text = []

/-- Whether a pattern asks for a word boundary in any of its parts. -/
def asksBoundary : Pattern → Bool
  | empty | char _ | escaped _ | lineFeed | one _ | star _ | plus _ | lazyPlus _ => false
  | opt pattern => pattern.asksBoundary
  | seq first second => first.asksBoundary || second.asksBoundary
  | alt first second => first.asksBoundary || second.asksBoundary
  | group pattern => pattern.asksBoundary
  | capture pattern => pattern.asksBoundary
  | wordBoundary => true

/-- A pattern that describes the empty text may match it. -/
theorem canBeEmpty_of_reads {pattern : Pattern} (h : pattern.Reads []) :
    pattern.canBeEmpty = true := by
  induction pattern with
  | empty | star | opt | wordBoundary => rfl
  | char | escaped | lineFeed | one | plus | lazyPlus => simp [Reads] at h
  | seq first second ihfirst ihsecond =>
    obtain ⟨left, right, happend, hleft, hright⟩ := h
    obtain ⟨rfl, rfl⟩ := List.append_eq_nil_iff.mp happend.symm
    simp [canBeEmpty, ihfirst hleft, ihsecond hright]
  | alt first second ihfirst ihsecond =>
    rcases h with hfirst | hsecond
    · simp [canBeEmpty, ihfirst hfirst]
    · simp [canBeEmpty, ihsecond hsecond]
  | group pattern ih => exact ih h
  | capture pattern ih => exact ih h

end Pattern

namespace Place

variable {accepts : Char → Bool} {place reached : Place}

@[simp] theorem past_nil (place : Place) : place.past [] = place := by
  simp [past]

/-- Passing two texts is passing one after the other. -/
theorem past_append (place : Place) (left right : Text) :
    place.past (left ++ right) = (place.past left).past right := by
  simp [past, List.getLast?_append, Option.or_assoc, Nat.add_assoc]

theorem passed_past (place : Place) (text : Text) :
    (place.past text).passed = place.passed + text.length := rfl

theorem rest_past {text more : Text} (h : place.rest = text ++ more) :
    (place.past text).rest = more := by
  simp [past, h]

/-- Whether a place lies behind a text with a property that begins at another place. -/
def IsBehind (property : Text → Prop) (place reached : Place) : Prop :=
  ∃ part, property part ∧ part <+: place.rest ∧ reached = place.past part

/-- A place behind two texts in a row is behind the second from a place behind the first. -/
theorem isBehind_append_iff {first second : Text → Prop} :
    IsBehind (fun text => ∃ left right, text = left ++ right ∧ first left ∧ second right)
        place reached ↔
      ∃ middle, IsBehind first place middle ∧ IsBehind second middle reached := by
  constructor
  · rintro ⟨_, ⟨left, right, rfl, hleft, hright⟩, ⟨more, hrest⟩, rfl⟩
    rw [List.append_assoc] at hrest
    exact ⟨place.past left, ⟨left, hleft, ⟨_, hrest⟩, rfl⟩,
      ⟨right, hright, ⟨more, (rest_past hrest.symm).symm⟩, past_append place left right⟩⟩
  · rintro ⟨_, ⟨left, hleft, ⟨more, hrest⟩, rfl⟩, right, hright, hprefix, rfl⟩
    refine ⟨left ++ right, ⟨left, right, rfl, hleft, hright⟩, ?_, (past_append ..).symm⟩
    rw [rest_past hrest.symm] at hprefix
    rwa [← hrest, List.prefix_append_right_inj]

/-- The next place is behind one character as asked. -/
theorem mem_next_iff :
    reached ∈ place.next accepts ↔
      IsBehind (fun text => ∃ c, accepts c = true ∧ text = [c]) place reached := by
  obtain ⟨before, passed, rest⟩ := place
  cases rest with
  | nil => simp [next, IsBehind]
  | cons d rest =>
    constructor
    · intro h
      simp only [next] at h
      split at h
      · rename_i haccepts
        exact ⟨[d], ⟨d, haccepts, rfl⟩, ⟨rest, rfl⟩, List.mem_singleton.mp h⟩
      · simp at h
    · rintro ⟨_, ⟨c, haccepts, rfl⟩, hprefix, rfl⟩
      obtain rfl : c = d := (List.cons_prefix_cons.mp hprefix).1
      simp [next, past, haccepts]

private theorem mem_runsOnto_iff {rest : Text} {shorter : List Place} {before : Option Char}
    {passed : Nat} :
    reached ∈ runsOnto accepts shorter before passed rest ↔
      reached ∈ shorter ∨
        IsBehind (fun text => ∀ c ∈ text, accepts c = true) ⟨before, passed, rest⟩ reached := by
  induction rest generalizing shorter before passed with
  | nil => simp [runsOnto, IsBehind, or_comm]
  | cons d rest ih =>
    simp only [runsOnto]
    by_cases haccepts : accepts d = true
    · have hstart (text : Text) : (⟨before, passed, d :: rest⟩ : Place).past (d :: text) =
          (⟨some d, passed + 1, rest⟩ : Place).past text :=
        past_append _ [d] text
      rw [if_pos haccepts, ih, List.mem_cons]
      constructor
      · rintro ((rfl | hshorter) | ⟨run, hrun, hprefix, rfl⟩)
        · exact .inr ⟨[], by simp, List.nil_prefix, (past_nil _).symm⟩
        · exact .inl hshorter
        · refine .inr ⟨d :: run, ?_, List.cons_prefix_cons.mpr ⟨rfl, hprefix⟩, (hstart run).symm⟩
          exact List.forall_mem_cons.mpr ⟨haccepts, hrun⟩
      · rintro (hshorter | ⟨run, hrun, hprefix, rfl⟩)
        · exact .inl (.inr hshorter)
        · cases run with
          | nil => exact .inl (.inl (past_nil _))
          | cons c run =>
            obtain ⟨rfl, hinner⟩ := List.cons_prefix_cons.mp hprefix
            exact .inr ⟨run, (List.forall_mem_cons.mp hrun).2, hinner, hstart run⟩
    · rw [if_neg haccepts, List.mem_cons, or_comm]
      refine or_congr_right ⟨?_, ?_⟩
      · rintro rfl
        exact ⟨[], by simp, List.nil_prefix, (past_nil _).symm⟩
      · rintro ⟨run, hrun, hprefix, rfl⟩
        cases run with
        | nil => exact past_nil _
        | cons c run =>
          obtain ⟨rfl, -⟩ := List.cons_prefix_cons.mp hprefix
          exact absurd (hrun c List.mem_cons_self) haccepts

/-- The runs from a place lead behind every text of characters as asked. -/
theorem mem_runs_iff :
    reached ∈ place.runs accepts ↔
      IsBehind (fun text => ∀ c ∈ text, accepts c = true) place reached := by
  rw [runs, mem_runsOnto_iff]
  simp

/-- A run that must not be empty is a character and a run. -/
theorem isBehind_nonempty_iff :
    IsBehind (fun text => text ≠ [] ∧ ∀ c ∈ text, accepts c = true) place reached ↔
      ∃ middle ∈ place.next accepts, reached ∈ middle.runs accepts := by
  simp only [mem_next_iff, mem_runs_iff, ← isBehind_append_iff]
  have hiff (text : Text) : (text ≠ [] ∧ ∀ c ∈ text, accepts c = true) ↔
      ∃ left right, text = left ++ right ∧ (∃ c, accepts c = true ∧ left = [c]) ∧
        ∀ c ∈ right, accepts c = true := by
    constructor
    · rintro ⟨hne, hall⟩
      obtain ⟨c, text, rfl⟩ := List.exists_cons_of_ne_nil hne
      rw [List.forall_mem_cons] at hall
      exact ⟨[c], text, rfl, ⟨c, hall.1, rfl⟩, hall.2⟩
    · rintro ⟨_, right, rfl, ⟨c, hc, rfl⟩, hright⟩
      exact ⟨by simp, List.forall_mem_cons.mpr ⟨hc, hright⟩⟩
  simp only [hiff]

end Place

namespace Pattern

variable {pattern : Pattern} {place reached : Place} {text : Text}

/-- A search ends behind readings only. -/
theorem isBehind_of_mem_ends (h : reached ∈ pattern.ends place) :
    Place.IsBehind pattern.Reads place reached := by
  have hhere {place : Place} : Place.IsBehind (· = []) place place :=
    ⟨[], rfl, List.nil_prefix, (Place.past_nil place).symm⟩
  have hnext {c : Char} {place reached : Place} (h : reached ∈ place.next (· == c)) :
      Place.IsBehind (· = [c]) place reached := by
    simpa using Place.mem_next_iff.mp h
  induction pattern generalizing place reached with
  | empty => exact List.mem_singleton.mp h ▸ hhere
  | char c => exact hnext h
  | escaped c => exact hnext h
  | lineFeed => exact hnext h
  | one set => exact Place.mem_next_iff.mp h
  | star set => exact Place.mem_runs_iff.mp h
  | plus set => exact Place.isBehind_nonempty_iff.mpr (List.mem_flatMap.mp h)
  | lazyPlus set =>
    obtain ⟨middle, hmiddle, hlast⟩ := List.mem_flatMap.mp h
    exact Place.isBehind_nonempty_iff.mpr ⟨middle, hmiddle, List.mem_reverse.mp hlast⟩
  | opt pattern ih =>
    rcases List.mem_append.mp h with hinner | hempty
    · obtain ⟨part, hreads, hpart⟩ := ih hinner
      exact ⟨part, .inr hreads, hpart⟩
    · obtain rfl := List.mem_singleton.mp hempty
      exact ⟨[], .inl rfl, List.nil_prefix, (Place.past_nil _).symm⟩
  | seq first second ihfirst ihsecond =>
    obtain ⟨middle, hmiddle, hlast⟩ := List.mem_flatMap.mp h
    exact Place.isBehind_append_iff.mpr ⟨middle, ihfirst hmiddle, ihsecond hlast⟩
  | alt first second ihfirst ihsecond =>
    rcases List.mem_append.mp h with hleft | hright
    · obtain ⟨part, hreads, hpart⟩ := ihfirst hleft
      exact ⟨part, .inl hreads, hpart⟩
    · obtain ⟨part, hreads, hpart⟩ := ihsecond hright
      exact ⟨part, .inr hreads, hpart⟩
  | group pattern ih => exact ih h
  | capture pattern ih => exact ih h
  | wordBoundary =>
    simp only [ends] at h
    split at h
    · exact List.mem_singleton.mp h ▸ hhere
    · simp at h

/-- A search can end behind every reading, unless the pattern asks for word boundaries. -/
theorem mem_ends_of_isBehind (hfree : pattern.asksBoundary = false)
    (h : Place.IsBehind pattern.Reads place reached) : reached ∈ pattern.ends place := by
  have hnext {c : Char} {place reached : Place} (h : Place.IsBehind (· = [c]) place reached) :
      reached ∈ place.next (· == c) :=
    Place.mem_next_iff.mpr (by simpa using h)
  induction pattern generalizing place reached with
  | empty =>
    obtain ⟨_, rfl, -, rfl⟩ := h
    simp [ends]
  | char c => exact hnext h
  | escaped c => exact hnext h
  | lineFeed => exact hnext h
  | one set => exact Place.mem_next_iff.mpr h
  | star set => exact Place.mem_runs_iff.mpr h
  | plus set => exact List.mem_flatMap.mpr (Place.isBehind_nonempty_iff.mp h)
  | lazyPlus set =>
    obtain ⟨middle, hmiddle, hlast⟩ := Place.isBehind_nonempty_iff.mp h
    exact List.mem_flatMap.mpr ⟨middle, hmiddle, List.mem_reverse.mpr hlast⟩
  | opt pattern ih =>
    obtain ⟨part, rfl | hreads, hpart, rfl⟩ := h
    · simp [ends]
    · exact List.mem_append_left _ (ih hfree ⟨part, hreads, hpart, rfl⟩)
  | seq first second ihfirst ihsecond =>
    rw [asksBoundary, Bool.or_eq_false_iff] at hfree
    obtain ⟨middle, hmiddle, hlast⟩ := Place.isBehind_append_iff.mp h
    exact List.mem_flatMap.mpr ⟨middle, ihfirst hfree.1 hmiddle, ihsecond hfree.2 hlast⟩
  | alt first second ihfirst ihsecond =>
    rw [asksBoundary, Bool.or_eq_false_iff] at hfree
    obtain ⟨part, hleft | hright, hpart⟩ := h
    · exact List.mem_append_left _ (ihfirst hfree.1 ⟨part, hleft, hpart⟩)
    · exact List.mem_append_right _ (ihsecond hfree.2 ⟨part, hright, hpart⟩)
  | group pattern ih => exact ih hfree h
  | capture pattern ih => exact ih hfree h
  | wordBoundary => simp [asksBoundary] at hfree

/-- A search for some text only leads on from a character that opens a match. -/
theorem exists_opensWith_of_mem_ends (hempty : pattern.canBeEmpty = false)
    (h : reached ∈ pattern.ends place) :
    ∃ c rest, place.rest = c :: rest ∧ pattern.opensWith c = true := by
  obtain ⟨part, hreads, hpart, -⟩ := isBehind_of_mem_ends h
  cases hrest : place.rest with
  | nil =>
    rw [hrest, List.prefix_nil] at hpart
    rw [canBeEmpty_of_reads (hpart ▸ hreads)] at hempty
    contradiction
  | cons c rest =>
    refine ⟨c, rest, rfl, ?_⟩
    by_contra hopens
    rw [Bool.not_eq_true] at hopens
    simp [ends_eq_nil hopens hempty hrest] at h

/-- What is matched is a reading. -/
theorem reads_take_of_matchLength {n : Nat} (h : pattern.matchLength text = some n) :
    pattern.Reads (text.take n) := by
  obtain ⟨reached, hhead, rfl⟩ := Option.map_eq_some_iff.mp h
  obtain ⟨part, hreads, hpart, rfl⟩ := isBehind_of_mem_ends (List.mem_of_head? hhead)
  have hpart : part <+: text := hpart
  have hpassed : ((Place.atStart text).past part).passed = part.length := Nat.zero_add _
  rwa [hpassed, ← List.prefix_iff_eq_take.mp hpart]

/-- A pattern that stays within its line describes no text with a line feed. -/
theorem lineFeed_not_mem_of_reads (hstay : pattern.staysInLine = true)
    (h : pattern.Reads text) : '\n' ∉ text := by
  have hchar {c : Char} {text : Text} (hc : (c != '\n') = true) (h : text = [c]) :
      '\n' ∉ text := by
    rw [h, List.mem_singleton]
    exact fun hsame => bne_iff_ne.mp hc hsame.symm
  have hset {set : CharSet} {text : Text} (hset : (!set.contains '\n') = true)
      (h : ∀ c ∈ text, set.contains c = true) : '\n' ∉ text := by
    intro hmem
    simp [h _ hmem] at hset
  induction pattern generalizing text with
  | empty | wordBoundary =>
    obtain rfl : text = [] := h
    exact List.not_mem_nil
  | char c | escaped c => exact hchar hstay h
  | lineFeed => contradiction
  | one set =>
    obtain ⟨c, hc, rfl⟩ := h
    exact hset hstay (List.forall_mem_singleton.mpr hc)
  | star set => exact hset hstay h
  | plus set | lazyPlus set => exact hset hstay h.2
  | opt pattern ih =>
    rcases h with rfl | hreads
    · exact List.not_mem_nil
    · exact ih hstay hreads
  | seq first second ihfirst ihsecond =>
    rw [staysInLine, Bool.and_eq_true] at hstay
    obtain ⟨left, right, rfl, hleft, hright⟩ := h
    rw [List.mem_append, not_or]
    exact ⟨ihfirst hstay.1 hleft, ihsecond hstay.2 hright⟩
  | alt first second ihfirst ihsecond =>
    rw [staysInLine, Bool.and_eq_true] at hstay
    exact h.elim (ihfirst hstay.1) (ihsecond hstay.2)
  | group pattern ih | capture pattern ih => exact ih hstay h

/-- A pattern that describes no empty text does not match one. -/
theorem matchLength_ne_zero (hempty : pattern.canBeEmpty = false) (text : Text) :
    pattern.matchLength text ≠ some 0 := by
  intro h
  have hreads := reads_take_of_matchLength h
  rw [List.take_zero] at hreads
  rw [canBeEmpty_of_reads hreads] at hempty
  contradiction

/-- Where a text begins with a reading, the pattern matches. -/
theorem exists_matchLength_of_reads (hfree : pattern.asksBoundary = false) {part : Text}
    (hreads : pattern.Reads part) (hpart : part <+: text) : ∃ n, pattern.matchLength text = some n := by
  have hmem : (Place.atStart text).past part ∈ pattern.ends (.atStart text) :=
    mem_ends_of_isBehind hfree ⟨part, hreads, hpart, rfl⟩
  obtain ⟨best, hbest⟩ := Option.isSome_iff_exists.mp
    (List.isSome_head?.mpr (List.ne_nil_of_mem hmem))
  exact ⟨best.passed, Option.map_eq_some_iff.mpr ⟨best, hbest, rfl⟩⟩

/-- A pattern does not match where a text begins with none of its readings. -/
theorem matchLength_eq_none_iff (hfree : pattern.asksBoundary = false) :
    pattern.matchLength text = none ↔ ∀ part, part <+: text → ¬ pattern.Reads part := by
  constructor
  · intro hnone part hpart hreads
    obtain ⟨n, hsome⟩ := exists_matchLength_of_reads hfree hreads hpart
    rw [hnone] at hsome
    contradiction
  · intro hreads
    cases h : pattern.matchLength text with
    | none => rfl
    | some n => exact absurd (reads_take_of_matchLength h) (hreads _ (List.take_prefix n text))

end Pattern

end MapHighlight
