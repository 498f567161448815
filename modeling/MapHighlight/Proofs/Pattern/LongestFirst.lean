import MapHighlight.Proofs.Pattern.Readings
import MapHighlight.Proofs.Pattern.Runs

/-!
# Patterns that match as much as they can

The first end of a search is the match, and it need not be the longest one. For some patterns it is:
runs are tried from the longest on, and what follows a run can often begin only where the run
cannot go on. Such a pattern matches the longest of its readings that a text begins with.
-/

namespace MapHighlight

/-- The longest text with a property that a text begins with. -/
structure Text.IsLongestStart (property : Text → Prop) (text part : Text) : Prop where
  /-- The text begins with it. -/
  isPrefix : part <+: text
  /-- It has the property. -/
  holds : property part
  /-- Nothing longer that the text begins with has the property. -/
  length_le : ∀ other, other <+: text → property other → other.length ≤ part.length

namespace Pattern

/-- Whether the first end of every search is the longest one. -/
def LongestFirst (pattern : Pattern) : Prop :=
  ∀ place best, (pattern.ends place).head? = some best →
    ∀ reached ∈ pattern.ends place, reached.passed ≤ best.passed

/-- Whether a pattern describes single characters. -/
def isCharacter : Pattern → Bool
  | char _ | escaped _ | lineFeed | one _ => true
  | _ => false

variable {pattern first second : Pattern} {set : CharSet}

/-- A pattern for single characters ends in at most one place. -/
theorem ends_of_isCharacter (h : pattern.isCharacter = true) (place : Place) :
    pattern.ends place = [] ∨ ∃ middle, pattern.ends place = [middle] := by
  have hnext (accepts : Char → Bool) :
      place.next accepts = [] ∨ ∃ middle, place.next accepts = [middle] := by
    unfold Place.next
    split
    · exact .inl rfl
    · split
      · exact .inr ⟨_, rfl⟩
      · exact .inl rfl
  cases pattern <;> first | contradiction | exact hnext _

/-- No search goes back. -/
theorem passed_le_of_mem_ends {place reached : Place} (h : reached ∈ pattern.ends place) :
    place.passed ≤ reached.passed := by
  obtain ⟨part, -, -, rfl⟩ := isBehind_of_mem_ends h
  rw [Place.passed_past]
  exact Nat.le_add_right _ _

namespace LongestFirst

/-- A search whose ends are always those of another search is as good. -/
theorem of_ends (hsecond : second.LongestFirst)
    (hends : ∀ place, pattern.ends place = [] ∨
      ∃ middle, pattern.ends place = second.ends middle) : pattern.LongestFirst := by
  intro place best hbest reached hreached
  rcases hends place with hnil | ⟨middle, hmiddle⟩
  · rw [hnil] at hreached
    simp at hreached
  · rw [hmiddle] at hbest hreached
    exact hsecond middle best hbest reached hreached

/-- Where there is at most one end, the first one is the longest. -/
theorem of_isCharacter (h : pattern.isCharacter = true) : pattern.LongestFirst := by
  intro place best hbest reached hreached
  rcases ends_of_isCharacter h place with hnil | ⟨middle, hmiddle⟩
  · rw [hnil] at hreached
    simp at hreached
  · rw [hmiddle] at hbest hreached
    obtain rfl : middle = best := Option.some.inj hbest
    obtain rfl := List.mem_singleton.mp hreached
    exact Nat.le_refl _

/-- The longest run of a set comes first. -/
theorem star (set : CharSet) : (star set).LongestFirst := by
  intro place best hbest reached hreached
  obtain rfl : place.pastRun set.contains = best := by
    simpa only [ends, Place.head?_runs, Option.some.injEq] using hbest
  obtain ⟨run, hrun, ⟨more, hrest⟩, rfl⟩ := Place.mem_runs_iff.mp hreached
  have hlength : run.length ≤ (place.rest.takeWhile set.contains).length := by
    rw [← hrest, List.takeWhile_append_of_pos hrun, List.length_append]
    exact Nat.le_add_right _ _
  exact Nat.add_le_add_left hlength place.passed

/-- A character in front changes nothing. -/
theorem seq_of_isCharacter (hfirst : first.isCharacter = true) (hsecond : second.LongestFirst) :
    (seq first second).LongestFirst := by
  refine of_ends hsecond fun place => ?_
  rcases ends_of_isCharacter hfirst place with hnil | ⟨middle, hmiddle⟩
  · exact .inl (by rw [ends, hnil, List.flatMap_nil])
  · exact .inr ⟨middle, by rw [ends, hmiddle, List.flatMap_singleton]⟩

/-- The longest run of a set that must not be empty comes first. -/
theorem plus (set : CharSet) : (plus set).LongestFirst :=
  have hone : (one set).isCharacter = true := rfl
  of_ends (seq_of_isCharacter hone (star set)) fun place => .inr ⟨place, rfl⟩

section Delimited

variable (hopens : ∀ c, set.contains c = true → second.opensWith c = false)
  (hempty : second.canBeEmpty = false) (hsecond : second.LongestFirst)

include hopens hempty hsecond

/-- What can begin only where a run cannot go on comes behind the longest run. -/
theorem seq_star : (seq (.star set) second).LongestFirst := by
  have hstop (place : Place) (c : Char) (rest : Text) (hrest : place.rest = c :: rest)
      (hc : set.contains c = true) : second.ends place = [] :=
    ends_eq_nil (hopens c hc) hempty hrest
  exact of_ends hsecond fun place =>
    .inr ⟨place.pastRun set.contains, Place.flatMap_runs hstop place⟩

/-- The same behind a run that must not be empty. -/
theorem seq_plus : (seq (.plus set) second).LongestFirst := by
  have hone : (one set).isCharacter = true := rfl
  refine of_ends (seq_of_isCharacter hone (seq_star hopens hempty hsecond)) fun place => .inr ?_
  exact ⟨place, by simp only [ends, List.flatMap_assoc]⟩

end Delimited

/-- Something that may be missing is tried before it is left out. -/
theorem opt (hpattern : pattern.LongestFirst) : (opt pattern).LongestFirst := by
  intro place best hbest reached hreached
  rw [ends, List.head?_append] at hbest
  cases hhead : (pattern.ends place).head? with
  | none =>
    rw [List.head?_eq_none_iff] at hhead
    obtain rfl : place = best := by simpa [hhead] using hbest
    obtain rfl : reached = place := by simpa [ends, hhead] using hreached
    exact Nat.le_refl _
  | some inner =>
    obtain rfl : inner = best := by simpa [hhead] using hbest
    rcases List.mem_append.mp hreached with hinner | hplace
    · exact hpattern place inner hhead reached hinner
    · obtain rfl := List.mem_singleton.mp hplace
      exact passed_le_of_mem_ends (List.mem_of_head? hhead)

/-- A character that may be missing changes nothing if what follows cannot begin with it. -/
theorem seq_opt_of_isCharacter (hfirst : first.isCharacter = true)
    (hopens : ∀ c, first.opensWith c = true → second.opensWith c = false)
    (hempty : second.canBeEmpty = false) (hsecond : second.LongestFirst) :
    (seq (.opt first) second).LongestFirst := by
  have hcharacter : first.canBeEmpty = false := by
    cases first <;> first | contradiction | rfl
  refine of_ends hsecond fun place => .inr ?_
  have hends : (seq (.opt first) second).ends place =
      (first.ends place).flatMap second.ends ++ second.ends place := by
    simp [ends]
  rcases ends_of_isCharacter hfirst place with hnil | ⟨middle, hmiddle⟩
  · exact ⟨place, by rw [hends, hnil, List.flatMap_nil, List.nil_append]⟩
  · obtain ⟨c, rest, hrest, hc⟩ := exists_opensWith_of_mem_ends hcharacter
      (hmiddle ▸ List.mem_singleton_self middle)
    have hskip : second.ends place = [] := ends_eq_nil (hopens c hc) hempty hrest
    exact ⟨middle, by rw [hends, hmiddle, hskip, List.flatMap_singleton, List.append_nil]⟩

/-- Something that may follow goes behind the longest first part, if it cannot begin inside one. -/
theorem seq_opt (hfirst : first.LongestFirst) (hsecond : second.LongestFirst)
    (hopens : ∀ part, first.Reads part → ∀ c ∈ part, second.opensWith c = false) :
    (seq first (.opt second)).LongestFirst := by
  intro place best hbest reached hreached
  obtain ⟨middle, hmiddle, hlast⟩ := List.mem_flatMap.mp hreached
  obtain ⟨longest, others, hends⟩ := List.exists_cons_of_ne_nil (List.ne_nil_of_mem hmiddle)
  have hhead : (first.ends place).head? = some longest := by rw [hends, List.head?_cons]
  have hle : middle.passed ≤ longest.passed := hfirst place longest hhead middle hmiddle
  have hbest : ((Pattern.opt second).ends longest).head? = some best := by
    have hne : (Pattern.opt second).ends longest ≠ [] := by simp [ends]
    rwa [ends, hends, List.flatMap_cons, List.head?_append_of_ne_nil _ hne] at hbest
  obtain ⟨part, hpart, ⟨more, hmore⟩, hlongest⟩ := isBehind_of_mem_ends (List.mem_of_head? hhead)
  obtain ⟨shorter, -, hshorter, rfl⟩ := isBehind_of_mem_ends hmiddle
  obtain ⟨tail, rfl⟩ : shorter <+: part := by
    refine List.prefix_of_prefix_length_le hshorter ⟨more, hmore⟩ ?_
    rw [hlongest, Place.passed_past, Place.passed_past] at hle
    omega
  cases tail with
  | nil =>
    rw [List.append_nil] at hlongest
    exact hsecond.opt longest best hbest reached (hlongest ▸ hlast)
  | cons c tail =>
    -- Behind a shorter first part the text goes on with a character of the longest one.
    have hrest : (place.past shorter).rest = c :: (tail ++ more) :=
      Place.rest_past (by rw [← hmore, List.append_assoc, List.cons_append])
    have hopt : (Pattern.opt second).opensWith c = false := hopens _ hpart c (by simp)
    obtain ⟨rfl, -⟩ := eq_of_mem_ends hopt hrest hlast
    exact hle.trans (passed_le_of_mem_ends (List.mem_of_head? hbest))

/-- A choice is as good as its sides if the left side, where it leads anywhere, leads as far as the
right one. -/
theorem alt (hfirst : first.LongestFirst) (hsecond : second.LongestFirst)
    (hchoice : ∀ place best, (first.ends place).head? = some best →
      ∀ reached ∈ second.ends place, reached.passed ≤ best.passed) :
    (alt first second).LongestFirst := by
  intro place best hbest reached hreached
  rw [ends, List.head?_append] at hbest
  cases hhead : (first.ends place).head? with
  | none =>
    rw [hhead, Option.none_or] at hbest
    rw [List.head?_eq_none_iff] at hhead
    rw [ends, hhead, List.nil_append] at hreached
    exact hsecond place best hbest reached hreached
  | some inner =>
    obtain rfl : inner = best := by simpa [hhead] using hbest
    rcases List.mem_append.mp hreached with hleft | hright
    · exact hfirst place inner hhead reached hleft
    · exact hchoice place inner hhead reached hright

/-- Of its readings that a text begins with, such a pattern matches the longest. -/
theorem exists_isLongestStart (hpattern : pattern.LongestFirst)
    (hfree : pattern.asksBoundary = false) {text : Text} {n : Nat}
    (h : pattern.matchLength text = some n) :
    Text.IsLongestStart pattern.Reads text (text.take n) ∧ (text.take n).length = n := by
  obtain ⟨best, hbest, rfl⟩ := Option.map_eq_some_iff.mp h
  have hlength : (text.take best.passed).length = best.passed :=
    List.length_take_of_le (le_length_of_matchLength h)
  refine ⟨⟨List.take_prefix _ _, reads_take_of_matchLength h, fun other hother hreads => ?_⟩,
    hlength⟩
  have hmem : (Place.atStart text).past other ∈ pattern.ends (.atStart text) :=
    mem_ends_of_isBehind hfree ⟨other, hreads, hother, rfl⟩
  have hpassed := hpattern _ best hbest _ hmem
  rw [Place.passed_past] at hpassed
  rw [hlength]
  exact (Nat.le_add_left _ _).trans hpassed

/-- Where nothing follows one of its readings, such a pattern matches all of it. -/
theorem matchLength_of_reads (hpattern : pattern.LongestFirst)
    (hfree : pattern.asksBoundary = false) {text : Text} (hreads : pattern.Reads text) :
    pattern.matchLength text = some text.length := by
  obtain ⟨n, hn⟩ := exists_matchLength_of_reads hfree hreads (List.prefix_refl text)
  obtain ⟨hlongest, hlength⟩ := hpattern.exists_isLongestStart hfree hn
  have hle := hlongest.length_le text (List.prefix_refl text) hreads
  rw [hlength] at hle
  rw [hn, Nat.le_antisymm (le_length_of_matchLength hn) hle]

end LongestFirst

end Pattern

end MapHighlight
