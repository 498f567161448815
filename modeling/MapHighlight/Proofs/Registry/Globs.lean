import MapHighlight.Registry
import Mathlib.Data.List.Forall2

/-!
# What globs match

A glob fits a text that can be cut into pieces, one for each of its characters. A search that goes
back to the last star alone finds out whether that is so: what lies between the last star and the
place of the search takes one character of the text for each of its own, so whatever an earlier star
could still make possible, the last one makes possible as well.
-/

namespace MapHighlight

namespace Glob

/-- Whether a character of a glob may stand for a piece of a text: a star stands for any piece, a
question mark for any one character, and every other character for itself. -/
def StandsFor (g : Char) (piece : Text) : Prop :=
  if g = '*' then True else if g = '?' then piece.length = 1 else piece = [g]

/-- A glob fits a text that can be cut into consecutive pieces, one for each character of the
glob. -/
def Fits (glob text : Text) : Prop :=
  ∃ pieces, List.Forall₂ StandsFor glob pieces ∧ pieces.flatten = text

variable {glob text segment : Text} {g c : Char}

theorem fits_nil_left : Fits [] text ↔ text = [] := by
  constructor
  · rintro ⟨pieces, hpieces, rfl⟩
    cases hpieces
    rfl
  · rintro rfl
    exact ⟨[], .nil, rfl⟩

theorem fits_cons : Fits (g :: glob) text ↔
    ∃ piece rest, StandsFor g piece ∧ Fits glob rest ∧ piece ++ rest = text := by
  constructor
  · rintro ⟨pieces, hpieces, rfl⟩
    cases hpieces with
    | cons hpiece hrest => exact ⟨_, _, hpiece, ⟨_, hrest, rfl⟩, rfl⟩
  · rintro ⟨piece, rest, hpiece, ⟨pieces, hpieces, rfl⟩, rfl⟩
    exact ⟨piece :: pieces, .cons hpiece hpieces, rfl⟩

/-- What follows a star fits some end of the text. -/
theorem fits_star : Fits ('*' :: glob) text ↔ ∃ n, Fits glob (text.drop n) := by
  rw [fits_cons]
  constructor
  · rintro ⟨piece, rest, -, hrest, rfl⟩
    exact ⟨piece.length, by rwa [List.drop_left]⟩
  · rintro ⟨n, hrest⟩
    have hpiece : StandsFor '*' (text.take n) := by simp [StandsFor]
    exact ⟨text.take n, text.drop n, hpiece, hrest, List.take_append_drop n text⟩

/-- A character of a glob other than a star stands for one character. -/
theorem standsFor_iff (hg : g ≠ '*') {piece : Text} :
    StandsFor g piece ↔ ∃ c, piece = [c] ∧ (g = '?' ∨ g = c) := by
  rw [StandsFor, if_neg hg]
  split
  · rename_i hany
    simp [List.length_eq_one_iff, hany]
  · rename_i hone
    simp [hone]

theorem fits_cons_cons (hg : g ≠ '*') :
    Fits (g :: glob) (c :: text) ↔ (g = '?' ∨ g = c) ∧ Fits glob text := by
  rw [fits_cons]
  constructor
  · rintro ⟨piece, rest, hpiece, hrest, happend⟩
    obtain ⟨d, rfl, hd⟩ := (standsFor_iff hg).mp hpiece
    obtain ⟨rfl, rfl⟩ := List.cons.inj happend
    exact ⟨hd, hrest⟩
  · rintro ⟨hc, hrest⟩
    exact ⟨[c], text, (standsFor_iff hg).mpr ⟨c, rfl, hc⟩, hrest, rfl⟩

theorem not_fits_cons_nil (hg : g ≠ '*') : ¬ Fits (g :: glob) [] := by
  rw [fits_cons]
  rintro ⟨piece, rest, hpiece, -, happend⟩
  obtain ⟨d, rfl, -⟩ := (standsFor_iff hg).mp hpiece
  contradiction

/-- Only stars can stand for nothing. -/
theorem fits_nil_right : Fits glob [] ↔ ∀ g ∈ glob, g = '*' := by
  induction glob with
  | nil => simp [fits_nil_left]
  | cons g glob ih =>
    by_cases hg : g = '*'
    · subst hg
      simp [fits_star, ih]
    · simp [not_fits_cons_nil hg, hg]

/-- A glob without stars and question marks fits itself alone. -/
theorem fits_of_plain (hstar : '*' ∉ glob) (hany : '?' ∉ glob) : Fits glob text ↔ text = glob := by
  induction glob generalizing text with
  | nil => exact fits_nil_left
  | cons g glob ih =>
    rw [List.mem_cons, not_or] at hstar hany
    have hg : g ≠ '*' := Ne.symm hstar.1
    cases text with
    | nil => simp [not_fits_cons_nil hg]
    | cons c text =>
      rw [fits_cons_cons hg, ih hstar.2 hany.2, List.cons.injEq, or_iff_right (Ne.symm hany.1),
        eq_comm]

/-- A star in front of a plain ending fits the texts with that ending. -/
theorem fits_star_of_plain (hstar : '*' ∉ glob) (hany : '?' ∉ glob) :
    Fits ('*' :: glob) text ↔ glob <:+ text := by
  simp only [fits_star, fits_of_plain hstar hany]
  constructor
  · rintro ⟨n, hn⟩
    exact hn ▸ List.drop_suffix n text
  · rintro ⟨start, rfl⟩
    exact ⟨start.length, List.drop_left⟩

/-- Without a star, the start of a glob takes one character for each of its own. -/
theorem fits_drop_of_append (hsegment : '*' ∉ segment) (h : Fits (segment ++ glob) text) :
    Fits glob (text.drop segment.length) := by
  induction segment generalizing text with
  | nil => exact h
  | cons g segment ih =>
    rw [List.mem_cons, not_or] at hsegment
    have hg : g ≠ '*' := Ne.symm hsegment.1
    cases text with
    | nil => exact absurd h (not_fits_cons_nil hg)
    | cons c text =>
      obtain ⟨-, hrest⟩ := (fits_cons_cons hg).mp h
      exact ih hsegment.2 hrest

namespace Search

variable {search next : Search} {outcome : Outcome}

/-- What keeps a search inside the glob and the text, and ties its place to the last star. -/
structure IsPlaced (glob text : Text) (search : Search) : Prop where
  /-- No more of the glob is used than there is. -/
  used_le : search.used ≤ glob.length
  /-- No more of the text is taken than there is. -/
  taken_le : search.taken ≤ text.length
  /-- Between the last star and the place of the search there is no other star, and as much of the
  text as of the glob. -/
  exists_segment : ∀ star ∈ search.star, star.before < glob.length ∧
    ∃ segment, '*' ∉ segment ∧ glob.drop (star.before + 1) = segment ++ glob.drop search.used ∧
      search.taken = star.upTo + segment.length

/-- Whether a search can still find that the glob fits: from its place on, or with a longer run for
the last star. -/
def CanFit (glob text : Text) (search : Search) : Prop :=
  Fits (glob.drop search.used) (text.drop search.taken) ∨
    ∃ star ∈ search.star, ∃ n > star.upTo, Fits (glob.drop (star.before + 1)) (text.drop n)

/-- What a move keeps when the search goes on. -/
structure Advances (glob text : Text) (search next : Search) : Prop where
  /-- The search stays inside the glob and the text. -/
  isPlaced : next.IsPlaced glob text
  /-- Nothing that the search can find is lost, and nothing comes in. -/
  canFit_iff : next.CanFit glob text ↔ search.CanFit glob text

/-- A search comes to an outcome with a number of moves. -/
inductive EndsAfter (glob text : Text) : Nat → Search → Outcome → Prop where
  /-- The next move is the last one. -/
  | stop {search : Search} {outcome : Outcome} :
      search.move glob text = .stop outcome → EndsAfter glob text 1 search outcome
  /-- The next move leads to a search that ends. -/
  | goOn {moves : Nat} {search next : Search} {outcome : Outcome} :
      search.move glob text = .goOn next → EndsAfter glob text moves next outcome →
        EndsAfter glob text (moves + 1) search outcome

theorem isPlaced_start (glob text : Text) : start.IsPlaced glob text :=
  ⟨Nat.zero_le _, Nat.zero_le _, by simp [start]⟩

theorem canFit_start (glob text : Text) : start.CanFit glob text ↔ Fits glob text := by
  simp [CanFit, start]

theorem IsPlaced.isOrdered (hplaced : search.IsPlaced glob text) : search.IsOrdered := by
  intro star hstar
  obtain ⟨-, segment, -, -, htaken⟩ := hplaced.exists_segment star hstar
  exact htaken ▸ Nat.le_add_right _ _

/-- Whatever the search can still find, what is left of the glob fits some end of what is left of
the text. For a longer run of the last star this is so because no star comes between. -/
theorem IsPlaced.exists_fits (hplaced : search.IsPlaced glob text) (h : search.CanFit glob text) :
    ∃ n ≥ search.taken, Fits (glob.drop search.used) (text.drop n) := by
  rcases h with hhere | ⟨star, hstar, n, hn, hlonger⟩
  · exact ⟨search.taken, Nat.le_refl _, hhere⟩
  · obtain ⟨-, segment, hsegment, hglob, htaken⟩ := hplaced.exists_segment star hstar
    rw [hglob] at hlonger
    have hfits := fits_drop_of_append hsegment hlonger
    rw [List.drop_drop] at hfits
    exact ⟨n + segment.length, by omega, hfits⟩

/-- Once the whole text is taken, the glob fits if only stars are left of it. -/
theorem IsPlaced.all_iff_canFit (hplaced : search.IsPlaced glob text)
    (htext : text.length ≤ search.taken) :
    (glob.drop search.used).all (· == '*') = true ↔ search.CanFit glob text := by
  have hall : (glob.drop search.used).all (· == '*') = true ↔ Fits (glob.drop search.used) [] := by
    simp [fits_nil_right]
  rw [hall]
  constructor
  · intro hfits
    left
    rwa [List.drop_of_length_le htext]
  · intro hcan
    obtain ⟨n, hn, hfits⟩ := hplaced.exists_fits hcan
    rwa [List.drop_of_length_le (Nat.le_trans htext hn)] at hfits

/-- A star takes the place of the star before it, and nothing is lost by that. -/
theorem IsPlaced.advances_star (hplaced : search.IsPlaced glob text)
    (hglob : glob[search.used]? = some '*') :
    Advances glob text search ⟨search.used + 1, search.taken, some ⟨search.used, search.taken⟩⟩ := by
  obtain ⟨hused, hstar⟩ := List.getElem?_eq_some_iff.mp hglob
  have hdrop := List.drop_eq_getElem_cons hused
  rw [hstar] at hdrop
  refine ⟨⟨hused, hplaced.taken_le, ?_⟩, ?_⟩
  · rintro _ ⟨⟩
    exact ⟨hused, [], by simp, rfl, rfl⟩
  · have hnext : CanFit glob text
        ⟨search.used + 1, search.taken, some ⟨search.used, search.taken⟩⟩ ↔
          ∃ n ≥ search.taken, Fits (glob.drop (search.used + 1)) (text.drop n) := by
      constructor
      · rintro (hhere | ⟨_, ⟨⟩, n, hn, hlonger⟩)
        · exact ⟨search.taken, Nat.le_refl _, hhere⟩
        · exact ⟨n, Nat.le_of_lt hn, hlonger⟩
      · rintro ⟨n, hn, hfits⟩
        rcases Nat.eq_or_lt_of_le hn with rfl | hlt
        · exact .inl hfits
        · exact .inr ⟨_, rfl, n, hlt, hfits⟩
    rw [hnext]
    constructor
    · rintro ⟨n, hn, hfits⟩
      left
      rw [hdrop, fits_star]
      refine ⟨n - search.taken, ?_⟩
      rwa [List.drop_drop, Nat.add_sub_cancel' hn]
    · intro hcan
      -- What a longer run of the star before could give, a longer run of this one gives.
      obtain ⟨n, hn, hfits⟩ := hplaced.exists_fits hcan
      rw [hdrop, fits_star] at hfits
      obtain ⟨k, hfits⟩ := hfits
      rw [List.drop_drop] at hfits
      exact ⟨n + k, by omega, hfits⟩

/-- A character of the glob that stands for the next one of the text is used, and that one is
taken. -/
theorem IsPlaced.advances_one (hplaced : search.IsPlaced glob text)
    (htext : text[search.taken]? = some c) (hglob : glob[search.used]? = some g) (hg : g ≠ '*')
    (hc : g = '?' ∨ g = c) :
    Advances glob text search ⟨search.used + 1, search.taken + 1, search.star⟩ := by
  obtain ⟨hused, hg'⟩ := List.getElem?_eq_some_iff.mp hglob
  obtain ⟨htaken, hc'⟩ := List.getElem?_eq_some_iff.mp htext
  have hdropGlob := List.drop_eq_getElem_cons hused
  have hdropText := List.drop_eq_getElem_cons htaken
  rw [hg'] at hdropGlob
  rw [hc'] at hdropText
  refine ⟨⟨hused, htaken, fun star hstar => ?_⟩, ?_⟩
  · obtain ⟨hbefore, segment, hsegment, hsplit, hlength⟩ := hplaced.exists_segment star hstar
    refine ⟨hbefore, segment ++ [g], by simp [hsegment, Ne.symm hg], ?_, ?_⟩
    · rw [hsplit, hdropGlob, List.append_assoc]
      rfl
    · rw [List.length_append, List.length_singleton, hlength, Nat.add_assoc]
  · unfold CanFit
    rw [hdropGlob, hdropText, fits_cons_cons hg, and_iff_right hc]

/-- Where the glob does not fit, the last star is given a longer run. -/
theorem IsPlaced.advances_retry (hplaced : search.IsPlaced glob text)
    (htext : search.taken < text.length) {star : Star} (hstar : search.star = some star)
    (hno : ¬ Fits (glob.drop search.used) (text.drop search.taken)) :
    Advances glob text search
      ⟨star.before + 1, star.upTo + 1, some { star with upTo := star.upTo + 1 }⟩ := by
  obtain ⟨hbefore, segment, -, -, htaken⟩ := hplaced.exists_segment star hstar
  refine ⟨⟨hbefore, by dsimp only; omega, ?_⟩, ?_⟩
  · rintro _ ⟨⟩
    exact ⟨hbefore, [], by simp, rfl, rfl⟩
  · constructor
    · rintro (hhere | ⟨_, ⟨⟩, n, hn, hlonger⟩)
      · exact .inr ⟨star, hstar, star.upTo + 1, Nat.lt_succ_self _, hhere⟩
      · exact .inr ⟨star, hstar, n, Nat.lt_of_succ_lt hn, hlonger⟩
    · rintro (hhere | ⟨other, hother, n, hn, hlonger⟩)
      · exact absurd hhere hno
      · obtain rfl : star = other := Option.some.inj (hstar.symm.trans hother)
        rcases Nat.eq_or_lt_of_le (Nat.succ_le_of_lt hn) with rfl | hlt
        · exact .inl hlonger
        · exact .inr ⟨_, rfl, n, hlt, hlonger⟩

/-- A search that goes back to the last star advances, and one that cannot go back has found that
the glob does not fit. -/
theorem IsPlaced.retry_cases (hplaced : search.IsPlaced glob text)
    (htext : search.taken < text.length)
    (hno : ¬ Fits (glob.drop search.used) (text.drop search.taken)) :
    (∃ next, search.retry = .goOn next ∧ Advances glob text search next) ∨
      search.retry = .stop (.answer false) ∧ ¬ search.CanFit glob text := by
  unfold retry
  cases hstar : search.star with
  | none => exact .inr ⟨rfl, by simp [CanFit, hstar, hno]⟩
  | some star => exact .inl ⟨_, rfl, hplaced.advances_retry htext hstar hno⟩

/-- A move of a placed search either advances it or ends it with the right answer. It never leads
outside. -/
theorem IsPlaced.move_cases (hplaced : search.IsPlaced glob text) :
    (∃ next, search.move glob text = .goOn next ∧ Advances glob text search next) ∨
      ∃ matched, search.move glob text = .stop (.answer matched) ∧
        (matched = true ↔ search.CanFit glob text) := by
  have hretry (htext : search.taken < text.length)
      (hno : ¬ Fits (glob.drop search.used) (text.drop search.taken)) :
      (∃ next, search.retry = .goOn next ∧ Advances glob text search next) ∨
        ∃ matched, search.retry = .stop (.answer matched) ∧
          (matched = true ↔ search.CanFit glob text) := by
    rcases hplaced.retry_cases htext hno with hnext | ⟨hstop, hcannot⟩
    · exact .inl hnext
    · exact .inr ⟨false, hstop, by simp [hcannot]⟩
  unfold move
  split
  · rename_i htext
    rw [if_pos hplaced.used_le]
    exact .inr ⟨_, rfl, hplaced.all_iff_canFit (List.getElem?_eq_none_iff.mp htext)⟩
  · rename_i c htext
    obtain ⟨htaken, hc⟩ := List.getElem?_eq_some_iff.mp htext
    have hdropText := List.drop_eq_getElem_cons htaken
    rw [hc] at hdropText
    split
    · rename_i hglob
      refine hretry htaken ?_
      rw [List.drop_of_length_le (List.getElem?_eq_none_iff.mp hglob), hdropText, fits_nil_left]
      exact List.cons_ne_nil _ _
    · rename_i g hglob
      split_ifs with hstar hfits
      · obtain rfl : g = '*' := by simpa using hstar
        exact .inl ⟨_, rfl, hplaced.advances_star hglob⟩
      · exact .inl ⟨_, rfl, hplaced.advances_one htext hglob (by simpa using hstar)
          (by simpa using hfits)⟩
      · refine hretry htaken ?_
        obtain ⟨hused, hg⟩ := List.getElem?_eq_some_iff.mp hglob
        rw [List.drop_eq_getElem_cons hused, hg, hdropText, fits_cons_cons (by simpa using hstar)]
        exact fun h => hfits (by simpa using h.1)

theorem run_of_goOn (hordered : search.IsOrdered) (h : search.move glob text = .goOn next) :
    search.run glob text hordered = next.run glob text (hordered.next h) := by
  rw [run]
  split
  · rename_i other hother
    obtain rfl : next = other := Move.goOn.inj (h.symm.trans hother)
    rfl
  · rename_i outcome hstop
    exact absurd (h.symm.trans hstop) Move.noConfusion

theorem run_of_stop (hordered : search.IsOrdered) (h : search.move glob text = .stop outcome) :
    search.run glob text hordered = outcome := by
  rw [run]
  split
  · rename_i next hnext
    exact absurd (h.symm.trans hnext) Move.noConfusion
  · rename_i other hother
    exact (Move.stop.inj (h.symm.trans hother)).symm

theorem EndsAfter.run_eq {moves : Nat} (hends : EndsAfter glob text moves search outcome)
    (hordered : search.IsOrdered) : search.run glob text hordered = outcome := by
  induction hends with
  | stop hmove => exact run_of_stop hordered hmove
  | goOn hmove _ ih => exact (run_of_goOn hordered hmove).trans (ih (hordered.next hmove))

/-- A placed search comes to the right answer, and no later than its measure allows. -/
theorem IsPlaced.exists_endsAfter {search : Search} (hplaced : search.IsPlaced glob text) :
    ∃ moves ≤ search.movesLeft glob text + 1, ∃ matched,
      EndsAfter glob text moves search (.answer matched) ∧
        (matched = true ↔ search.CanFit glob text) := by
  rcases hplaced.move_cases with ⟨next, hmove, hadvances⟩ | ⟨matched, hmove, hanswer⟩
  · have hnearer := hplaced.isOrdered.movesLeft_lt hmove
    obtain ⟨moves, hmoves, matched, hends, hanswer⟩ := hadvances.isPlaced.exists_endsAfter
    exact ⟨moves + 1, by omega, matched, .goOn hmove hends,
      hanswer.trans hadvances.canFit_iff⟩
  · exact ⟨1, by omega, matched, .stop hmove, hanswer⟩
termination_by search.movesLeft glob text

theorem movesLeft_start (glob text : Text) :
    start.movesLeft glob text + 1 = (text.length + 2) * (glob.length + 1) := by
  simp only [movesLeft, runsLeft, start, Option.elim_none]
  rw [Nat.sub_zero, Nat.succ_mul (text.length + 1), Nat.add_assoc]

end Search

/-- A search from the start ends, never leaves the glob, and finds out whether the glob fits. -/
theorem exists_endsAfter_start (glob text : Text) :
    ∃ moves ≤ (text.length + 2) * (glob.length + 1), ∃ matched,
      Search.EndsAfter glob text moves .start (.answer matched) ∧
        (matched = true ↔ Fits glob text) := by
  obtain ⟨moves, hmoves, matched, hends, hanswer⟩ :=
    (Search.isPlaced_start glob text).exists_endsAfter
  rw [Search.movesLeft_start] at hmoves
  exact ⟨moves, hmoves, matched, hends, hanswer.trans (Search.canFit_start glob text)⟩

/-- A glob is accepted for the texts that it fits. -/
theorem accepts_iff (glob text : Text) : accepts glob text = true ↔ Fits glob text := by
  obtain ⟨_, -, matched, hends, hanswer⟩ := exists_endsAfter_start glob text
  rw [accepts, hends.run_eq, ← hanswer]
  cases matched <;> decide

end Glob

/-- A lexer with a single glob matches a file name exactly if the name can be cut into consecutive
pieces, one for each character of the glob: any piece for a star, one character for a question mark,
and for every other character that character itself. The search that decides so never leaves the
glob or the name, and the number of its moves is at most about the product of their lengths. -/
theorem Registration.matchesFilename_single (registration : Registration) (glob filename : Text) :
    (({ registration with filenames := [glob] } : Registration).matchesFilename filename = true ↔
      ∃ pieces, List.Forall₂ Glob.StandsFor glob pieces ∧ pieces.flatten = filename) ∧
    ∃ moves ≤ (filename.length + 2) * (glob.length + 1), ∃ matched,
      Glob.Search.EndsAfter glob filename moves .start (.answer matched) := by
  obtain ⟨moves, hmoves, matched, hends, -⟩ := Glob.exists_endsAfter_start glob filename
  refine ⟨?_, moves, hmoves, matched, hends⟩
  rw [matchesFilename, List.any_cons, List.any_nil, Bool.or_false, Glob.accepts_iff]
  rfl

end MapHighlight
