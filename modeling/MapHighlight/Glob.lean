import MapHighlight.Text

/-!
# Globs

A glob is a text in which a star stands for any run of characters and a question mark for any one
character. A search goes through the glob and the text side by side, each star with the empty run at
first. Where they do not fit, the search goes back to the last star and lets it stand for one
character more: giving more to an earlier star could not help, because the last one already stands
for any run. Each move uses more of the glob or lengthens the run of the last star, so the search
ends.
-/

namespace MapHighlight.Glob

/-- A star that a search can go back to. -/
structure Star where
  /-- The number of characters of the glob before the star. -/
  before : Nat
  /-- The number of characters of the text up to the end of the star's run. -/
  upTo : Nat
deriving DecidableEq, Repr

/-- How far a search has come. -/
structure Search where
  /-- The number of characters of the glob that are used. -/
  used : Nat
  /-- The number of characters of the text that are taken. -/
  taken : Nat
  /-- The last star that the search has come to. -/
  star : Option Star
deriving DecidableEq, Repr

/-- How a search ends. -/
inductive Outcome where
  /-- The glob matches the text, or it does not. -/
  | answer (matched : Bool)
  /-- The search has left the glob. -/
  | outside
deriving DecidableEq, Repr

/-- What a search does next. -/
inductive Move where
  /-- The search goes on from another place. -/
  | goOn (search : Search)
  /-- The search ends. -/
  | stop (outcome : Outcome)
deriving DecidableEq, Repr

namespace Search

/-- The search before the first character. -/
def start : Search :=
  ⟨0, 0, none⟩

/-- Lets the last star stand for one character more, or gives up if there was no star. -/
def retry (search : Search) : Move :=
  match search.star with
  | some star => .goOn ⟨star.before + 1, star.upTo + 1, some { star with upTo := star.upTo + 1 }⟩
  | none => .stop (.answer false)

/-- The next move of a search. Once the whole text is taken, only stars may be left of the glob. -/
def move (glob text : Text) (search : Search) : Move :=
  match text[search.taken]? with
  | none =>
    if search.used ≤ glob.length then .stop (.answer ((glob.drop search.used).all (· == '*')))
    else .stop .outside
  | some c =>
    match glob[search.used]? with
    | none => search.retry
    | some g =>
      if g == '*' then .goOn ⟨search.used + 1, search.taken, some ⟨search.used, search.taken⟩⟩
      else if g == '?' || g == c then .goOn ⟨search.used + 1, search.taken + 1, search.star⟩
      else search.retry

/-- How a search goes on: a star or another character of the glob is used, or the last star is given
a longer run. -/
theorem cases_of_goOn {glob text : Text} {search next : Search}
    (h : search.move glob text = .goOn next) :
    search.taken < text.length ∧
      (search.used < glob.length ∧
          next = ⟨search.used + 1, search.taken, some ⟨search.used, search.taken⟩⟩ ∨
        search.used < glob.length ∧ next = ⟨search.used + 1, search.taken + 1, search.star⟩ ∨
        ∃ star ∈ search.star,
          next = ⟨star.before + 1, star.upTo + 1, some { star with upTo := star.upTo + 1 }⟩) := by
  have hretry (hretry : search.retry = .goOn next) : ∃ star ∈ search.star,
      next = ⟨star.before + 1, star.upTo + 1, some { star with upTo := star.upTo + 1 }⟩ := by
    unfold retry at hretry
    split at hretry
    · rename_i star hstar
      cases hretry
      exact ⟨star, hstar, rfl⟩
    · contradiction
  unfold move at h
  split at h
  · split at h <;> contradiction
  · rename_i c htext
    refine ⟨(List.getElem?_eq_some_iff.mp htext).1, ?_⟩
    split at h
    · exact .inr (.inr (hretry h))
    · rename_i g hglob
      have hused := (List.getElem?_eq_some_iff.mp hglob).1
      split at h
      · cases h
        exact .inl ⟨hused, rfl⟩
      · split at h
        · cases h
          exact .inr (.inl ⟨hused, rfl⟩)
        · exact .inr (.inr (hretry h))

/-- Whether the run of the last star lies within the text taken. -/
def IsOrdered (search : Search) : Prop :=
  ∀ star ∈ search.star, star.upTo ≤ search.taken

theorem isOrdered_start : start.IsOrdered := by
  simp [IsOrdered, start]

theorem IsOrdered.next {glob text : Text} {search next : Search} (hordered : search.IsOrdered)
    (h : search.move glob text = .goOn next) : next.IsOrdered := by
  obtain ⟨-, ⟨-, rfl⟩ | ⟨-, rfl⟩ | ⟨star, -, rfl⟩⟩ := cases_of_goOn h
  · rintro _ ⟨⟩
    exact Nat.le_refl _
  · exact fun star hstar => Nat.le_succ_of_le (hordered star hstar)
  · rintro _ ⟨⟩
    exact Nat.le_refl _

/-- The number of runs that the last star can still be given. Before the first star there is one
more than any star can be given. -/
def runsLeft (text : Text) (search : Search) : Nat :=
  search.star.elim (text.length + 1) fun star => text.length - star.upTo

/-- A bound on the number of moves to come. Between one run of the last star and the next, no more
moves are made than the glob has characters. -/
def movesLeft (glob text : Text) (search : Search) : Nat :=
  search.runsLeft text * (glob.length + 1) + (glob.length - search.used)

/-- Every move that goes on brings the search nearer to its end. -/
theorem IsOrdered.movesLeft_lt {glob text : Text} {search next : Search}
    (hordered : search.IsOrdered) (h : search.move glob text = .goOn next) :
    next.movesLeft glob text < search.movesLeft glob text := by
  obtain ⟨htaken, hcases⟩ := cases_of_goOn h
  have hlonger (hruns : next.runsLeft text + 1 ≤ search.runsLeft text) :
      next.movesLeft glob text < search.movesLeft glob text := by
    have hmul := Nat.mul_le_mul_right (glob.length + 1) hruns
    rw [Nat.succ_mul] at hmul
    unfold movesLeft
    omega
  have hfurther (hruns : next.runsLeft text ≤ search.runsLeft text)
      (hused : glob.length - next.used < glob.length - search.used) :
      next.movesLeft glob text < search.movesLeft glob text := by
    have hmul := Nat.mul_le_mul_right (glob.length + 1) hruns
    unfold movesLeft
    omega
  rcases hcases with ⟨hused, rfl⟩ | ⟨hused, rfl⟩ | ⟨star, hstar, rfl⟩
  · refine hfurther ?_ (by dsimp only; omega)
    cases hlast : search.star with
    | none =>
      simp only [runsLeft, hlast, Option.elim_some, Option.elim_none]
      omega
    | some star =>
      have hupTo := hordered star hlast
      simp only [runsLeft, hlast, Option.elim_some]
      omega
  · exact hfurther (Nat.le_refl _) (by dsimp only; omega)
  · have hupTo := hordered star hstar
    have hlast : search.star = some star := hstar
    refine hlonger ?_
    simp only [runsLeft, hlast, Option.elim_some]
    omega

/-- The outcome of a search. -/
def run (glob text : Text) (search : Search) (hordered : search.IsOrdered) : Outcome :=
  match h : search.move glob text with
  | .goOn next =>
    have := hordered.movesLeft_lt h
    next.run glob text (hordered.next h)
  | .stop outcome => outcome
termination_by search.movesLeft glob text

end Search

/-- Whether a glob matches the whole of a text. -/
def accepts (glob text : Text) : Bool :=
  Search.start.run glob text Search.isOrdered_start == .answer true

end MapHighlight.Glob
