/-!
# Ranges of code points

A character class of the Unicode standard is given by closed ranges of code points in ascending
order. Membership stops at the first range that ends at or beyond the code point asked for.
-/

namespace MapHighlight.Unicode

/-- Closed ranges of code points, each written as its first and last member, in ascending
order. -/
abbrev CodePointRanges := List (Nat × Nat)

/-- Whether a code point lies in one of the ranges. -/
def CodePointRanges.containsCode : CodePointRanges → Nat → Bool
  | [], _ => false
  | (first, last) :: higher, code =>
    if code ≤ last then first ≤ code else CodePointRanges.containsCode higher code

/-- Whether the code point of a character lies in one of the ranges. -/
def CodePointRanges.contains (ranges : CodePointRanges) (c : Char) : Bool :=
  ranges.containsCode c.toNat

namespace CodePointRanges

theorem exists_of_containsCode {ranges : CodePointRanges} {code : Nat}
    (h : ranges.containsCode code = true) :
    ∃ range ∈ ranges, range.1 ≤ code ∧ code ≤ range.2 := by
  induction ranges with
  | nil => contradiction
  | cons range higher ih =>
    rw [containsCode] at h
    split at h
    · rename_i hlast
      exact ⟨range, List.mem_cons_self, of_decide_eq_true h, hlast⟩
    · obtain ⟨other, hmem, hother⟩ := ih h
      exact ⟨other, List.mem_cons_of_mem range hmem, hother⟩

/-- Classes whose ranges lie apart have no character in common. -/
theorem contains_eq_false_of_apart {left right : CodePointRanges} {c : Char}
    (hapart : ∀ range ∈ left, ∀ other ∈ right, range.2 < other.1 ∨ other.2 < range.1)
    (h : left.contains c = true) : right.contains c = false := by
  rw [← Bool.not_eq_true]
  intro hright
  obtain ⟨range, hrange, hfirst, hlast⟩ := exists_of_containsCode h
  obtain ⟨other, hother, hfirst', hlast'⟩ := exists_of_containsCode hright
  have := hapart range hrange other hother
  omega

end CodePointRanges

end MapHighlight.Unicode
