import MapHighlight.Text
import Mathlib.Data.List.Basic

/-!
# Numerals

A number is read digit by digit, in any base up to sixteen. Reading undoes writing, and a written
number holds digits only and begins with a zero only if it is zero.
-/

namespace MapHighlight.Numeral

/-- The digit of a base that a character stands for. -/
def digit? (base : Nat) (c : Char) : Option Nat :=
  (List.range base).find? fun n => n.digitChar == c.toLower

/-- The number that is read once a digit follows what was read before it. -/
def next? (base n : Nat) (c : Char) : Option Nat :=
  (digit? base c).map (base * n + ·)

/-- The number that digits of a base stand for, if there are any and they all are digits. -/
def read? (base : Nat) (digits : Text) : Option Nat :=
  if digits = [] then none else digits.foldlM (next? base) 0

variable {base : Nat}

/-- A digit is read as what it was written for. -/
theorem digit?_digitChar (hbase : base ≤ 16) {n : Nat} (h : n < base) :
    digit? base n.digitChar = some n := by
  have hall : ∀ base < 17, ∀ n < base, digit? base n.digitChar = some n := by decide
  exact hall base (by omega) n h

theorem foldlM_toDigits (hone : 1 < base) (hbase : base ≤ 16) (n : Nat) :
    (Nat.toDigits base n).foldlM (next? base) 0 = some n := by
  induction n using Nat.strongRecOn with
  | _ n ih =>
    rw [Nat.toDigits_eq_if hone]
    split
    case isTrue hlt => simp [next?, digit?_digitChar hbase hlt]
    case isFalse hge =>
      have hdiv : n / base < n := Nat.div_lt_self (by omega) hone
      have hmod : n % base < base := Nat.mod_lt n (by omega)
      rw [List.foldlM_append, ih _ hdiv]
      simp [next?, digit?_digitChar hbase hmod, Nat.div_add_mod]

/-- Reading a written number gives the number. -/
theorem read?_toDigits (hone : 1 < base) (hbase : base ≤ 16) (n : Nat) :
    read? base (Nat.toDigits base n) = some n := by
  rw [read?, if_neg Nat.toDigits_ne_nil, foldlM_toDigits hone hbase]

/-- A written number holds digits only. -/
theorem exists_digit_of_mem (hone : 1 < base) {n : Nat} {c : Char}
    (h : c ∈ Nat.toDigits base n) : ∃ digit < base, c = digit.digitChar := by
  induction n using Nat.strongRecOn with
  | _ n ih =>
    rw [Nat.toDigits_eq_if hone] at h
    split at h
    case isTrue hlt => exact ⟨n, hlt, List.mem_singleton.mp h⟩
    case isFalse hge =>
      rcases List.mem_append.mp h with hmem | hmem
      · exact ih _ (Nat.div_lt_self (by omega) hone) hmem
      · exact ⟨n % base, Nat.mod_lt n (by omega), List.mem_singleton.mp hmem⟩

/-- A written number does not hold a character that is no digit. -/
theorem not_mem_toDigits (hone : 1 < base) (hbase : base ≤ 16) {c : Char}
    (h : ∀ digit < 16, c ≠ Nat.digitChar digit) (n : Nat) : c ∉ Nat.toDigits base n := by
  intro hmem
  obtain ⟨digit, hlt, hdigit⟩ := exists_digit_of_mem hone hmem
  exact h digit (by omega) hdigit

/-- A written number is zero if it begins with a zero. -/
theorem eq_zero_of_head? (hone : 1 < base) (hbase : base ≤ 16) {n : Nat}
    (h : (Nat.toDigits base n).head? = some '0') : n = 0 := by
  induction n using Nat.strongRecOn with
  | _ n ih =>
    rw [Nat.toDigits_eq_if hone] at h
    split at h
    case isTrue hlt =>
      have hdigit := digit?_digitChar hbase hlt
      rw [Option.some.inj h, show '0' = Nat.digitChar 0 from rfl,
        digit?_digitChar hbase (by omega)] at hdigit
      exact (Option.some.inj hdigit).symm
    case isFalse hge =>
      rw [List.head?_append_of_ne_nil _ Nat.toDigits_ne_nil] at h
      have hzero := ih _ (Nat.div_lt_self (by omega) hone) h
      have hpos := Nat.div_pos (Nat.le_of_not_lt hge) (by omega)
      omega

end MapHighlight.Numeral
