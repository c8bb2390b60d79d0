import Mathlib.Tactic.Ring
import Torlane.Hex

/-!
# Numbers in a radix

The number that digits spell, and the digits that a number is printed with, for a radix up to
sixteen. A printed number is spelled by its digits, and has no leading zeros.
-/

namespace Text

/-- `char::to_digit`, for a radix up to sixteen. -/
def toDigit (radix : ℕ) (c : Char) : Option ℕ := (hexValue c).filter (· < radix)

/-- The number that digits spell. -/
def spelledNumber (radix : ℕ) (digits : Text) : ℕ :=
  digits.foldl (fun n c => n * radix + (toDigit radix c).getD 0) 0

variable {radix n : ℕ}

/-- A printed digit has its value. -/
theorem toDigit_digitChar (hradix : radix ≤ 16) (h : n < radix) :
    toDigit radix n.digitChar = some n := by
  have hvalue : ∀ n < 16, hexValue n.digitChar = some n := by decide
  unfold toDigit
  rw [hvalue n (by omega), Option.filter_some, if_pos (by simpa using h)]

/-- Digits of a number behind digits of another one. -/
theorem spelledNumber_append (digits digits' : Text) : spelledNumber radix (digits ++ digits') =
    spelledNumber radix digits * radix ^ digits'.length + spelledNumber radix digits' := by
  have hfold (digits : Text) (m : ℕ) :
      digits.foldl (fun n c => n * radix + (toDigit radix c).getD 0) m =
        m * radix ^ digits.length + spelledNumber radix digits := by
    unfold spelledNumber
    induction digits generalizing m with
    | nil => simp
    | cons c cs ih =>
      rw [List.foldl_cons, List.foldl_cons, ih, ih (0 * radix + _), List.length_cons, Nat.pow_succ]
      ring
  unfold spelledNumber
  rw [List.foldl_append]
  exact hfold _ _

/-- The last digit of a printed number, and the digits before it. -/
theorem toDigits_cases (hradix : 1 < radix) (n : ℕ) : Nat.toDigits radix n =
    (if n < radix then [] else Nat.toDigits radix (n / radix)) ++ [(n % radix).digitChar] := by
  split_ifs with h
  · rw [Nat.toDigits_of_lt_base h, Nat.mod_eq_of_lt h]
    rfl
  · exact Nat.toDigits_of_base_le hradix (Nat.not_lt.mp h)

/-- A printed number consists of digits. -/
theorem isSome_of_mem_toDigits (hradix : 1 < radix) (hmax : radix ≤ 16) :
    ∀ c ∈ Nat.toDigits radix n, (toDigit radix c).isSome := by
  induction n using Nat.strong_induction_on with
  | _ n ih =>
    intro c hc
    rw [toDigits_cases hradix] at hc
    rcases List.mem_append.mp hc with hc | hc
    · split_ifs at hc with h
      · cases hc
      · exact ih (n / radix) (Nat.div_lt_self (by omega) hradix) c hc
    · obtain rfl := List.mem_singleton.mp hc
      rw [toDigit_digitChar hmax (Nat.mod_lt n (by omega))]
      rfl

/-- A printed number is spelled by its digits. -/
theorem spelledNumber_toDigits (hradix : 1 < radix) (hmax : radix ≤ 16) (n : ℕ) :
    spelledNumber radix (Nat.toDigits radix n) = n := by
  induction n using Nat.strong_induction_on with
  | _ n ih =>
    have hlast : spelledNumber radix [(n % radix).digitChar] = n % radix := by
      unfold spelledNumber
      rw [List.foldl_cons, toDigit_digitChar hmax (Nat.mod_lt n (by omega))]
      simp
    rw [toDigits_cases hradix, spelledNumber_append, hlast, List.length_singleton, Nat.pow_one]
    split_ifs with h
    · simp [spelledNumber, Nat.mod_eq_of_lt h]
    · rw [ih (n / radix) (Nat.div_lt_self (by omega) hradix)]
      exact Nat.div_add_mod' n radix

/-- A printed number starts with a zero only if it is zero. -/
theorem head?_toDigits (hradix : 1 < radix) (hmax : radix ≤ 16) (hn : n ≠ 0) :
    (Nat.toDigits radix n).head? ≠ some '0' := by
  induction n using Nat.strong_induction_on with
  | _ n ih =>
    rw [toDigits_cases hradix]
    split_ifs with h
    · rw [Nat.mod_eq_of_lt h]
      simpa using hn
    · have hpos : n / radix ≠ 0 := (Nat.div_pos (by omega) (by omega)).ne'
      rw [List.head?_append_of_ne_nil _ Nat.toDigits_ne_nil]
      exact ih (n / radix) (Nat.div_lt_self (by omega) hradix) hpos

end Text
