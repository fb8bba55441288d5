import Mathlib.Data.List.Induction
import Mathlib.Tactic.IntervalCases
import Shading.Number

/-!
What a numeral stands for.

Every step rounds, so the order of steps belongs to the value. Digits are added one behind the
other. A power of ten is a product of repeated squares, of which the binary digits of the
exponent select the factors, the lowest first.
-/

namespace Shading.Number

/-! ### Digits -/

/-- A further digit goes behind ten times the value of those before it. -/
inductive Accumulated : List Char → Float → Prop where
  | nothing : Accumulated [] 0
  | digit {before : List Char} {value : Float} {digit : Nat} (small : digit < 10)
      (earlier : Accumulated before value) :
      Accumulated (before ++ [Nat.digitChar digit]) (value * 10 + Float.ofNat digit)

theorem digitValue_digitChar {digit : Nat} (small : digit < 10) :
    Character.digitValue (Nat.digitChar digit) = digit := by
  interval_cases digit <;> rfl

theorem digitChar_digitValue {character : Char} (digit : Character.isDigit character = true) :
    Character.digitValue character < 10 ∧
      Nat.digitChar (Character.digitValue character) = character := by
  unfold Character.isDigit at digit
  rw [Bool.and_eq_true, decide_eq_true_eq, decide_eq_true_eq] at digit
  have low : 48 ≤ character.toNat := digit.1
  have high : character.toNat ≤ 57 := digit.2
  have same := Char.ofNat_toNat character
  generalize character.toNat = code at same low high
  subst same
  interval_cases code <;> exact ⟨by decide, rfl⟩

theorem Accumulated.eq_foldl {digits : List Char} {value : Float}
    (accumulated : Accumulated digits value) : value = digits.foldl pushDigit 0 := by
  induction accumulated with
  | nothing => rfl
  | digit small _ ih =>
      rw [List.foldl_append, ← ih, List.foldl_cons, List.foldl_nil, pushDigit,
        digitValue_digitChar small]

theorem accumulated_foldl {digits : List Char}
    (inside : ∀ character ∈ digits, Character.isDigit character = true) :
    Accumulated digits (digits.foldl pushDigit 0) := by
  induction digits using List.reverseRecOn with
  | nil => exact .nothing
  | append_singleton before last ih =>
      obtain ⟨insideBefore, insideLast⟩ := List.forall_mem_append.mp inside
      obtain ⟨small, same⟩ := digitChar_digitValue (insideLast last List.mem_cons_self)
      have further := (ih insideBefore).digit small
      rw [same] at further
      rw [List.foldl_append]
      exact further

/-! ### Powers of ten -/

/-- What is left of a base that was squared so many times. -/
def squared (base : Float) : Nat → Float
  | 0 => base
  | times + 1 => squared (base * base) times

/-- A product of repeated squares, for each binary digit of the exponent one, in ascending
order behind a first factor. -/
inductive Raised (first base : Float) : Nat → Float → Prop where
  | nothing : Raised first base 0 first
  | square {place exponent : Nat} {value : Float} (below : exponent < 2 ^ place)
      (lower : Raised first base exponent value) :
      Raised first base (2 ^ place + exponent) (value * squared base place)

variable {first base value : Float} {exponent : Nat}

theorem raised_exists (first base : Float) (exponent : Nat) :
    ∃ value, Raised first base exponent value := by
  induction exponent using Nat.strongRecOn with
  | ind exponent ih =>
      by_cases zero : exponent = 0
      · subst zero
        exact ⟨first, .nothing⟩
      · -- The highest binary digit is taken off, and its square is the last factor.
        have top := Nat.log2_self_le zero
        have above : exponent < 2 ^ (exponent.log2 + 1) := Nat.lt_log2_self
        have positive : 0 < 2 ^ exponent.log2 := Nat.two_pow_pos _
        obtain ⟨value, lower⟩ := ih (exponent - 2 ^ exponent.log2) (by omega)
        have raised := lower.square (show exponent - 2 ^ exponent.log2 < 2 ^ exponent.log2 by omega)
        rw [Nat.add_sub_cancel' top] at raised
        exact ⟨_, raised⟩

theorem Raised.eq_first (raised : Raised first base exponent value) (zero : exponent = 0) :
    value = first := by
  cases raised with
  | nothing => rfl
  | @square place _ _ _ _ =>
      have positive := Nat.two_pow_pos place
      omega

/-- The lowest binary digit decides on the first factor, and the others are those of the half. -/
theorem Raised.halved (raised : Raised first base exponent value) :
    Raised (if exponent % 2 = 1 then first * base else first) (base * base) (exponent / 2)
      value := by
  induction raised with
  | nothing => exact .nothing
  | @square place exponent value below lower ih =>
      cases place with
      | zero =>
          obtain rfl : exponent = 0 := by omega
          rw [lower.eq_first rfl]
          exact .nothing
      | succ place =>
          have half : (2 ^ (place + 1) + exponent) / 2 = 2 ^ place + exponent / 2 := by omega
          have parity : (2 ^ (place + 1) + exponent) % 2 = exponent % 2 := by omega
          rw [half, parity]
          exact .square (by omega) ih

theorem Raised.powerLoop_eq (raised : Raised first base exponent value) :
    powerLoop first base exponent = value := by
  induction exponent using Nat.strongRecOn generalizing first base with
  | ind exponent ih =>
      have halved := raised.halved
      rw [powerLoop]
      by_cases last : exponent / 2 = 0
      · rw [if_pos last]
        exact (halved.eq_first last).symm
      · rw [if_neg last]
        exact ih _ (by omega) halved

/-- A power of ten; below zero it is the reciprocal of one. -/
inductive PowerOfTen : Int32 → Float → Prop where
  | product {exponent : Int32} {power : Float} (nonnegative : ¬ exponent < 0)
      (raised : Raised 1 10 exponent.toInt.natAbs power) : PowerOfTen exponent power
  | reciprocal {exponent : Int32} {power : Float} (negative : exponent < 0)
      (raised : Raised 1 10 exponent.toInt.natAbs power) : PowerOfTen exponent (1 / power)

theorem powerOfTen_iff {exponent : Int32} {power : Float} :
    PowerOfTen exponent power ↔ power = powerOfTen exponent := by
  unfold powerOfTen
  dsimp only
  constructor
  · intro found
    cases found with
    | product nonnegative raised => rw [if_neg nonnegative, raised.powerLoop_eq]
    | reciprocal negative raised => rw [if_pos negative, raised.powerLoop_eq]
  · rintro rfl
    obtain ⟨power, raised⟩ := raised_exists 1 10 exponent.toInt.natAbs
    rw [raised.powerLoop_eq]
    by_cases negative : exponent < 0
    · rw [if_pos negative]
      exact .reciprocal negative raised
    · rw [if_neg negative]
      exact .product negative raised

/-! ### Numerals -/

/-- The value of all digits over a power of ten, whose exponent is the count of the digits behind
the point in 32 bits. -/
inductive Denotes (whole fraction : List Char) : Float → Prop where
  | quotient {sum power : Float} (accumulated : Accumulated (whole ++ fraction) sum)
      (scaled : PowerOfTen (Int32.ofNat fraction.length) power) :
      Denotes whole fraction (sum / power)

theorem denotes_iff {whole fraction : List Char} {value : Float}
    (inside : ∀ character ∈ whole, Character.isDigit character = true)
    (fractionInside : ∀ character ∈ fraction, Character.isDigit character = true) :
    Denotes whole fraction value ↔ value = numeralValue whole fraction := by
  constructor
  · rintro ⟨accumulated, scaled⟩
    rw [accumulated.eq_foldl, powerOfTen_iff.mp scaled]
    rfl
  · rintro rfl
    have digits := List.forall_mem_append.mpr ⟨inside, fractionInside⟩
    exact .quotient (accumulated_foldl digits) (powerOfTen_iff.mpr rfl)

end Shading.Number
