import JobLoom.Decimal.Notation

/-!
# Counts

Which texts are numbers of things, and which numbers they are: digits, perhaps behind a plus sign,
whose value is below the limit.
-/

namespace JobLoom.Decimal

/-- The digits of a count, without the plus sign in front of them. -/
def countDigits (s : List Char) : List Char := if s.head? = some '+' then s.tail else s

/-- The text is a count: there are digits and nothing else, and they say a number below `2 ^ 64`. -/
def IsCount (s : List Char) : Prop :=
  countDigits s ≠ [] ∧ (countDigits s).all isDigit = true ∧
    Nat.ofDigitChars 10 (countDigits s) 0 < Nat.pow 2 64

instance (s : List Char) : Decidable (IsCount s) :=
  inferInstanceAs (Decidable (_ ∧ _ ∧ _))

/-- The number that a count says. -/
def countOf? (s : List Char) : Option Nat :=
  if IsCount s then some (Nat.ofDigitChars 10 (countDigits s) 0) else none

variable {s : List Char} {c : Char}

theorem digitValue_of_digit (hc : isDigit c = true) : digitValue c = some (c.toNat - 48) := by
  unfold isDigit at hc
  rw [digitValue, if_pos hc]
  rfl

theorem le_of_digitValue {d : Nat} (hc : isDigit c = false) (hd : digitValue c = some d) :
    10 ≤ d := by
  unfold isDigit at hc
  rw [digitValue, if_neg (Bool.eq_false_iff.1 hc)] at hd
  split at hd
  · cases hd
    exact Nat.le_add_left 10 _
  · split at hd
    · cases hd
      exact Nat.le_add_left 10 _
    · cases hd

/-- What one more character does to the number read so far. -/
def withDigit (read : Option Nat) (c : Char) : Option Nat :=
  match read, digitValue c with
  | some n, some d => if d < 10 then some (n * 10 + d) else none
  | _, _ => none

theorem readBase_eq (s : List Char) :
    readBase 10 s = if s.isEmpty then none else s.foldl withDigit (some 0) := rfl

theorem withDigit_of_digit (hc : isDigit c = true) (n : Nat) :
    withDigit (some n) c = some (10 * n + (c.toNat - 48)) := by
  have hhigh : c.toNat ≤ 57 := by
    have hc : '0' ≤ c ∧ c ≤ '9' := by simpa [isDigit] using hc
    exact hc.2
  have hlt : c.toNat - 48 < 10 := by omega
  simp only [withDigit, digitValue_of_digit hc, if_pos hlt, Nat.mul_comm n]

/-- Nothing is read any more behind a character that is no digit. -/
theorem withDigit_of_other (hc : isDigit c = false) (read : Option Nat) :
    withDigit read c = none := by
  unfold withDigit
  split
  · next n d hd =>
    rw [if_neg (Nat.not_lt.2 (le_of_digitValue hc hd))]
  · rfl

theorem foldl_withDigit_none (s : List Char) : s.foldl withDigit none = none := by
  induction s with
  | nil => rfl
  | cons c rest ih => exact ih

/-- Digits go on with the number read so far; anything else ends it. -/
theorem foldl_withDigit (s : List Char) (n : Nat) : s.foldl withDigit (some n) =
    if s.all isDigit then some (Nat.ofDigitChars 10 s n) else none := by
  induction s generalizing n with
  | nil => rfl
  | cons c rest ih =>
    rw [List.foldl_cons, List.all_cons]
    cases hc : isDigit c with
    | true =>
      rw [withDigit_of_digit hc, ih, Nat.ofDigitChars_cons, Bool.true_and]
      rfl
    | false =>
      rw [withDigit_of_other hc, foldl_withDigit_none]
      rfl

/-- **Counts are read as what they say.** -/
theorem readCount_eq (s : List Char) : readCount s = countOf? s := by
  have hdigits : readCount s = (readBase 10 (countDigits s)).filter (· < Nat.pow 2 64) := by
    unfold readCount countDigits
    cases s with
    | nil => rfl
    | cons c rest =>
      by_cases hc : c = '+'
      · rw [hc]
        rfl
      · have hhead : (c :: rest).head? ≠ some '+' := fun h => hc (Option.some.inj h)
        rw [if_neg hhead]
        dsimp only
        split
        · next h => exact absurd (List.cons.inj h).1 hc
        · rfl
  rw [hdigits, readBase_eq, foldl_withDigit, countOf?]
  by_cases hcount : IsCount s
  · rw [if_neg (by simpa using hcount.1), if_pos hcount.2.1, if_pos hcount]
    exact Option.filter_some_pos (by simpa using hcount.2.2)
  · rw [if_neg (c := IsCount s) hcount]
    by_cases hne : countDigits s = []
    · rw [hne]
      rfl
    · rw [if_neg (by simpa using hne)]
      split
      · next hall =>
        exact Option.filter_some_neg (by simpa using fun hlt => hcount ⟨hne, hall, hlt⟩)
      · rfl

end JobLoom.Decimal
