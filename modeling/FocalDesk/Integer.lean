import Mathlib.Algebra.Order.Ring.Nat
import Mathlib.Data.Nat.Digits.Defs

/-! The additions of the source on `u64`, and unsigned numbers as the standard library parses
them. -/
namespace FocalDesk

/-- `u64::saturating_add` -/
def saturatingAdd (a b : ℕ) : ℕ := min (a + b) (2 ^ 64 - 1)

/-- `u64::checked_add(1)` -/
def checkedSucc (n : ℕ) : Option ℕ := if n < 18446744073709551615 then some (n + 1) else none

theorem checkedSucc_eq_some {m n : ℕ} : checkedSucc n = some m ↔
    n < 18446744073709551615 ∧ n + 1 = m := by
  unfold checkedSucc
  split <;> simp [*]

/-- `char::to_digit` for a radix of at most ten. -/
def digitValue (radix : ℕ) (c : Char) : Option ℕ :=
  if '0' ≤ c ∧ c.toNat - 48 < radix then some (c.toNat - 48) else none

/-- The digits after some that had the value `acc`; values from `bound` on overflow. -/
def parseDigits (radix bound : ℕ) : ℕ → List Char → Option ℕ
  | acc, [] => some acc
  | acc, c :: cs =>
    match digitValue radix c with
    | none => none
    | some digit =>
      if acc * radix + digit < bound then parseDigits radix bound (acc * radix + digit) cs else none

/-- `u64::from_str_radix`, which takes a leading plus sign. -/
def fromStrRadix (radix : ℕ) (cs : List Char) : Option ℕ :=
  let digits := if cs.head? = some '+' then cs.tail else cs
  if digits = [] then none else parseDigits radix 18446744073709551616 0 digits

/-- `str::parse` of a number of 64 bits. -/
def parseU64 (s : String) : Option ℕ := fromStrRadix 10 s.toList

theorem parseDigits_append (radix bound acc : ℕ) (cs ds : List Char) :
    parseDigits radix bound acc (cs ++ ds) =
      (parseDigits radix bound acc cs).bind fun acc => parseDigits radix bound acc ds := by
  induction cs generalizing acc with
  | nil => rfl
  | cons c cs ih =>
    rw [List.cons_append]
    simp only [parseDigits]
    rcases digitValue radix c with _ | digit
    · rfl
    · by_cases hlt : acc * radix + digit < bound
      · simp only [if_pos hlt]
        exact ih _
      · simp only [if_neg hlt]
        rfl

end FocalDesk
