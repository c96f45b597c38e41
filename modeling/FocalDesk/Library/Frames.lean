import Mathlib.Algebra.Order.Ring.Nat
import Mathlib.Data.List.Basic

/-! Frames on a stream of bytes: a length in four bytes, the lowest one first, and a body. -/
namespace FocalDesk.Library

def leBytes : ℕ → ℕ → List UInt8
  | 0, _ => []
  | count + 1, n => UInt8.ofNat n :: leBytes count (n / 256)

def leValue : List UInt8 → ℕ
  | [] => 0
  | byte :: bytes => byte.toNat + 256 * leValue bytes

def frame (body : List UInt8) : List UInt8 := leBytes 4 body.length ++ body

def frames (bodies : List (List UInt8)) : List UInt8 := (bodies.map frame).flatten

@[simp] theorem length_leBytes (count n : ℕ) : (leBytes count n).length = count := by
  induction count generalizing n with
  | zero => rfl
  | succ count ih => simp [leBytes, ih]

theorem leValue_leBytes {count n : ℕ} (h : n < 256 ^ count) : leValue (leBytes count n) = n := by
  induction count generalizing n with
  | zero =>
    rw [Nat.pow_zero, Nat.lt_one_iff] at h
    rw [h]
    rfl
  | succ count ih =>
    have hr : n / 256 < 256 ^ count := Nat.div_lt_of_lt_mul (by rwa [← Nat.pow_succ'])
    rw [leBytes, leValue, ih hr, UInt8.toNat_ofNat']
    exact Nat.mod_add_div n 256

@[simp] theorem frames_nil : frames [] = [] := rfl

@[simp] theorem frames_cons (body : List UInt8) (bodies : List (List UInt8)) :
    frames (body :: bodies) = frame body ++ frames bodies := rfl

end FocalDesk.Library
