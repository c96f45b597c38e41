import Mathlib.Data.List.Basic

/-! The bytes of a text in UTF-8, and its positions that are boundaries of characters. -/
namespace FocalDesk.Library
open List

variable {c : Char} {cs w rest : List Char} {bytes tail : List UInt8}

def toUtf8 (cs : List Char) : List UInt8 := cs.flatMap String.utf8EncodeChar

def asciiByte (c : Char) : UInt8 := UInt8.ofNat c.toNat

@[simp] theorem toUtf8_nil : toUtf8 [] = [] := rfl

@[simp] theorem toUtf8_cons : toUtf8 (c :: cs) = String.utf8EncodeChar c ++ toUtf8 cs :=
  flatMap_cons

theorem toUtf8_append : toUtf8 (w ++ rest) = toUtf8 w ++ toUtf8 rest := flatMap_append

theorem length_toUtf8_cons : (toUtf8 (c :: cs)).length = c.utf8Size + (toUtf8 cs).length := by
  rw [toUtf8_cons, length_append, String.length_utf8EncodeChar]

theorem length_toUtf8_le (cs : List Char) : (toUtf8 cs).length ≤ 4 * cs.length := by
  induction cs with
  | nil => exact Nat.le_refl _
  | cons c cs ih =>
    have hs := c.utf8Size_le_four
    rw [length_toUtf8_cons, length_cons]
    omega

theorem utf8EncodeChar_of_ascii (h : c.toNat < 128) : String.utf8EncodeChar c = [asciiByte c] := by
  have hle : c.val.toNat ≤ 127 := Nat.lt_succ_iff.mp h
  unfold String.utf8EncodeChar
  exact if_pos hle

/-- The bytes of other characters are no ASCII. -/
theorem exists_utf8EncodeChar (h : 128 ≤ c.toNat) :
    ∃ b bytes, String.utf8EncodeChar c = b :: bytes ∧ 128 ≤ b.toNat := by
  have hn : ¬ c.val.toNat ≤ 127 := Nat.not_le_of_lt h
  unfold String.utf8EncodeChar
  dsimp only
  rw [if_neg hn]
  split_ifs
  · refine ⟨_, _, rfl, ?_⟩
    rw [UInt8.toNat_ofNat']
    omega
  · refine ⟨_, _, rfl, ?_⟩
    rw [UInt8.toNat_ofNat']
    omega
  · refine ⟨_, _, rfl, ?_⟩
    rw [UInt8.toNat_ofNat']
    omega

theorem toNat_asciiByte (h : c.toNat < 128) : (asciiByte c).toNat = c.toNat := by
  rw [asciiByte, UInt8.toNat_ofNat']
  omega

theorem asciiByte_injective {d : Char} (hc : c.toNat < 128) (hd : d.toNat < 128)
    (h : asciiByte c = asciiByte d) : c = d := by
  have hb := congrArg UInt8.toNat h
  rw [toNat_asciiByte hc, toNat_asciiByte hd] at hb
  exact Char.toNat_inj.mp hb

theorem toUtf8_of_ascii (h : ∀ c ∈ cs, c.toNat < 128) : toUtf8 cs = cs.map asciiByte := by
  induction cs with
  | nil => rfl
  | cons c cs ih =>
    obtain ⟨hc, hcs⟩ := forall_mem_cons.mp h
    rw [toUtf8_cons, utf8EncodeChar_of_ascii hc, ih hcs]
    rfl

/-- Bytes of ASCII at the head of a text are characters of it. -/
theorem exists_of_toUtf8_eq_append (h : toUtf8 cs = bytes ++ tail) (ha : ∀ b ∈ bytes, b.toNat < 128)
    :
    ∃ w rest, cs = w ++ rest ∧ (∀ c ∈ w, c.toNat < 128) ∧ bytes = w.map asciiByte ∧
      tail = toUtf8 rest := by
  induction bytes generalizing cs with
  | nil => exact ⟨[], cs, rfl, fun c hc => absurd hc not_mem_nil, rfl, h.symm⟩
  | cons b bytes ih =>
    obtain ⟨hb, hby⟩ := forall_mem_cons.mp ha
    cases cs with
    | nil => cases h
    | cons c cs =>
      rw [toUtf8_cons] at h
      rcases Nat.lt_or_ge c.toNat 128 with hc | hc
      · rw [utf8EncodeChar_of_ascii hc, cons_append, cons_append, nil_append,
          cons.injEq] at h
        obtain ⟨rfl, hr⟩ := h
        obtain ⟨w, rest, rfl, hw, rfl, ht⟩ := ih hr hby
        exact ⟨c :: w, rest, rfl, forall_mem_cons.mpr ⟨hc, hw⟩, rfl, ht⟩
      · obtain ⟨fst, os, he, hf⟩ := exists_utf8EncodeChar hc
        rw [he, cons_append, cons_append, cons.injEq] at h
        rw [h.1] at hf
        exact absurd hb (Nat.not_lt_of_le hf)

/-! Slices. -/

/-- The text from a position in bytes, which has to be a boundary of characters. -/
def charsFrom : ℕ → List Char → Option (List Char)
  | 0, cs => some cs
  | _ + 1, [] => none
  | offset + 1, c :: cs =>
    if c.utf8Size ≤ offset + 1 then charsFrom (offset + 1 - c.utf8Size) cs else none

/-- The characters of so many bytes at the head of a text. -/
def charsUpTo : ℕ → List Char → Option (List Char)
  | 0, _ => some []
  | _ + 1, [] => none
  | count + 1, c :: cs =>
    if c.utf8Size ≤ count + 1 then (charsUpTo (count + 1 - c.utf8Size) cs).map (c :: ·) else none

theorem charsFrom_toUtf8 : charsFrom (toUtf8 w).length (w ++ rest) = some rest := by
  induction w with
  | nil => exact charsFrom.eq_1 rest
  | cons c w ih =>
    have hp := c.utf8Size_pos
    rw [length_toUtf8_cons, cons_append]
    obtain ⟨n, hn⟩ := Nat.exists_eq_add_one.mpr (Nat.add_pos_left hp (toUtf8 w).length)
    have hl : n + 1 - c.utf8Size = (toUtf8 w).length := by omega
    rw [hn, charsFrom, if_pos (by omega), hl, ih]

theorem charsUpTo_toUtf8 : charsUpTo (toUtf8 w).length (w ++ rest) = some w := by
  induction w with
  | nil => exact charsUpTo.eq_1 rest
  | cons c w ih =>
    have hp := c.utf8Size_pos
    rw [length_toUtf8_cons, cons_append]
    obtain ⟨n, hn⟩ := Nat.exists_eq_add_one.mpr (Nat.add_pos_left hp (toUtf8 w).length)
    have hl : n + 1 - c.utf8Size = (toUtf8 w).length := by omega
    rw [hn, charsUpTo, if_pos (by omega), hl, ih]
    rfl

theorem drop_toUtf8 : (toUtf8 (w ++ rest)).drop (toUtf8 w).length = toUtf8 rest := by
  rw [toUtf8_append, drop_left]

end FocalDesk.Library
