import FocalDesk.Text
import Mathlib.Algebra.Order.Ring.Nat

/-! The indented JSON text that `to_vec_pretty` writes. -/
namespace FocalDesk
open List

variable {cs : List Char} {parts : List String} {k n : ℕ}

/-- What a character becomes between the quotes. -/
def escapeChar (c : Char) : List Char :=
  if c = '"' then ['\\', '"']
  else if c = '\\' then ['\\', '\\']
  else if c.toNat = 8 then ['\\', 'b']
  else if c.toNat = 9 then ['\\', 't']
  else if c.toNat = 10 then ['\\', 'n']
  else if c.toNat = 12 then ['\\', 'f']
  else if c.toNat = 13 then ['\\', 'r']
  else if c.toNat < 32 then
    ['\\', 'u', '0', '0', hexDigit (c.toNat / 16), hexDigit (c.toNat % 16)]
  else [c]

def quoted (s : String) : String :=
  "\"" ++ String.ofList (s.toList.flatMap escapeChar) ++ "\""

def indentation (depth : ℕ) : String := String.ofList (List.replicate (2 * depth) ' ')

/-- The lines of an array or an object, each after the first behind a comma. -/
def commaLines (depth : ℕ) : List String → String
  | [] => ""
  | [part] => indentation depth ++ part
  | part :: parts => indentation depth ++ part ++ ",\n" ++ commaLines depth parts

/-- What stands between two brackets at a depth. -/
def bracketed (depth : ℕ) (left right : String) (parts : List String) : String :=
  if parts.isEmpty then left ++ right
  else left ++ "\n" ++ commaLines (depth + 1) parts ++ "\n" ++ indentation depth ++ right

def prettyArray (depth : ℕ) (items : List String) : String := bracketed depth "[" "]" items

def prettyObject (depth : ℕ) (members : List (String × String)) : String :=
  bracketed depth "\x7b" "\x7d" (members.map fun member => quoted member.1 ++ ": " ++ member.2)

/-! Lengths. -/

theorem byteLen_append (s t : String) : byteLen (s ++ t) = byteLen s + byteLen t :=
  String.utf8ByteSize_append

theorem byteLen_ofList_le {width : ℕ} (h : ∀ c ∈ cs, c.utf8Size ≤ width) :
    byteLen (String.ofList cs) ≤ width * cs.length := by
  induction cs with
  | nil => simp [byteLen]
  | cons c cs ih =>
    obtain ⟨hc, hcs⟩ := forall_mem_cons.mp h
    have hco : String.ofList (c :: cs) = String.singleton c ++ String.ofList cs := by
      rw [String.singleton_eq_ofList, ← String.ofList_append]
      rfl
    have ih := ih hcs
    simp only [byteLen, hco, String.utf8ByteSize_append, String.utf8ByteSize_singleton,
      length_cons, Nat.mul_succ] at ih ⊢
    omega

theorem length_le_byteLen (s : String) : s.toList.length ≤ byteLen s := by
  have hl : ∀ cs : List Char, cs.length ≤ byteLen (String.ofList cs) := by
    intro cs
    induction cs with
    | nil => exact Nat.zero_le _
    | cons c cs ih =>
      have hc : String.ofList (c :: cs) = String.singleton c ++ String.ofList cs := by
        rw [String.singleton_eq_ofList, ← String.ofList_append]
        rfl
      have hp := c.utf8Size_pos
      simp only [byteLen, hc, String.utf8ByteSize_append, String.utf8ByteSize_singleton,
        length_cons] at ih ⊢
      omega
  simpa using hl s.toList

theorem length_escapeChar_le (c : Char) : (escapeChar c).length ≤ 6 := by
  unfold escapeChar
  repeat' split
  all_goals simp

theorem byteLen_quoted_le (s : String) : byteLen (quoted s) ≤ 24 * byteLen s + 2 := by
  have hf : ∀ cs : List Char, (cs.flatMap escapeChar).length ≤ 6 * cs.length := by
    intro cs
    induction cs with
    | nil => simp
    | cons c cs ih =>
      have := length_escapeChar_le c
      simp only [flatMap_cons, length_append, length_cons]
      omega
  have hw : byteLen (String.ofList (s.toList.flatMap escapeChar)) ≤
      4 * (s.toList.flatMap escapeChar).length :=
    byteLen_ofList_le fun c _ => c.utf8Size_le_four
  have he := hf s.toList
  have hc := length_le_byteLen s
  have hq : byteLen "\"" = 1 := rfl
  simp only [quoted, byteLen_append, hq]
  omega

/-- Many lines make a long text. -/
theorem le_byteLen_commaLines (h : ∀ part ∈ parts, k ≤ byteLen part) :
    parts.length * k ≤ byteLen (commaLines n parts) := by
  induction parts with
  | nil => simp
  | cons part parts ih =>
    obtain ⟨hpa, hp⟩ := forall_mem_cons.mp h
    have ih := ih hp
    rw [length_cons, Nat.succ_mul]
    cases parts with
    | nil =>
      simp only [commaLines, byteLen_append, length_nil]
      omega
    | cons next parts =>
      simp only [commaLines, byteLen_append] at ih ⊢
      omega

theorem le_byteLen_bracketed {left right : String} (h : ∀ part ∈ parts, k ≤ byteLen part) :
    parts.length * k ≤ byteLen (bracketed n left right parts) := by
  unfold bracketed
  split
  case isTrue he =>
    rw [List.isEmpty_iff.mp he]
    simp
  case isFalse =>
    have := le_byteLen_commaLines (n := n + 1) h
    simp only [byteLen_append]
    omega

theorem byteLen_le_commaLines {part : String} (h : part ∈ parts) :
    byteLen part ≤ byteLen (commaLines n parts) := by
  induction parts with
  | nil => cases h
  | cons fst parts ih =>
    rcases mem_cons.mp h with rfl | h
    · cases parts <;> simp only [commaLines, byteLen_append] <;> omega
    · have ih := ih h
      cases parts with
      | nil => cases h
      | cons next parts =>
        simp only [commaLines, byteLen_append] at ih ⊢
        omega

theorem byteLen_le_bracketed {left right part : String} (h : part ∈ parts) :
    byteLen part ≤ byteLen (bracketed n left right parts) := by
  unfold bracketed
  split
  case isTrue he =>
    rw [List.isEmpty_iff.mp he] at h
    cases h
  case isFalse =>
    have := byteLen_le_commaLines (n := n + 1) h
    simp only [byteLen_append]
    omega

end FocalDesk
