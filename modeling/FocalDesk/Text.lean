import FocalDesk.Library.Result
import Mathlib.Data.List.TakeWhile

/-! The string operations the source uses, by their documented behaviour. -/
namespace FocalDesk
open Library List

/-- Unicode `White_Space`, the characters `str::trim` strips. -/
def isWhitespace (c : Char) : Bool :=
  (9 ≤ c.toNat && c.toNat ≤ 13) || (0x2000 ≤ c.toNat && c.toNat ≤ 0x200A) ||
    [0x20, 0x85, 0xA0, 0x1680, 0x2028, 0x2029, 0x202F, 0x205F, 0x3000].contains c.toNat

def trim (s : String) : String :=
  String.ofList ((s.toList.dropWhile isWhitespace).reverse.dropWhile isWhitespace).reverse

/-- `str::len` counts bytes, `chars().count()` characters. -/
def byteLen (s : String) : ℕ := s.utf8ByteSize

def charCount (s : String) : ℕ := s.toList.length

def startsWith (s required : String) : Bool := required.toList.isPrefixOf s.toList

/-- A test of all bytes by an ASCII predicate is one of all characters. -/
def allChars (p : Char → Bool) (s : String) : Bool := s.toList.all p

def isAsciiLowercase (c : Char) : Bool := 'a' ≤ c && c ≤ 'z'

def isAsciiUppercase (c : Char) : Bool := 'A' ≤ c && c ≤ 'Z'

def isAsciiDigit (c : Char) : Bool := '0' ≤ c && c ≤ '9'

def isAsciiAlphanumeric (c : Char) : Bool :=
  isAsciiLowercase c || isAsciiUppercase c || isAsciiDigit c

def isAsciiHexdigit (c : Char) : Bool :=
  isAsciiDigit c || ('a' ≤ c && c ≤ 'f') || ('A' ≤ c && c ≤ 'F')

/-- Identifiers of agents, triggers, workflows, nodes, routines and connectors. -/
def isIdentifier (maxLen : ℕ) (value : String) : Bool :=
  value ≠ "" && byteLen value ≤ maxLen &&
    allChars (fun c => isAsciiLowercase c || isAsciiDigit c || c == '-' || c == '_') value

def validateId (value kind : String) : Except String Unit :=
  bailIf (isIdentifier 64 value = false)
    (kind ++ " id must contain 1-64 lowercase ASCII letters, digits, '-' or '_'")

def toAsciiLowercaseChar (c : Char) : Char :=
  if isAsciiUppercase c then Char.ofNat (c.toNat + 32) else c

def toAsciiLowercase (s : String) : String := String.ofList (s.toList.map toAsciiLowercaseChar)

/-- `str::contains` -/
def containsText (s needle : String) : Bool :=
  s.toList.tails.any fun suffix => needle.toList.isPrefixOf suffix

/-- Replaces the occurrences of a nonempty pattern; `skip` characters of one are left to drop. -/
def replaceChars (pattern replacement : List Char) : ℕ → List Char → List Char
  | _, [] => []
  | skip + 1, _ :: cs => replaceChars pattern replacement skip cs
  | 0, c :: cs =>
    if pattern.isPrefixOf (c :: cs) then
      replacement ++ replaceChars pattern replacement (pattern.length - 1) cs
    else c :: replaceChars pattern replacement 0 cs

def replaceText (s pattern replacement : String) : String :=
  String.ofList (replaceChars pattern.toList replacement.toList 0 s.toList)

/-- `split_whitespace`: the words between whitespace, with the word being read. -/
def splitWords : List Char → List Char → List (List Char)
  | word, [] => if word = [] then [] else [word]
  | word, c :: cs =>
    if isWhitespace c then (if word = [] then [] else [word]) ++ splitWords [] cs
    else splitWords (word ++ [c]) cs

/-- The words of a text joined by single spaces. -/
def joinWords (s : String) : String :=
  String.intercalate " " ((splitWords [] s.toList).map String.ofList)

theorem trim_ne_empty {s : String} {c : Char} (hm : c ∈ s.toList) (hc : isWhitespace c = false)
    : trim s ≠ "" := by
  intro h
  have hl := congrArg String.toList h
  simp only [trim, String.toList_ofList, String.toList_empty, reverse_eq_nil_iff] at hl
  have hk : c ∈ s.toList.dropWhile isWhitespace := by
    rw [← takeWhile_append_dropWhile (p := isWhitespace) (l := s.toList)] at hm
    rcases mem_append.mp hm with hd | hk
    · rw [mem_takeWhile_imp hd] at hc
      cases hc
    · exact hk
  have hb := dropWhile_eq_nil_iff.mp hl c (mem_reverse.mpr hk)
  rw [hc] at hb
  cases hb

/-- A text that is written out, by its characters. -/
theorem text_within {c : Char} {cs : List Char} {n : ℕ} (hc : isWhitespace c = false)
    (hl : cs.length < n) :
    trim (String.ofList (c :: cs)) ≠ "" ∧ charCount (String.ofList (c :: cs)) ≤ n := by
  refine ⟨trim_ne_empty (by rw [String.toList_ofList]; exact mem_cons_self) hc, ?_⟩
  rwa [charCount, String.toList_ofList]

/-! Hexadecimal text of byte strings. -/

def hexDigit (n : ℕ) : Char :=
  if n < 10 then Char.ofNat (48 + n) else Char.ofNat (87 + n)

def hexValue (c : Char) : ℕ :=
  if isAsciiDigit c then c.toNat - 48
  else if isAsciiLowercase c then c.toNat - 87
  else c.toNat - 55

def encodeHexChars (bytes : List UInt8) : List Char :=
  bytes.flatMap fun byte => [hexDigit (byte.toNat / 16), hexDigit (byte.toNat % 16)]

def encodeHex (bytes : List UInt8) : String := String.ofList (encodeHexChars bytes)

def decodeHexChars : List Char → List UInt8
  | high :: low :: rest => UInt8.ofNat (16 * hexValue high + hexValue low) :: decodeHexChars rest
  | _ => []

theorem hexDigit_isAsciiHexdigit : ∀ n < 16, isAsciiHexdigit (hexDigit n) := by decide

theorem hexDigit_utf8Size : ∀ n < 16, (hexDigit n).utf8Size = 1 := by decide

theorem hexValue_hexDigit : ∀ n < 16, hexValue (hexDigit n) = n := by decide

variable (bytes : List UInt8)

@[simp] theorem encodeHexChars_length :
    (encodeHexChars bytes).length = 2 * bytes.length := by
  induction bytes with
  | nil => rfl
  | cons b bs ih =>
    simp only [encodeHexChars, flatMap_cons, length_append, length_cons, length_nil] at ih ⊢
    omega

theorem encodeHexChars_all : (encodeHexChars bytes).all isAsciiHexdigit := by
  have hlt (b : UInt8) : b.toNat < 256 := b.toNat_lt
  simp only [encodeHexChars, all_flatMap, all_cons, all_nil, Bool.and_true,
    all_eq_true, Bool.and_eq_true]
  intro b _
  exact ⟨hexDigit_isAsciiHexdigit _ (by have := hlt b; omega),
    hexDigit_isAsciiHexdigit _ (by omega)⟩

theorem byteLen_ofList {cs : List Char} (h : ∀ c ∈ cs, c.utf8Size = 1) :
    byteLen (String.ofList cs) = cs.length := by
  induction cs with
  | nil => rfl
  | cons c cs ih =>
    obtain ⟨hc, hcs⟩ := forall_mem_cons.mp h
    have hco : String.ofList (c :: cs) = String.singleton c ++ String.ofList cs := by
      rw [String.singleton_eq_ofList, ← String.ofList_append]
      rfl
    have ih := ih hcs
    simp only [byteLen, hco, String.utf8ByteSize_append, String.utf8ByteSize_singleton, hc,
      length_cons] at ih ⊢
    omega

theorem byteLen_encodeHex : byteLen (encodeHex bytes) = 2 * bytes.length := by
  rw [encodeHex, byteLen_ofList, encodeHexChars_length]
  intro c hc
  obtain ⟨b, -, hb⟩ := mem_flatMap.mp hc
  have hlt : b.toNat < 256 := b.toNat_lt
  rcases mem_pair.mp hb with rfl | rfl
  · exact hexDigit_utf8Size _ (by omega)
  · exact hexDigit_utf8Size _ (by omega)

theorem decodeHexChars_encodeHexChars : decodeHexChars (encodeHexChars bytes) = bytes := by
  induction bytes with
  | nil => rfl
  | cons b bs ih =>
    have hlt : b.toNat < 256 := b.toNat_lt
    have hb : 16 * (b.toNat / 16) + b.toNat % 16 = b.toNat := Nat.div_add_mod _ _
    simp only [encodeHexChars, flatMap_cons, cons_append, nil_append, decodeHexChars] at ih ⊢
    rw [hexValue_hexDigit _ (by omega), hexValue_hexDigit _ (by omega), hb, ih]
    simp

end FocalDesk
