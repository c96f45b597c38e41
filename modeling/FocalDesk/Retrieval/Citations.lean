import FocalDesk.Library.AssocList
import FocalDesk.Library.Utf8
import FocalDesk.Integer
import FocalDesk.Text

/-! The source markers of an answer: the scanner over its bytes, and what there is to read. -/
namespace FocalDesk.Retrieval
open Library

variable {α : Type}

def isDigitByte (b : UInt8) : Bool := decide (48 ≤ b.toNat ∧ b.toNat ≤ 57)

def lowerByte (b : UInt8) : UInt8 := if 65 ≤ b.toNat ∧ b.toNat ≤ 90 then b + 32 else b

/-- `[u8]::eq_ignore_ascii_case` -/
def eqIgnoreAsciiCase (bytes others : List UInt8) : Bool :=
  bytes.map lowerByte == others.map lowerByte

/-- The bytes of `source `. -/
def sourceBytes : List UInt8 := [115, 111, 117, 114, 99, 101, 32]

/-- How many digits the marker has that some bytes begin with. -/
def markerDigits : List UInt8 → Option ℕ
  | [] => none
  | b :: bytes =>
    if b = 91 ∧ eqIgnoreAsciiCase (bytes.take 7) sourceBytes = true then
      let digits := (bytes.drop 7).takeWhile isDigitByte
      if digits ≠ [] ∧ (bytes.drop (7 + digits.length)).head? = some 93 then some digits.length
      else none
    else none

/-- The text written so far, the citations that are kept and the numbers they get. -/
structure Citing (α : Type) where
  rewritten : List Char
  retained : List α
  sourceNumbers : List (ℕ × ℕ)

/-- `[source N]` -/
def marker (number : ℕ) : List Char :=
  '[' :: ("source ".toList ++ (Nat.toDigits 10 number ++ [']']))

/-- A marker in range. The index of its citation would panic out of range. -/
def cite (citations : List α) (number : ℕ) (s : Citing α) : Option (Citing α) :=
  match getKey number s.sourceNumbers with
  | some compact => some { s with rewritten := s.rewritten ++ marker compact }
  | none =>
    citations[number - 1]?.map fun citation =>
      { rewritten := s.rewritten ++ marker (s.retained.length + 1)
        retained := s.retained ++ [citation]
        sourceNumbers := putKey number (s.retained.length + 1) s.sourceNumbers }

/-- The digits of a marker, if there is one in range at a position. A slice inside a character
would panic. -/
def markerNumber (content : List Char) (limit offset : ℕ) : Option (Option (ℕ × ℕ)) :=
  match markerDigits ((toUtf8 content).drop offset) with
  | none => some none
  | some count =>
    ((charsFrom (offset + 8) content).bind (charsUpTo count)).map fun digits =>
      ((fromStrRadix 10 digits).filter fun number => decide (1 ≤ number ∧ number ≤ limit)).map
        fun number => (number, offset + 8 + count + 1)

/-- The loop from a position. It has no result when it would panic or the rounds are used up. -/
def retainLoop (content : List Char) (citations : List α) : ℕ → ℕ → Citing α → Option (Citing α)
  | 0, _, _ => none
  | rounds + 1, offset, s =>
    if offset < (toUtf8 content).length then do
      match ← markerNumber content citations.length offset with
      | some (number, next) =>
        let cited ← cite citations number s
        retainLoop content citations rounds next cited
      | none =>
        let rest ← charsFrom offset content
        let character ← rest.head?
        retainLoop content citations rounds (offset + character.utf8Size)
          { s with rewritten := s.rewritten ++ [character] }
    else some s

def retainCitedSources (rounds : ℕ) (content : String) (citations : List α) :
    Option (String × List α) :=
  (retainLoop content.toList citations rounds 0 ⟨[], [], []⟩).map fun s =>
    (String.ofList s.rewritten, s.retained)

/-! ### Reading an answer -/

/-- A marker with some digits stands at the head of a text. -/
structure MarkerAt (cs digits rest : List Char) : Prop where
  shape : ∃ word, cs = '[' :: (word ++ (digits ++ ']' :: rest)) ∧
    word.map toAsciiLowercaseChar = "source ".toList
  nonempty : digits ≠ []
  digits : ∀ c ∈ digits, isAsciiDigit c = true

/-- A marker whose number is one of the citations' stands at the head of a text. -/
def CitesAt (limit : ℕ) (cs : List Char) (number : ℕ) (rest : List Char) : Prop :=
  ∃ digits, MarkerAt cs digits rest ∧ fromStrRadix 10 digits = some number ∧
    1 ≤ number ∧ number ≤ limit

inductive Piece where
  | text (c : Char)
  | cited (number : ℕ)

/-- The pieces of an answer: its markers in range, and the other characters one by one. -/
inductive Reads (limit : ℕ) : List Char → List Piece → Prop
  | nil : Reads limit [] []
  | text {c : Char} {cs : List Char} {pieces : List Piece}
      (hfree : ∀ number rest, ¬CitesAt limit (c :: cs) number rest)
      (hrest : Reads limit cs pieces) : Reads limit (c :: cs) (.text c :: pieces)
  | cited {cs rest : List Char} {number : ℕ} {pieces : List Piece}
      (hcites : CitesAt limit cs number rest)
      (hrest : Reads limit rest pieces) : Reads limit cs (.cited number :: pieces)

def Piece.number : Piece → Option ℕ
  | .text _ => none
  | .cited number => some number

/-- The numbers in the order in which they appear first. -/
def note (order : List ℕ) (number : ℕ) : List ℕ :=
  if number ∈ order then order else order ++ [number]

def citedNumbers (pieces : List Piece) : List ℕ := (pieces.filterMap Piece.number).foldl note []

/-- A piece with its number replaced by the place of it. -/
def Piece.written (order : List ℕ) : Piece → List Char
  | .text c => [c]
  | .cited number => marker (order.idxOf number + 1)

def render (order : List ℕ) (pieces : List Piece) : List Char :=
  pieces.flatMap (Piece.written order)

end FocalDesk.Retrieval
