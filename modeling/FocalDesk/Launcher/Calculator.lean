import FocalDesk.Library.Result
import FocalDesk.Library.Utf8
import FocalDesk.Text
import Mathlib.Data.List.DropRight
import Mathlib.Data.Rat.Defs

/-! The calculator of the launcher, on exact numbers. -/
namespace FocalDesk.ExpressionParser
open Library List Nat

/-- Why a parse stops: it fails, or the steps it was given are used up. -/
inductive Stop where
  | fails
  | fuel

/-- A value and what remains after it. -/
abbrev Parser := List UInt8 → Except Stop (ℚ × List UInt8)

/-- What a byte that is an operator does. -/
abbrev Operators := UInt8 → Option (ℚ → ℚ → Except Stop ℚ)

def isAsciiWhitespace (b : UInt8) : Bool := [32, 9, 10, 12, 13].contains b

def isDigit (b : UInt8) : Bool := 48 ≤ b && b ≤ 57

def whitespace (input : List UInt8) : List UInt8 := input.dropWhile isAsciiWhitespace

/-- The loop over the operators after a value. -/
def chain (operator : Operators) (operand : Parser) : ℕ → ℚ → Parser
  | 0, _, _ => .error .fuel
  | fuel + 1, value, input =>
    match whitespace input with
    | [] => .ok (value, [])
    | b :: rest =>
      match operator b with
      | none => .ok (value, b :: rest)
      | some apply => do
        let next ← operand rest
        let value ← apply value next.1
        chain operator operand fuel value next.2

def operands (operator : Operators) (operand : Parser) (fuel : ℕ) : Parser := fun input => do
  let first ← operand input
  chain operator operand fuel first.1 first.2

inductive Level where
  | expression
  | term

def Level.operator : Level → Operators
  | .expression => fun b =>
    if b = 43 then some fun x y => .ok (x + y)
    else if b = 45 then some fun x y => .ok (x - y)
    else none
  | .term => fun b =>
    if b = 42 then some fun x y => .ok (x * y)
    else if b = 47 then some fun x y => if y = 0 then .error .fails else .ok (x / y)
    else none

def decimal (digits : List UInt8) : ℚ := digits.foldl (fun n b => n * 10 + (b.toNat - 48 : ℕ)) 0

/-- Digits up to the first point, and after it up to the next byte that is no digit. -/
def number (input : List UInt8) : Except Stop (ℚ × List UInt8) :=
  let whole := input.takeWhile isDigit
  let rest := input.dropWhile isDigit
  let fraction := rest.tail.takeWhile isDigit
  if rest.head? = some 46 then
    if whole ++ fraction = [] then .error .fails
    else .ok (decimal (whole ++ fraction) / 10 ^ fraction.length, rest.tail.dropWhile isDigit)
  else if whole = [] then .error .fails
  else .ok (decimal whole, rest)

def factor : ℕ → Parser
  | 0, _ => .error .fuel
  | fuel + 1, input =>
    match whitespace input with
    | [] => .error .fails
    | b :: rest =>
      if b = 43 then factor fuel rest
      else if b = 45 then do
        let next ← factor fuel rest
        .ok (-next.1, next.2)
      else if b = 40 then do
        let next ← operands Level.expression.operator
          (operands Level.term.operator (factor fuel) (fuel + 1)) (fuel + 1) rest
        if (whitespace next.2).head? = some 41 then .ok (next.1, (whitespace next.2).tail)
        else .error .fails
      else number (b :: rest)

def term (fuel : ℕ) : Parser := operands Level.term.operator (factor fuel) (fuel + 1)

def expression (fuel : ℕ) : Parser := operands Level.expression.operator (term fuel) (fuel + 1)

/-- The value of an expression that is the whole input. -/
def parse (input : List UInt8) : Except Stop ℚ := do
  let result ← expression (input.length + 1) input
  if whitespace result.2 = [] then .ok result.1 else .error .fails

def calculate (text : String) : Option ℚ :=
  let input := toUtf8 (trim text).toList
  if input = [] ∨ 128 < input.length ∨ input.all (· ∉ [43, 45, 42, 47]) then none
  else (parse input).toOption

/-! The grammar. -/

inductive Phrase where
  | factor
  | level (level : Level)

def Level.operand : Level → Phrase
  | .expression => .level .term
  | .term => .factor

inductive Applies : Level → UInt8 → ℚ → ℚ → ℚ → Prop
  | add {a c} : Applies .expression 43 a c (a + c)
  | subtract {a c} : Applies .expression 45 a c (a - c)
  | multiply {a c} : Applies .term 42 a c (a * c)
  | divide {a c} (h : c ≠ 0) : Applies .term 47 a c (a / c)

/-- The phrases and their values, with blanks before a factor and after any phrase. -/
inductive Derives : Phrase → List UInt8 → ℚ → Prop
  | integer {w} (hw : ∀ b ∈ w, isDigit b) (hne : w ≠ []) : Derives .factor w (decimal w)
  | point {w s} (hw : ∀ b ∈ w, isDigit b) (hs : ∀ b ∈ s, isDigit b) (hne : w ++ s ≠ []) :
      Derives .factor (w ++ 46 :: s) (decimal (w ++ s) / 10 ^ s.length)
  | plus {w v} : Derives .factor w v → Derives .factor (43 :: w) v
  | minus {w v} : Derives .factor w v → Derives .factor (45 :: w) (-v)
  | group {w v} : Derives (.level .expression) w v → Derives .factor (40 :: (w ++ [41])) v
  | blankBefore {w v b} (hb : isAsciiWhitespace b) :
      Derives .factor w v → Derives .factor (b :: w) v
  | blankAfter {phrase w v b} (hb : isAsciiWhitespace b) :
      Derives phrase w v → Derives phrase (w ++ [b]) v
  | operand {level w v} : Derives (Level.operand level) w v → Derives (.level level) w v
  | operation {level w s a b c v} : Derives (.level level) w a → Applies level b a c v →
      Derives level.operand s c → Derives (.level level) (w ++ b :: s) v

variable {w s input rest left : List UInt8} {v a c : ℚ} {b : UInt8} {fuel m n : ℕ}
  {operand : Parser} {level : Level} {phrase : Phrase}

theorem Applies.operator (h : Applies level b a c v) :
    ∃ apply, level.operator b = some apply ∧ apply a c = .ok v := by
  rcases h with _ | _ | _ | hc
  · exact ⟨_, rfl, rfl⟩
  · exact ⟨_, rfl, rfl⟩
  · exact ⟨_, rfl, rfl⟩
  · exact ⟨_, rfl, if_neg hc⟩

/-! What the parser takes is derived. -/

/-- A computation does not use its steps up, and what it returns meets a condition. -/
def Meets {α : Type} (post : α → Prop) : Except Stop α → Prop
  | .ok y => post y
  | .error stop => stop = .fails

theorem Meets.bind {α β : Type} {p : α → Prop} {q : β → Prop} {x : Except Stop α}
    {f : α → Except Stop β} (hx : Meets p x) (hf : ∀ y, x = .ok y → p y → Meets q (f y)) :
    Meets q (x >>= f) := by
  cases x with
  | error stop => exact hx
  | ok y => exact hf y rfl hx

theorem Meets.mono {α : Type} {p q : α → Prop} {x : Except Stop α} (h : Meets p x)
    (hpq : ∀ y, p y → q y) : Meets q x := by
  cases x with
  | error stop => exact h
  | ok y => exact hpq y h

/-- A parser takes a phrase, from an input below a length. -/
def Parses (n : ℕ) (phrase : Phrase) (parser : Parser) : Prop :=
  ∀ input, input.length < n →
    Meets (fun r => ∃ w, input = w ++ r.2 ∧ Derives phrase w r.1) (parser input)

theorem blanks_after (hs : ∀ b ∈ s, isAsciiWhitespace b) (h : Derives phrase w v) :
    Derives phrase (w ++ s) v := by
  induction s generalizing w with
  | nil => rwa [append_nil]
  | cons b s ih =>
    rw [append_cons]
    exact ih (fun b hb => hs b (mem_cons_of_mem _ hb)) (.blankAfter (hs b mem_cons_self) h)

theorem blanks_before (hs : ∀ b ∈ s, isAsciiWhitespace b) (h : Derives .factor w v) :
    Derives .factor (s ++ w) v := by
  induction s with
  | nil => exact h
  | cons b s ih =>
    exact .blankBefore (hs b mem_cons_self) (ih fun b hb => hs b (mem_cons_of_mem _ hb))

theorem exists_whitespace (input : List UInt8) :
    ∃ s, input = s ++ whitespace input ∧ ∀ b ∈ s, isAsciiWhitespace b :=
  ⟨input.takeWhile isAsciiWhitespace, takeWhile_append_dropWhile.symm,
    fun _ hb => mem_takeWhile_imp hb⟩

theorem applies_meets {apply : ℚ → ℚ → Except Stop ℚ} (ho : level.operator b = some apply) :
    Meets (Applies level b a c) (apply a c) := by
  cases level <;> dsimp only [Level.operator] at ho <;> split_ifs at ho with h h <;> cases ho <;>
    subst h
  · exact .add
  · exact .subtract
  · exact .multiply
  · dsimp only
    split_ifs with hc
    · rfl
    · exact .divide hc

theorem chain_meets (hp : Parses n level.operand operand) (ha : Derives (.level level) w a)
    (hn : input.length < n) (hm : input.length < m) :
    Meets (fun r => ∃ s, input = s ++ r.2 ∧ Derives (.level level) (w ++ s) r.1)
      (chain level.operator operand m a input) := by
  induction m generalizing w a input with
  | zero => cases hm
  | succ m ih =>
    obtain ⟨s, hs, hblank⟩ := exists_whitespace input
    have hw := blanks_after hblank ha
    have hl := congrArg length hs
    rw [length_append] at hl
    rw [chain]
    cases hi : whitespace input with
    | nil => exact ⟨s, hi ▸ hs, hw⟩
    | cons b next =>
      rw [hi, length_cons] at hl
      dsimp only
      cases ho : level.operator b with
      | none => exact ⟨s, hi ▸ hs, hw⟩
      | some apply =>
        refine (hp next (by omega)).bind fun (c, left) _ hx => ?_
        obtain ⟨x, rfl, hx⟩ := hx
        rw [length_append] at hl
        refine (applies_meets ho).bind fun value _ hv => ?_
        refine (ih (.operation hw hv hx) (by omega) (by omega)).mono fun r hr => ?_
        obtain ⟨t, rfl, ht⟩ := hr
        refine ⟨s ++ b :: (x ++ t), ?_, ?_⟩
        · rw [hs, hi]
          simp
        · simpa using ht

theorem operands_meets (hp : Parses n level.operand operand) (hm : n ≤ m) :
    Parses n (.level level) (operands level.operator operand m) := by
  refine fun input hn => (hp input hn).bind fun (a, left) _ hw => ?_
  obtain ⟨w, rfl, hw⟩ := hw
  rw [length_append] at hn
  refine (chain_meets hp (.operand hw) (by omega) (by omega)).mono fun r hr => ?_
  obtain ⟨s, rfl, hs⟩ := hr
  exact ⟨w ++ s, (append_assoc _ _ _).symm, hs⟩

theorem number_meets :
    Meets (fun r => ∃ w, input = w ++ r.2 ∧ Derives .factor w r.1) (number input) := by
  have hw : ∀ b ∈ input.takeWhile isDigit, isDigit b := fun _ hb => mem_takeWhile_imp hb
  have hi := takeWhile_append_dropWhile (p := isDigit) (l := input)
  rw [number]
  split_ifs with hd hne hne
  · rfl
  · obtain ⟨next, hn⟩ := head?_eq_some_iff.mp hd
    rw [hn, tail_cons] at hne ⊢
    refine ⟨input.takeWhile isDigit ++ 46 :: next.takeWhile isDigit, ?_,
      .point hw (fun _ hb => mem_takeWhile_imp hb) hne⟩
    rw [append_assoc, cons_append, takeWhile_append_dropWhile, ← hn, hi]
  · rfl
  · exact ⟨_, hi.symm, .integer hw hne⟩

theorem factor_meets : Parses fuel .factor (factor fuel) := by
  induction fuel with
  | zero => exact fun _ h => absurd h (Nat.not_lt_zero _)
  | succ fuel ih =>
    intro input hn
    obtain ⟨s, hs, hblank⟩ := exists_whitespace input
    suffices h : Meets (fun r => ∃ w, whitespace input = w ++ r.2 ∧ Derives .factor w r.1)
        (factor (fuel + 1) input) by
      refine h.mono fun r hr => ?_
      obtain ⟨w, hi, hw⟩ := hr
      exact ⟨s ++ w, by rw [hs, hi, append_assoc], blanks_before hblank hw⟩
    have hl := congrArg length hs
    rw [length_append] at hl
    rw [factor]
    cases hi : whitespace input with
    | nil => rfl
    | cons b next =>
      rw [hi, length_cons] at hl
      dsimp only
      split_ifs with hb hb hb
      · refine (ih next (by omega)).mono fun r hr => ?_
        obtain ⟨w, rfl, hw⟩ := hr
        exact ⟨b :: w, rfl, hb ▸ .plus hw⟩
      · refine (ih next (by omega)).bind fun r _ hr => ?_
        obtain ⟨w, rfl, hw⟩ := hr
        exact ⟨b :: w, rfl, hb ▸ .minus hw⟩
      · refine (operands_meets (operands_meets ih (le_succ _)) (le_succ _) next
          (by omega)).bind fun r _ hr => ?_
        obtain ⟨w, rfl, hw⟩ := hr
        split_ifs with hc
        · obtain ⟨tail, ht⟩ := head?_eq_some_iff.mp hc
          obtain ⟨t, hl, htb⟩ := exists_whitespace r.2
          refine ⟨b :: (w ++ t ++ [41]), ?_, hb ▸ .group (blanks_after htb hw)⟩
          rw [ht] at hl ⊢
          rw [hl, tail_cons]
          simp
        · rfl
      · exact number_meets

/-! What is derived, the parser takes. -/

def parserOf (fuel : ℕ) : Phrase → Parser
  | .factor => factor fuel
  | .level .term => term fuel
  | .level .expression => expression fuel

theorem parserOf_level (fuel : ℕ) (level : Level) : parserOf fuel (.level level) =
    operands level.operator (parserOf fuel level.operand) (fuel + 1) := by
  cases level <;> rfl

def numeric (b : UInt8) : Bool := isDigit b || b == 46

/-- The bytes that a phrase takes when they come after it. -/
def Phrase.goesOn : Phrase → UInt8 → Bool
  | .factor => numeric
  | .level .term => fun b => numeric b || (Level.term.operator b).isSome
  | .level .expression => fun b => (numeric b || (Level.term.operator b).isSome) ||
      (Level.expression.operator b).isSome

/-- After blanks the input is at its end, or at a byte that does not go on. -/
def Ends (goesOn : UInt8 → Bool) (rest : List UInt8) : Prop :=
  ∀ b ∈ (whitespace rest).head?, goesOn b = false

theorem Ends.of_level (h : Ends (Phrase.level level).goesOn rest) :
    Ends level.operand.goesOn rest ∧ Ends (fun b => (level.operator b).isSome) rest := by
  cases level <;>
    exact ⟨fun b hb => (Bool.or_eq_false_iff.mp (h b hb)).1,
      fun b hb => (Bool.or_eq_false_iff.mp (h b hb)).2⟩

theorem whitespace_of_not (hb : isAsciiWhitespace b = false) :
    whitespace (b :: rest) = b :: rest :=
  dropWhile_cons_of_neg (by rw [hb]; exact Bool.false_ne_true)

theorem Ends.of_cons (hb : isAsciiWhitespace b = false) {p : UInt8 → Bool} (hp : p b = false) :
    Ends p (b :: rest) := by
  intro x hx
  rw [whitespace_of_not hb] at hx
  cases hx
  exact hp

theorem numeric_of_mem :
    ∀ b ∈ ([32, 9, 10, 12, 13] ++ [43, 45, 40] : List UInt8), numeric b = false := by
  simp [numeric, isDigit]

theorem Ends.span (h : Ends numeric rest) : rest.takeWhile isDigit = [] ∧
    rest.dropWhile isDigit = rest ∧ rest.head? ≠ some 46 := by
  cases rest with
  | nil => exact ⟨rfl, rfl, fun h => by cases h⟩
  | cons b rest =>
    have hb : numeric b = false := by
      by_cases hw : isAsciiWhitespace b
      · refine numeric_of_mem b (mem_append_left _ ?_)
        rwa [isAsciiWhitespace, contains_iff_mem] at hw
      · exact h b (by rw [whitespace_of_not (Bool.eq_false_iff.mpr hw)]; rfl)
    rw [numeric, Bool.or_eq_false_iff] at hb
    have hd : ¬ isDigit b := by rw [hb.1]; exact Bool.false_ne_true
    refine ⟨takeWhile_cons_of_neg hd, dropWhile_cons_of_neg hd, fun he => ?_⟩
    rw [head?_cons, Option.some.injEq] at he
    rw [he] at hb
    cases hb.2

theorem number_integer (hw : ∀ b ∈ w, isDigit b) (hne : w ≠ []) (he : Ends numeric rest) :
    number (w ++ rest) = .ok (decimal w, rest) := by
  obtain ⟨ht, hd, hh⟩ := he.span
  rw [number, takeWhile_append_of_pos hw, dropWhile_append_of_pos hw, ht, hd, append_nil,
    if_neg hh, if_neg hne]

theorem number_point (hw : ∀ b ∈ w, isDigit b) (hs : ∀ b ∈ s, isDigit b) (hne : w ++ s ≠ [])
    (he : Ends numeric rest) : number ((w ++ 46 :: s) ++ rest) =
      .ok (decimal (w ++ s) / 10 ^ s.length, rest) := by
  obtain ⟨ht, hd, -⟩ := he.span
  rw [number, append_assoc, takeWhile_append_of_pos hw, dropWhile_append_of_pos hw, cons_append,
    takeWhile_cons_of_neg (by decide), dropWhile_cons_of_neg (by decide), head?_cons, if_pos rfl,
    tail_cons, takeWhile_append_of_pos hs, dropWhile_append_of_pos hs, ht, hd, append_nil,
    append_nil, if_neg hne]

theorem chain_congr {operator : Operators} (h : whitespace left = whitespace rest) :
    chain operator operand m v left = chain operator operand m v rest := by
  cases m with
  | zero => rfl
  | succ m => rw [chain, chain, h]

theorem chain_ends {operator : Operators} (h : Ends (fun b => (operator b).isSome) rest) :
    chain operator operand (m + 1) v rest = .ok (v, whitespace rest) := by
  rw [chain]
  cases hr : whitespace rest with
  | nil => rfl
  | cons b next =>
    have hb := h b (by rw [hr]; rfl)
    rw [Option.isSome_eq_false_iff, Option.isNone_iff_eq_none] at hb
    simp only [hb]

/-- What the parser of a phrase makes of it and what comes after it. -/
def Accepts (fuel : ℕ) : Phrase → List UInt8 → ℚ → Prop
  | .factor, w, v => ∀ rest, Ends numeric rest →
      ∃ left, factor fuel (w ++ rest) = .ok (v, left) ∧ whitespace left = whitespace rest
  | .level level, w, v => ∀ rest, Ends level.operand.goesOn rest → ∃ m, fuel < m + w.length ∧
      parserOf fuel (.level level) (w ++ rest) =
        chain level.operator (parserOf fuel level.operand) m v rest

/-- A phrase that nothing goes on. -/
theorem Accepts.ends (h : Accepts fuel phrase w v) (hf : w.length ≤ fuel)
    (he : Ends phrase.goesOn rest) : ∃ left, parserOf fuel phrase (w ++ rest) = .ok (v, left) ∧
      whitespace left = whitespace rest := by
  cases phrase with
  | factor => exact h rest he
  | level level =>
    obtain ⟨m, hm, ht⟩ := h rest he.of_level.1
    obtain ⟨m, rfl⟩ : ∃ k, m = k + 1 := ⟨m - 1, by omega⟩
    exact ⟨_, ht.trans (chain_ends he.of_level.2), dropWhile_idempotent _ _⟩

theorem Accepts.number (hb : ∀ b ∈ w.head?, numeric b) (hne : w ≠ []) (hf : w.length ≤ fuel)
    (hn : ∀ rest, Ends numeric rest → number (w ++ rest) = .ok (v, rest)) :
    Accepts fuel .factor w v := by
  intro rest he
  obtain ⟨b, w, rfl⟩ := exists_cons_of_ne_nil hne
  obtain ⟨f, rfl⟩ : ∃ f, fuel = f + 1 := ⟨fuel - 1, by rw [length_cons] at hf; omega⟩
  have hm : b ∉ ([32, 9, 10, 12, 13] ++ [43, 45, 40] : List UInt8) := fun hm =>
    Bool.false_ne_true ((numeric_of_mem b hm).symm.trans (hb b rfl))
  simp only [cons_append, nil_append, mem_cons, not_or] at hm
  refine ⟨rest, ?_, rfl⟩
  rw [factor, cons_append, whitespace_of_not (by simp [isAsciiWhitespace, hm])]
  dsimp only
  rw [if_neg hm.2.2.2.2.2.1, if_neg hm.2.2.2.2.2.2.1, if_neg hm.2.2.2.2.2.2.2.1]
  exact hn rest he

theorem Applies.byte (h : Applies level b a c v) :
    isAsciiWhitespace b = false ∧ level.operand.goesOn b = false := by
  cases h <;> exact ⟨rfl, rfl⟩

theorem Accepts.operation (hw : Accepts fuel (.level level) w a) (h : Applies level b a c v)
    (hs : Accepts fuel level.operand s c) (hf : (w ++ b :: s).length ≤ fuel) :
    Accepts fuel (.level level) (w ++ b :: s) v := by
  intro rest he
  rw [length_append, length_cons] at hf
  obtain ⟨apply, ho, hv⟩ := h.operator
  obtain ⟨left, hl, hr⟩ := hs.ends (by omega) he
  obtain ⟨m, hm, ht⟩ := hw (b :: (s ++ rest)) (.of_cons h.byte.1 h.byte.2)
  obtain ⟨m, rfl⟩ : ∃ k, m = k + 1 := ⟨m - 1, by omega⟩
  refine ⟨m, by rw [length_append, length_cons]; omega, ?_⟩
  rw [append_assoc, cons_append, ht, chain, whitespace_of_not h.byte.1, ← chain_congr hr]
  simp only [ho, hl, hv, bind, Except.bind]

theorem Accepts.lift (h : Accepts fuel level.operand w v) (hf : w.length ≤ fuel) :
    Accepts fuel (.level level) w v := by
  intro rest he
  obtain ⟨left, hl, hr⟩ := h.ends hf he
  refine ⟨fuel + 1, by omega, ?_⟩
  rw [parserOf_level, operands, hl, ← chain_congr hr]
  rfl

theorem accepts (h : Derives phrase w v) (hf : w.length ≤ fuel) : Accepts fuel phrase w v := by
  induction h generalizing fuel with
  | @integer w hw hne =>
    refine .number (fun b hb => ?_) hne hf fun rest => number_integer hw hne
    rw [numeric, hw b (mem_of_mem_head? hb), Bool.true_or]
  | @point w s hw hs hne =>
    refine .number (fun b hb => ?_) (by simp) hf fun rest => number_point hw hs hne
    cases w with
    | nil => cases hb; rfl
    | cons d w => cases hb; rw [numeric, hw b mem_cons_self, Bool.true_or]
  | @plus w v _ ih =>
    intro rest he
    obtain ⟨f, rfl⟩ : ∃ f, fuel = f + 1 := ⟨fuel - 1, by rw [length_cons] at hf; omega⟩
    exact ih (le_of_succ_le_succ hf) rest he
  | @minus w v _ ih =>
    intro rest he
    obtain ⟨f, rfl⟩ : ∃ f, fuel = f + 1 := ⟨fuel - 1, by rw [length_cons] at hf; omega⟩
    obtain ⟨left, hl, hw⟩ := ih (le_of_succ_le_succ hf) rest he
    refine ⟨left, ?_, hw⟩
    show (factor f (w ++ rest) >>= fun next => .ok (-next.1, next.2)) = _
    rw [hl]
    rfl
  | @group w v _ ih =>
    intro rest he
    rw [length_cons, length_append] at hf
    obtain ⟨f, rfl⟩ : ∃ f, fuel = f + 1 := ⟨fuel - 1, by omega⟩
    have hw : w.length ≤ f := by omega
    have hc : Ends (Phrase.level .expression).goesOn (41 :: rest) := .of_cons rfl rfl
    obtain ⟨left, hl, hr⟩ := (ih hw).ends hw hc
    refine ⟨rest, ?_, rfl⟩
    show (expression f ((w ++ [41]) ++ rest) >>= _) = _
    rw [append_assoc]
    show (parserOf f (.level .expression) (w ++ 41 :: rest) >>= _) = _
    rw [hl]
    show (if (whitespace left).head? = some 41 then _ else _) = _
    rw [hr]
    rfl
  | @blankBefore w v b hb _ ih =>
    rw [length_cons] at hf
    intro rest he
    obtain ⟨f, rfl⟩ : ∃ f, fuel = f + 1 := ⟨fuel - 1, by omega⟩
    obtain ⟨left, hl, hr⟩ := ih (le_of_succ_le hf) rest he
    refine ⟨left, ?_, hr⟩
    rw [← hl, cons_append, factor, factor, whitespace, dropWhile_cons_of_pos hb]
    rfl
  | @blankAfter phrase w v b hb _ ih =>
    rw [length_append, length_singleton] at hf
    have hw : ∀ rest, whitespace (b :: rest) = whitespace rest := fun _ => dropWhile_cons_of_pos hb
    specialize ih (le_of_succ_le hf)
    cases phrase with
    | factor =>
      intro rest he
      rw [append_assoc, ← hw]
      exact ih (b :: rest) (by rwa [Ends, hw])
    | level level =>
      intro rest he
      obtain ⟨m, hm, ht⟩ := ih (b :: rest) (by rwa [Ends, hw])
      refine ⟨m, by rw [length_append]; omega, ?_⟩
      rw [append_assoc, ← chain_congr (hw rest)]
      exact ht
  | operand _ ih => exact .lift (ih hf) hf
  | operation _ ha _ ihw ihs =>
    have hl := hf
    rw [length_append, length_cons] at hl
    exact .operation (ihw (by omega)) ha (ihs (by omega)) hf

theorem expression_meets : Parses fuel (.level .expression) (expression fuel) :=
  operands_meets (operands_meets factor_meets (le_succ _)) (le_succ _)

theorem parse_eq_ok : parse input = .ok v ↔ Derives (.level .expression) input v := by
  constructor
  · intro h
    obtain ⟨⟨a, rest⟩, ha, hr⟩ := bind_eq_ok.mp h
    have hp := expression_meets input (lt_succ_self _)
    rw [ha] at hp
    obtain ⟨w, rfl, hd⟩ := hp
    dsimp only at hr
    split_ifs at hr with hw
    cases hr
    exact blanks_after (dropWhile_eq_nil_iff.mp hw) hd
  · intro h
    have hf := le_succ input.length
    obtain ⟨left, he, hl⟩ := (accepts h hf).ends hf (fun b hb => (by cases hb) : Ends _ [])
    rw [append_nil] at he
    show (parserOf (input.length + 1) (.level .expression) input >>= _) = _
    rw [he]
    exact if_pos hl

/-- The calculator takes the expressions of the grammar, and its parser ends within the input. -/
theorem calculate_grammar (text : String) :
    (∀ v, calculate text = some v ↔ (toUtf8 (trim text).toList).length ≤ 128 ∧
      (∃ b ∈ toUtf8 (trim text).toList, b ∈ ([43, 45, 42, 47] : List UInt8)) ∧
      Derives (.level .expression) (toUtf8 (trim text).toList) v) ∧
    ∀ input, expression (input.length + 1) input ≠ .error .fuel ∧
      ∀ v rest, expression (input.length + 1) input = .ok (v, rest) → rest <:+ input := by
  refine ⟨fun v => ?_, fun input => ?_⟩
  · rw [calculate]
    generalize toUtf8 (trim text).toList = input
    split_ifs with hc
    · refine ⟨fun h => (by cases h), fun ⟨hl, ⟨b, hb, ho⟩, _⟩ => ?_⟩
      rcases hc with rfl | hlt | hno
      · cases hb
      · omega
      · exact of_decide_eq_true (all_eq_true.mp hno b hb) ho
    · rw [toOption_eq_some, parse_eq_ok]
      simp only [not_or, all_eq_true, decide_eq_true_eq, not_forall, not_not, exists_prop] at hc
      exact ⟨fun h => ⟨Nat.le_of_not_lt hc.2.1, hc.2.2, h⟩, fun h => h.2.2⟩
  · have hp := expression_meets input (lt_succ_self _)
    refine ⟨fun h => ?_, fun v rest h => ?_⟩
    · rw [h] at hp
      cases hp
    · rw [h] at hp
      obtain ⟨w, rfl, -⟩ := hp
      exact suffix_append w rest

theorem nonbreaking_space_taken : ∃ text v, calculate text = some v ∧
    ∀ u, ¬ Derives (.level .expression) (toUtf8 text.toList) u := by
  refine ⟨String.ofList [Char.ofNat 160, '1', '+', '1'], decimal [49] + decimal [49], ?_,
    fun u h => ?_⟩
  · rw [calculate, trim]
    simp only [String.toList_ofList]
    rfl
  · rw [String.toList_ofList] at h
    cases (parse_eq_ok).mpr h

end FocalDesk.ExpressionParser
