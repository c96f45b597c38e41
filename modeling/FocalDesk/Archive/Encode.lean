import FocalDesk.Archive.Extract
import Mathlib.Tactic.Tauto

/-! What an encoder writes before a tar entry, and how the parsers read it back. -/
namespace FocalDesk.Archive
open Library List Option

/-- So many digits of a number. -/
def digits (radix : ℕ) : ℕ → ℕ → List UInt8
  | 0, _ => []
  | count + 1, n => digits radix count (n / radix) ++ [UInt8.ofNat (48 + n % radix)]

/-- A field of a header, filled up with zeros. -/
def zeroPadded (length : ℕ) (bytes : List UInt8) : List UInt8 :=
  bytes ++ List.replicate (length - bytes.length) 0

/-- What a header holds besides its type, its size and its checksum. -/
structure TarFields where
  name : List UInt8
  folder : List UInt8
  owner : List UInt8
  mtime : List UInt8
  link : List UInt8
  padding : List UInt8
  name_length : name.length ≤ 100
  name_zero : 0 ∉ name
  folder_length : folder.length ≤ 155
  folder_zero : 0 ∉ folder
  owner_length : owner.length = 24
  mtime_length : mtime.length = 12
  link_length : link.length = 188
  padding_length : padding.length = 12

namespace TarFields

variable (fields : TarFields) (flag : UInt8) (size : ℕ)

def beforeChecksum : List UInt8 :=
  zeroPadded 100 fields.name ++ fields.owner ++ (digits 8 11 size ++ [0]) ++ fields.mtime

def afterChecksum : List UInt8 :=
  [flag] ++ fields.link ++ zeroPadded 155 fields.folder ++ fields.padding

/-- The checksum with blanks in its own place. -/
def sum : ℕ :=
  ((fields.beforeChecksum size ++ List.replicate 8 32 ++ fields.afterChecksum flag).map
    UInt8.toNat).sum

def header : List UInt8 :=
  fields.beforeChecksum size ++ (digits 8 6 (fields.sum flag size) ++ [0, 32]) ++
    fields.afterChecksum flag

/-- The path of a header with a prefix. -/
def rawPath : List UInt8 :=
  if fields.folder = [] then fields.name else fields.folder ++ 47 :: fields.name

end TarFields

variable {fields : TarFields} {flag : UInt8} {size radix count n : ℕ}

/-! Digits. -/

@[simp] theorem length_digits : (digits radix count n).length = count := by
  induction count generalizing n with
  | zero => rfl
  | succ count ih => rw [digits, length_append, ih, length_singleton]

theorem exists_of_mem_digits (hr : 0 < radix) {byte : UInt8} (h : byte ∈ digits radix count n) :
    ∃ d < radix, byte = UInt8.ofNat (48 + d) := by
  induction count generalizing n with
  | zero => cases h
  | succ count ih =>
    rcases mem_append.mp h with h | h
    · exact ih h
    · exact ⟨n % radix, Nat.mod_lt n hr, mem_singleton.mp h⟩

/-- The bytes of digits are digits. -/
theorem bounds_of_mem_digits (hr : 0 < radix) (ht : radix ≤ 10) {byte : UInt8}
    (h : byte ∈ digits radix count n) : 48 ≤ byte.toNat ∧ byte.toNat < 58 := by
  obtain ⟨d, hd, rfl⟩ := exists_of_mem_digits hr h
  rw [UInt8.toNat_ofNat']
  omega

theorem digitValue_ofNat (ht : radix ≤ 10) {d : ℕ} (hd : d < radix) :
    digitValue radix (Char.ofNat (UInt8.ofNat (48 + d)).toNat) = some d := by
  have hs : ∀ d < 10, ('0' ≤ Char.ofNat (UInt8.ofNat (48 + d)).toNat) ∧
      (Char.ofNat (UInt8.ofNat (48 + d)).toNat).toNat - 48 = d := by decide
  obtain ⟨hz, hv⟩ := hs d (by omega)
  rw [digitValue, if_pos ⟨hz, by rwa [hv]⟩, hv]

theorem parseDigits_digits (hr : 0 < radix) (ht : radix ≤ 10) {bound : ℕ}
    (hc : n < radix ^ count) (hb : n < bound) :
    parseDigits radix bound 0 ((digits radix count n).map fun byte => Char.ofNat byte.toNat) =
      some n := by
  induction count generalizing n with
  | zero =>
    obtain rfl : n = 0 := by simpa using hc
    rfl
  | succ count ih =>
    have hd : n / radix < radix ^ count := by
      rw [Nat.div_lt_iff_lt_mul hr, ← Nat.pow_succ]
      exact hc
    have hv : n / radix * radix + n % radix = n := Nat.div_add_mod' n radix
    rw [digits, map_append, parseDigits_append,
      ih hd (Nat.lt_of_le_of_lt (Nat.div_le_self n radix) hb)]
    simp only [map_cons, map_nil, bind_some, parseDigits,
      digitValue_ofNat ht (Nat.mod_lt n hr), hv, if_pos hb]

theorem parseBytes_digits (hr : 0 < radix) (ht : radix ≤ 10) (hpo : 0 < count)
    (hc : n < radix ^ count) (hb : n < 18446744073709551616) :
    parseBytes radix (digits radix count n) = some n := by
  have hne : (digits radix count n).map (fun byte => Char.ofNat byte.toNat) ≠ [] := by
    intro hn
    have hl := congrArg List.length hn
    simp only [length_map, length_digits, length_nil] at hl
    omega
  have hh : ((digits radix count n).map fun byte => Char.ofNat byte.toNat).head? ≠ some '+' := by
    intro hp
    obtain ⟨byte, hby, heq⟩ := mem_map.mp (mem_of_mem_head? hp)
    obtain ⟨d, hd, rfl⟩ := exists_of_mem_digits hr hby
    have hs : ∀ d < 10, Char.ofNat (UInt8.ofNat (48 + d)).toNat ≠ '+' := by decide
    exact hs d (by omega) heq
  unfold parseBytes fromStrRadix
  simp only [if_neg hh, if_neg hne]
  exact parseDigits_digits hr ht hc hb

/-- A number with zeros or blanks behind it. -/
theorem parseTarNumber_digits (hp : 0 < count) {tail : List UInt8}
    (ht : ∀ byte ∈ tail, trimmed byte) (hc : n < 8 ^ count)
    (hb : n < 18446744073709551616) : parseTarNumber (digits 8 count n ++ tail) = .ok n := by
  have hdg : ∀ byte ∈ digits 8 count n, trimmed byte = false ∧ byte &&& 0x80 = 0 := by
    intro byte hby
    obtain ⟨d, hd, rfl⟩ := exists_of_mem_digits (by decide) hby
    have hs : ∀ d < 8, trimmed (UInt8.ofNat (48 + d)) = false ∧
        UInt8.ofNat (48 + d) &&& 0x80 = 0 := by decide
    exact hs d hd
  obtain ⟨fst, rest, hdi⟩ : ∃ fst rest, digits 8 count n = fst :: rest := by
    rcases hli : digits 8 count n with _ | ⟨fst, rest⟩
    · have hle := congrArg List.length hli
      rw [length_digits, length_nil] at hle
      omega
    · exact ⟨fst, rest, rfl⟩
  have hf := hdg fst (hdi ▸ mem_cons_self)
  have hst : (digits 8 count n ++ tail).dropWhile trimmed = digits 8 count n ++ tail := by
    rw [hdi, cons_append, dropWhile_cons_of_neg (by simp [hf.1])]
  have he : ((digits 8 count n ++ tail).reverse.dropWhile trimmed).reverse = digits 8 count n := by
    rw [reverse_append, dropWhile_append_of_pos (by simpa using ht)]
    rcases hl : (digits 8 count n).reverse with _ | ⟨last, os⟩
    · rw [hdi] at hl
      simp at hl
    · have hm : last ∈ digits 8 count n := by
        rw [← mem_reverse, hl]
        exact mem_cons_self
      rw [dropWhile_cons_of_neg (by simp [(hdg last hm).1]), ← hl, reverse_reverse]
  have hh : ¬ ((digits 8 count n ++ tail).head?.any fun byte => byte &&& 0x80 ≠ 0) := by
    rw [hdi]
    simp [hf.2]
  unfold parseTarNumber
  rw [if_neg hh]
  simp only [hst, he, parseBytes_digits (by decide) (by decide) hp hc hb]
  rw [if_neg (by rw [hdi]; exact cons_ne_nil _ _)]

/-! Headers. -/

theorem slice_append {pre middle after : List UInt8} {start stop : ℕ}
    (hs : pre.length = start) (hst : start + middle.length = stop) :
    slice start stop (pre ++ middle ++ after) = middle := by
  subst hs hst
  rw [slice, ← length_append, take_left, drop_left]

theorem length_zeroPadded {length : ℕ} {bytes : List UInt8} (h : bytes.length ≤ length) :
    (zeroPadded length bytes).length = length := by
  rw [zeroPadded, length_append, length_replicate]
  omega

theorem nulTerminated_append {bytes : List UInt8} (h : 0 ∉ bytes) (count : ℕ) :
    nulTerminated (bytes ++ List.replicate count 0) = bytes := by
  unfold nulTerminated
  rw [takeWhile_append_of_pos]
  · cases count with
    | zero => simp
    | succ count => simp [replicate_succ]
  · intro byte hb
    have hne : byte ≠ 0 := by
      rintro rfl
      exact h hb
    simpa using hne

namespace TarFields

theorem length_beforeChecksum : (fields.beforeChecksum size).length = 148 := by
  simp only [beforeChecksum, length_append, length_zeroPadded fields.name_length,
    fields.owner_length, fields.mtime_length, length_digits, length_singleton]

theorem length_afterChecksum : (fields.afterChecksum flag).length = 356 := by
  simp only [afterChecksum, length_append, length_zeroPadded fields.folder_length,
    fields.link_length, fields.padding_length, length_singleton]

theorem length_header : (fields.header flag size).length = 512 := by
  simp only [header, length_append, length_beforeChecksum, length_afterChecksum,
    length_digits, length_cons, length_nil]

/-- No sum of so many bytes is longer than its field. -/
theorem sum_toNat_le (bytes : List UInt8) : (bytes.map UInt8.toNat).sum ≤ 255 * bytes.length := by
  induction bytes with
  | nil => exact Nat.le_refl 0
  | cons byte bytes ih =>
    have hb : byte.toNat < 256 := byte.toNat_lt
    simp only [map_cons, sum_cons, length_cons]
    omega

theorem sum_lt : fields.sum flag size < 8 ^ 6 := by
  have hs := sum_toNat_le
    (fields.beforeChecksum size ++ List.replicate 8 32 ++ fields.afterChecksum flag)
  simp only [length_append, length_beforeChecksum, length_afterChecksum, length_replicate] at hs
  exact Nat.lt_of_le_of_lt hs (by decide)

theorem checksum_header : checksum (fields.header flag size) = fields.sum flag size := by
  have hl : (fields.beforeChecksum size ++
      (digits 8 6 (fields.sum flag size) ++ [0, 32])).length = 156 := by
    simp only [length_append, length_beforeChecksum, length_digits, length_cons, length_nil]
  have ht : (fields.header flag size).take 148 = fields.beforeChecksum size := by
    rw [header, append_assoc, take_left' length_beforeChecksum]
  have hd : (fields.header flag size).drop 156 = fields.afterChecksum flag := by
    rw [header, drop_left' hl]
  rw [checksum, ht, hd]
  rfl

theorem validate_header : validateTarChecksum (fields.header flag size) = .ok () := by
  have hs : slice 148 156 (fields.header flag size) =
      digits 8 6 (fields.sum flag size) ++ [0, 32] :=
    slice_append length_beforeChecksum (by simp)
  have hp : parseTarNumber (slice 148 156 (fields.header flag size)) =
      .ok (fields.sum flag size) := by
    rw [hs]
    exact parseTarNumber_digits (by decide) (by simp [trimmed]) sum_lt (Nat.lt_trans sum_lt (by omega))
  simp only [validateTarChecksum, hp, checksum_header, if_true]

theorem size_header (hs : size < 8 ^ 11) :
    parseTarNumber (slice 124 136 (fields.header flag size)) = .ok size := by
  have hsl : slice 124 136 (fields.header flag size) = digits 8 11 size ++ [0] := by
    have hh : fields.header flag size = (zeroPadded 100 fields.name ++ fields.owner) ++
        (digits 8 11 size ++ [0]) ++ (fields.mtime ++
          ((digits 8 6 (fields.sum flag size) ++ [0, 32]) ++ fields.afterChecksum flag)) := by
      simp only [header, beforeChecksum, append_assoc]
    rw [hh]
    apply slice_append
    · rw [length_append, length_zeroPadded fields.name_length, fields.owner_length]
    · rw [length_append, length_digits, length_singleton]
  rw [hsl]
  exact parseTarNumber_digits (by decide) (by simp [trimmed]) hs (Nat.lt_trans hs (by omega))

theorem typeFlag_header : typeFlag (fields.header flag size) = flag := by
  have hl : (fields.beforeChecksum size ++
      (digits 8 6 (fields.sum flag size) ++ [0, 32])).length = 156 := by
    simp only [length_append, length_beforeChecksum, length_digits, length_cons, length_nil]
  unfold typeFlag
  rw [getD_eq_getElem?_getD, header, getElem?_append_right (Nat.le_of_eq hl), hl]
  rfl

theorem path_header (hne : fields.rawPath ≠ []) :
    tarHeaderPath (fields.header flag size) = .ok fields.rawPath := by
  have hn : slice 0 100 (fields.header flag size) = zeroPadded 100 fields.name := by
    have hh : fields.header flag size = [] ++ zeroPadded 100 fields.name ++ (fields.owner ++
        ((digits 8 11 size ++ [0]) ++ (fields.mtime ++
          ((digits 8 6 (fields.sum flag size) ++ [0, 32]) ++ fields.afterChecksum flag)))) := by
      simp only [header, beforeChecksum, append_assoc, nil_append]
    rw [hh]
    apply slice_append length_nil
    rw [length_zeroPadded fields.name_length]
  have hf : slice 345 500 (fields.header flag size) = zeroPadded 155 fields.folder := by
    have hh : fields.header flag size = (fields.beforeChecksum size ++
        ((digits 8 6 (fields.sum flag size) ++ [0, 32]) ++ ([flag] ++ fields.link))) ++
          zeroPadded 155 fields.folder ++ fields.padding := by
      simp only [header, afterChecksum, append_assoc]
    rw [hh]
    apply slice_append
    · simp only [length_append, length_beforeChecksum, length_digits, fields.link_length,
        length_cons, length_nil]
    · rw [length_zeroPadded fields.folder_length]
  unfold tarHeaderPath
  simp only [hn, hf, zeroPadded, nulTerminated_append fields.name_zero,
    nulTerminated_append fields.folder_zero]
  exact if_neg hne

/-- A header is no end mark. -/
theorem header_not_blank : blank (fields.header flag size) = false := by
  obtain ⟨fst, rest, hd⟩ : ∃ fst rest, digits 8 11 size = fst :: rest := by
    rcases hl : digits 8 11 size with _ | ⟨fst, rest⟩
    · have hle := congrArg List.length hl
      rw [length_digits, length_nil] at hle
      omega
    · exact ⟨fst, rest, rfl⟩
  have hf : fst ∈ digits 8 11 size := by
    rw [hd]
    exact mem_cons_self
  rw [Bool.eq_false_iff]
  intro hbl
  have hm : fst ∈ fields.header flag size := by
    simp only [header, beforeChecksum, mem_append, hf, true_or, or_true]
  have hz : fst = 0 := of_decide_eq_true (all_eq_true.mp hbl fst hm)
  have hb := bounds_of_mem_digits (by decide) (by decide) hf
  rw [hz] at hb
  exact absurd hb.1 (by decide)

end TarFields

/-! The records of a PAX header. -/

/-- A keyword with a value, and how many digits its length is written with. -/
structure PaxRecord where
  width : ℕ
  key : List UInt8
  value : List UInt8
  fits : width + key.length + value.length + 3 < 10 ^ width
  key_equals : 61 ∉ key

namespace PaxRecord

def length (record : PaxRecord) : ℕ :=
  record.width + record.key.length + record.value.length + 3

def encode (record : PaxRecord) : List UInt8 :=
  digits 10 record.width record.length ++ 32 :: (record.key ++ 61 :: record.value ++ [10])

/-- The bytes of `path`. -/
def pathKey : List UInt8 := [112, 97, 116, 104]

def isPath (record : PaxRecord) : Bool := record.key = pathKey

variable {r : PaxRecord} {rest : List UInt8} {path : Option (List UInt8)}

theorem length_encode : r.encode.length = r.length := by
  simp only [encode, length, length_append, length_cons, length_nil, length_digits]
  omega

theorem width_pos : 0 < r.width := by
  rcases Nat.eq_zero_or_pos r.width with hz | hp
  · have hf := r.fits
    rw [hz] at hf
    omega
  · exact hp

theorem paxPathValue_body :
    paxPathValue (r.key ++ 61 :: r.value ++ [10]) =
      if r.isPath then some r.value else none := by
  have hl : (r.key ++ 61 :: r.value ++ [10]).getLast? = some 10 := by
    rw [getLast?_append]
    rfl
  unfold paxPathValue
  simp only [hl, if_true, dropLast_concat]
  by_cases hp : r.key = pathKey
  · have hs : paxPathKey <+: r.key ++ 61 :: r.value := by
      rw [hp]
      exact ⟨r.value, rfl⟩
    rw [if_pos hs, isPath, if_pos (decide_eq_true hp), hp]
    rfl
  · have hs : ¬ paxPathKey <+: r.key ++ 61 :: r.value := by
      rintro ⟨value, hv⟩
      -- The first equals sign ends the keyword on both sides.
      have hsp : pathKey ++ 61 :: value = r.key ++ 61 :: r.value := hv
      have ht := congrArg (List.takeWhile (· ≠ 61)) hsp
      rw [takeWhile_append_of_pos (by simp [pathKey]), takeWhile_append_of_pos] at ht
      · simp only [ne_eq, not_true_eq_false, decide_false, takeWhile_cons,
          Bool.false_eq_true, if_false, append_nil] at ht
        exact hp ht.symm
      · intro byte hb
        have hne : byte ≠ 61 := by
          rintro rfl
          exact r.key_equals hb
        simpa using hne
    rw [if_neg hs, isPath, if_neg (by simpa using hp)]

theorem idxOf?_append_cons {byte : UInt8} {front : List UInt8} (h : ∀ other ∈ front, other ≠ byte) :
    (front ++ byte :: rest).idxOf? byte = some front.length := by
  induction front with
  | nil => simp [idxOf?_cons]
  | cons other front ih =>
    have ho : (other == byte) = false := by simpa using h other mem_cons_self
    rw [cons_append, idxOf?_cons, ho, ih fun later hl => h later (mem_cons_of_mem other hl)]
    rfl

theorem idxOf?_encode : (r.encode ++ rest).idxOf? 32 = some r.width := by
  have hd : ∀ byte ∈ digits 10 r.width r.length, byte ≠ 32 := by
    rintro byte hby rfl
    have hb := bounds_of_mem_digits (by decide) (by decide) hby
    exact absurd hb.1 (by decide)
  rw [encode, append_assoc, cons_append, idxOf?_append_cons hd, length_digits]

/-- One record is read, and the rest remains. -/
theorem parsePaxRecords_encode (hsi : r.length < 18446744073709551616) (fuel : ℕ) :
    parsePaxRecords (fuel + 1) (r.encode ++ rest) path =
      parsePaxRecords fuel rest (if r.isPath then some r.value else path) := by
  have hne : r.encode ++ rest ≠ [] := by
    simp [encode]
  have ht : (r.encode ++ rest).take r.width = digits 10 r.width r.length := by
    rw [encode, append_assoc, take_left' length_digits]
  have hpa : parseBytes 10 (digits 10 r.width r.length) = some r.length :=
    parseBytes_digits (by decide) (by decide) width_pos r.fits hsi
  have hd : (r.encode ++ rest).drop r.length = rest := drop_left' length_encode
  have hs : slice (r.width + 1) r.length (r.encode ++ rest) =
      r.key ++ 61 :: r.value ++ [10] := by
    have he : r.encode ++ rest = (digits 10 r.width r.length ++ [32]) ++
        (r.key ++ 61 :: r.value ++ [10]) ++ rest := by
      simp [encode]
    rw [he]
    apply slice_append
    · rw [length_append, length_digits, length_singleton]
    · simp only [length, length_append, length_cons, length_nil]
      omega
  have hb : ¬ (r.length = 0 ∨ (r.encode ++ rest).length < r.length ∨
      r.length ≤ r.width + 1) := by
    rw [length_append, length_encode]
    unfold length
    omega
  rw [parsePaxRecords, if_neg hne]
  simp only [idxOf?_encode, ht, hpa, if_neg hb, hd, hs, paxPathValue_body]
  by_cases hp : r.isPath
  · simp only [hp, if_true, orElse_some]
  · simp only [hp, if_false, orElse_none, Bool.false_eq_true]

end PaxRecord

/-- The last path of some records. -/
def paxPath (records : List PaxRecord) (path : Option (List UInt8)) : Option (List UInt8) :=
  records.foldl (fun path record => if record.isPath then some record.value else path) path

def encodePax (records : List PaxRecord) : List UInt8 := records.flatMap PaxRecord.encode

theorem parsePaxRecords_encodePax (records : List PaxRecord) (path : Option (List UInt8))
    (hs : (encodePax records).length < 18446744073709551616) (fuel : ℕ)
    (hf : (encodePax records).length ≤ fuel) :
    parsePaxRecords fuel (encodePax records) path = .ok (paxPath records path) := by
  induction records generalizing fuel path with
  | nil =>
    cases fuel with
    | zero => rfl
    | succ fuel => rfl
  | cons record records ih =>
    have he : encodePax (record :: records) = record.encode ++ encodePax records := rfl
    have hl : (encodePax (record :: records)).length =
        record.length + (encodePax records).length := by
      rw [he, length_append, PaxRecord.length_encode]
    have hp : 0 < record.length := by
      unfold PaxRecord.length
      omega
    rw [hl] at hs hf
    obtain ⟨fuel, rfl⟩ : ∃ n, fuel = n + 1 := ⟨fuel - 1, by omega⟩
    rw [he, PaxRecord.parsePaxRecords_encode (by omega)]
    exact ih _ (by omega) fuel (by omega)

theorem parsePaxPath_encodePax (records : List PaxRecord)
    (hs : (encodePax records).length < 18446744073709551616) :
    parsePaxPath (encodePax records) = .ok (paxPath records none) :=
  parsePaxRecords_encodePax records none hs _ (Nat.le_refl _)

/-! The loop over the offset. -/

/-- The records from an offset on, with the additions of `usize`: none when one of them overflows
or when a slice is out of range. -/
def paxLoop (data : List UInt8) :
    ℕ → ℕ → Option (List UInt8) → Option (Except IoError (Option (List UInt8)))
  | 0, _, path => some (.ok path)
  | fuel + 1, offset, path =>
    if data.length ≤ offset then some (.ok path)
    else match (data.drop offset).idxOf? 32 with
      | none => some (.error (unsafeEntry "invalid PAX metadata"))
      | some index =>
        let space := offset + index
        match parseBytes 10 (slice offset space data) with
        | none => some (.error (unsafeEntry "invalid PAX record length"))
        | some length =>
          if length = 0 then some (.error (unsafeEntry "invalid PAX record"))
          else if 18446744073709551616 ≤ offset + length then none
          else if data.length < offset + length ∨ offset + length ≤ space + 1 then
            some (.error (unsafeEntry "invalid PAX record"))
          else if offset + length < space + 1 ∨ data.length < offset + length then none
          else paxLoop data fuel (offset + length)
            ((paxPathValue (slice (space + 1) (offset + length) data)).orElse fun _ => path)

/-- The digits of a record and its body: the number is the length of the record to its last byte,
and there is a body. -/
def StatesLength (record : List UInt8 × List UInt8) : Prop :=
  32 ∉ record.1 ∧ record.2 ≠ [] ∧
    parseBytes 10 record.1 = some (record.1.length + 1 + record.2.length)

def paxBytes (records : List (List UInt8 × List UInt8)) : List UInt8 :=
  records.flatMap fun record => record.1 ++ 32 :: record.2

def lastPath (records : List (List UInt8 × List UInt8)) (path : Option (List UInt8)) :
    Option (List UInt8) :=
  records.foldl (fun path record => (paxPathValue record.2).orElse fun _ => path) path

/-- A record whose length, added to the offset it starts at, is no `usize`. -/
def Overflows (data : List UInt8) : Prop :=
  ∃ records digits body length, (∀ record ∈ records, StatesLength record) ∧
    data = paxBytes records ++ digits ++ 32 :: body ∧ 32 ∉ digits ∧
      parseBytes 10 digits = some length ∧ 18446744073709551616 ≤ (paxBytes records).length + length

variable {data ds body rest : List UInt8} {records : List (List UInt8 × List UInt8)}
  {path v : Option (List UInt8)} {fuel off len : ℕ}

theorem exists_of_idxOf? {i : ℕ} (h : data.idxOf? 32 = some i) :
    ∃ ds body, data = ds ++ 32 :: body ∧ 32 ∉ ds := by
  induction data generalizing i with
  | nil => cases h
  | cons byte data ih =>
    by_cases hb : byte = 32
    · exact ⟨[], data, by rw [hb, nil_append], not_mem_nil⟩
    · rw [idxOf?_cons, if_neg (by simpa using hb)] at h
      obtain ⟨j, hj, -⟩ := map_eq_some_iff.mp h
      obtain ⟨ds, body, rfl, hd⟩ := ih hj
      refine ⟨byte :: ds, body, rfl, fun hm => ?_⟩
      exact (mem_cons.mp hm).elim (fun he => hb he.symm) hd

/-- What the loop makes of a record with a number. -/
theorem paxLoop_record (hr : data.drop off = ds ++ 32 :: body) (hd : 32 ∉ ds)
    (hp : parseBytes 10 ds = some len) : paxLoop data (fuel + 1) off path =
      if len = 0 then some (.error (unsafeEntry "invalid PAX record"))
      else if 18446744073709551616 ≤ off + len then none
      else if ds.length + 1 + body.length < len ∨ len ≤ ds.length + 1 then
        some (.error (unsafeEntry "invalid PAX record"))
      else paxLoop data fuel (off + len)
        ((paxPathValue (body.take (len - (ds.length + 1)))).orElse fun _ => path) := by
  have hidx : (data.drop off).idxOf? 32 = some ds.length := by
    rw [hr]
    exact PaxRecord.idxOf?_append_cons fun other ho he => hd (he ▸ ho)
  have hlen := congrArg List.length hr
  rw [length_drop, length_append, length_cons] at hlen
  have hdig : slice off (off + ds.length) data = ds := by
    rw [slice, drop_take, hr, Nat.add_sub_cancel_left, take_left]
  have hbody : slice (off + ds.length + 1) (off + len) data =
      body.take (len - (ds.length + 1)) := by
    rw [slice, drop_take, Nat.add_assoc, ← drop_drop, hr, append_cons,
      drop_left' (by rw [length_append, length_singleton]),
      Nat.add_sub_add_left]
  rw [paxLoop, if_neg (by omega)]
  simp only [hidx, hdig, hp, hbody]
  by_cases hz : len = 0
  · rw [if_pos hz, if_pos hz]
  by_cases ho : 18446744073709551616 ≤ off + len
  · rw [if_neg hz, if_neg hz, if_pos ho, if_pos ho]
  rw [if_neg hz, if_neg hz, if_neg ho, if_neg ho]
  by_cases hc : ds.length + 1 + body.length < len ∨ len ≤ ds.length + 1
  · rw [if_pos hc, if_pos (by omega)]
  · rw [if_neg hc, if_neg (by omega), if_neg (by omega)]

/-- What is accepted is a list of records, and a failing addition is one of a record. -/
theorem paxLoop_sound (path : Option (List UInt8)) (done : List (List UInt8 × List UInt8))
    (hd : ∀ record ∈ done, StatesLength record) (hdata : data = paxBytes done ++ rest)
    (hf : rest.length ≤ fuel) :
    (∀ v, paxLoop data fuel (paxBytes done).length path = some (.ok v) →
      ∃ records, (∀ record ∈ records, StatesLength record) ∧ rest = paxBytes records ∧
        v = lastPath records path) ∧
    (paxLoop data fuel (paxBytes done).length path = none → Overflows data) := by
  induction fuel generalizing done rest path with
  | zero =>
    obtain rfl := length_eq_zero_iff.mp (Nat.le_zero.mp hf)
    refine ⟨fun v hv => ⟨[], by simp, rfl, ?_⟩, fun h => by cases h⟩
    cases hv
    rfl
  | succ fuel ih =>
    have hdrop : data.drop (paxBytes done).length = rest := by rw [hdata, drop_left]
    by_cases hr : rest = []
    · have hle : data.length ≤ (paxBytes done).length := by rw [hdata, hr, append_nil]
      rw [paxLoop, if_pos hle]
      refine ⟨fun v hv => ⟨[], by simp, hr, ?_⟩, fun h => by cases h⟩
      cases hv
      rfl
    have hlt : ¬ data.length ≤ (paxBytes done).length := by
      have := length_pos_of_ne_nil hr
      rw [hdata, length_append]
      omega
    cases hidx : rest.idxOf? 32 with
    | none => simp [paxLoop, if_neg hlt, hdrop, hidx]
    | some i =>
      obtain ⟨ds, body, rfl, hdig⟩ := exists_of_idxOf? hidx
      cases hp : parseBytes 10 ds with
      | none =>
        have hi : (ds ++ 32 :: body).idxOf? 32 = some ds.length :=
          PaxRecord.idxOf?_append_cons fun other ho he => hdig (he ▸ ho)
        have hs : slice (paxBytes done).length ((paxBytes done).length + ds.length) data =
            ds := by
          rw [slice, drop_take, hdrop, Nat.add_sub_cancel_left, take_left]
        simp [paxLoop, if_neg hlt, hdrop, hi, hs, hp]
      | some len =>
        rw [paxLoop_record hdrop hdig hp]
        split_ifs with hz ho hc
        · exact ⟨fun _ h => (by cases h), fun h => (by cases h)⟩
        · exact ⟨fun _ h => (by cases h), fun _ => ⟨done, ds, body, len, hd,
            by rw [hdata, append_assoc], hdig, hp, ho⟩⟩
        · exact ⟨fun _ h => (by cases h), fun h => (by cases h)⟩
        · obtain ⟨content, tail, rfl, hl⟩ : ∃ content tail, body = content ++ tail ∧
              content.length = len - (ds.length + 1) :=
            ⟨_, _, (take_append_drop (len - (ds.length + 1)) body).symm,
              by rw [length_take]; omega⟩
          have hst : StatesLength (ds, content) := by
            refine ⟨hdig, ne_nil_of_length_pos (show 0 < content.length by omega), ?_⟩
            show parseBytes 10 ds = some (ds.length + 1 + content.length)
            rw [hp, hl]
            congr 1
            omega
          have hnext : paxBytes (done ++ [(ds, content)]) =
              paxBytes done ++ (ds ++ 32 :: content) := by simp [paxBytes]
          have hlen : (paxBytes (done ++ [(ds, content)])).length =
              (paxBytes done).length + len := by
            rw [hnext]
            simp only [length_append, length_cons]
            omega
          have hf' : tail.length ≤ fuel := by
            simp only [length_append, length_cons] at hf
            omega
          obtain ⟨hok, hnone⟩ := ih _ _
            (forall_mem_append.mpr ⟨hd, forall_mem_singleton.mpr hst⟩)
            (by rw [hnext, hdata]; simp) hf'
          rw [hlen] at hok hnone
          rw [← hl, take_left]
          refine ⟨fun v hv => ?_, hnone⟩
          obtain ⟨records, hall, rfl, rfl⟩ := hok v hv
          exact ⟨(ds, content) :: records, forall_mem_cons.mpr ⟨hst, hall⟩,
            by simp [paxBytes], rfl⟩

theorem paxLoop_complete (hs : data.length < 18446744073709551616)
    (hr : ∀ record ∈ records, StatesLength record) (ho : off ≤ data.length)
    (hdata : data.drop off = paxBytes records) (hf : (paxBytes records).length ≤ fuel) :
    paxLoop data fuel off path = some (.ok (lastPath records path)) := by
  induction records generalizing fuel off path with
  | nil =>
    have hl := congrArg List.length hdata
    rw [length_drop] at hl
    cases fuel with
    | zero => rfl
    | succ fuel =>
      rw [paxLoop, if_pos (by simpa using Nat.le_of_sub_eq_zero hl)]
      rfl
  | cons record records ih =>
    obtain ⟨⟨hdig, hne, hp⟩, hall⟩ := forall_mem_cons.mp hr
    have hcons : paxBytes (record :: records) =
        record.1 ++ 32 :: (record.2 ++ paxBytes records) := by simp [paxBytes]
    have hlen : (paxBytes (record :: records)).length =
        record.1.length + 1 + record.2.length + (paxBytes records).length := by
      rw [hcons]
      simp only [length_append, length_cons]
      omega
    have hl := congrArg List.length hdata
    rw [length_drop, hlen] at hl
    have hpos := length_pos_of_ne_nil hne
    obtain ⟨fuel, rfl⟩ : ∃ n, fuel = n + 1 := ⟨fuel - 1, by omega⟩
    rw [paxLoop_record (hdata.trans hcons) hdig hp, if_neg (by omega), if_neg (by omega),
      if_neg (by rw [length_append]; omega), Nat.add_sub_cancel_left, take_left]
    refine ih hall (by omega) ?_ (by omega)
    rw [← drop_drop, hdata, hcons, append_cons, ← append_assoc]
    exact drop_left' (by simp only [length_append, length_singleton])

/-- The loop fails to answer only where a length overflows, and accepts the lists of records. -/
theorem parse_pax_path_exact (data : List UInt8) (hs : data.length < 2 ^ 63) :
    (paxLoop data data.length 0 none = none → Overflows data) ∧
    ∀ path, paxLoop data data.length 0 none = some (.ok path) ↔
      ∃ records, (∀ record ∈ records, StatesLength record) ∧ data = paxBytes records ∧
        path = lastPath records none := by
  obtain ⟨hok, hnone⟩ := paxLoop_sound none [] (by simp) rfl (Nat.le_refl data.length)
  refine ⟨hnone, fun path => ⟨hok path, ?_⟩⟩
  rintro ⟨records, hr, rfl, rfl⟩
  exact paxLoop_complete (by omega) hr (Nat.zero_le _) rfl (Nat.le_refl _)

theorem parse_pax_path_exact_path :
    ∃ records, (∀ record ∈ records, StatesLength record) ∧
      [57, 32, 112, 97, 116, 104, 61, 97, 10] = paxBytes records ∧
      some [97] = lastPath records none :=
  ((parse_pax_path_exact [57, 32, 112, 97, 116, 104, 61, 97, 10] (by decide)).2 (some [97])).mp rfl

/-- A record without a body is rejected, and the length of a record may overflow. -/
theorem empty_body_rejected :
    (parseBytes 10 [50] = some 2 ∧ ∃ error, paxLoop [50, 32] 2 0 none = some (.error error)) ∧
      paxLoop [52, 32, 97, 10, 49, 56, 52, 52, 54, 55, 52, 52, 48, 55, 51, 55, 48, 57, 53, 53, 49,
        54, 49, 53, 32, 97] 26 0 none = none :=
  ⟨⟨rfl, _, rfl⟩, rfl⟩

end FocalDesk.Archive
