import FocalDesk.Retrieval.Citations
import Mathlib.Data.List.Perm.Subperm
import Mathlib.Data.List.TakeWhile

/-! Compacting the citations of an answer changes nothing but the numbers. -/
namespace FocalDesk.Retrieval
open Library List Nat

variable {α : Type} {c : Char} {cs digits w rest done content : List Char}
  {lim number : ℕ} {pieces : List Piece}

/-! ### Bytes and characters -/

/-- What holds of all characters of ASCII. -/
theorem ascii_cases {p : Char → Prop} (ha : ∀ n < 128, p (Char.ofNat n)) (h : c.toNat < 128) :
    p c := by
  have hc := ha c.toNat h
  rwa [Char.ofNat_toNat] at hc

theorem lowerByte_asciiByte (h : c.toNat < 128) :
    lowerByte (asciiByte c) = asciiByte (toAsciiLowercaseChar c) :=
  ascii_cases (p := fun c => lowerByte (asciiByte c) = asciiByte (toAsciiLowercaseChar c))
    (by decide +kernel) h

theorem toAsciiLowercaseChar_ascii (h : c.toNat < 128) : (toAsciiLowercaseChar c).toNat < 128 :=
  ascii_cases (p := fun c => (toAsciiLowercaseChar c).toNat < 128) (by decide +kernel) h

theorem isDigitByte_asciiByte (h : c.toNat < 128) :
    isDigitByte (asciiByte c) = isAsciiDigit c :=
  ascii_cases (p := fun c => isDigitByte (asciiByte c) = isAsciiDigit c) (by decide +kernel) h

theorem ascii_of_isAsciiDigit (h : isAsciiDigit c) : c.toNat < 128 := by
  rw [isAsciiDigit, Bool.and_eq_true, decide_eq_true_eq, decide_eq_true_eq] at h
  have hle : c.toNat ≤ '9'.toNat := h.2
  exact Nat.lt_of_le_of_lt hle (by decide)

theorem ascii_of_toAsciiLowercaseChar (h : (toAsciiLowercaseChar c).toNat < 128) :
    c.toNat < 128 := by
  unfold toAsciiLowercaseChar at h
  split_ifs at h with hu
  · rw [isAsciiUppercase, Bool.and_eq_true, decide_eq_true_eq, decide_eq_true_eq] at hu
    have hle : c.toNat ≤ 'Z'.toNat := hu.2
    exact Nat.lt_of_le_of_lt hle (by decide)
  · exact h

theorem map_asciiByte_inj (hcs : ∀ c ∈ cs, c.toNat < 128) (hw : ∀ c ∈ w, c.toNat < 128) :
    cs.map asciiByte = w.map asciiByte ↔ cs = w := by
  refine ⟨fun h => ?_, fun h => by rw [h]⟩
  induction cs generalizing w with
  | nil => exact (map_eq_nil_iff.mp h.symm).symm
  | cons c cs ih =>
    cases w with
    | nil => cases h
    | cons d w =>
      obtain ⟨hc, hcs⟩ := forall_mem_cons.mp hcs
      obtain ⟨hd, hw⟩ := forall_mem_cons.mp hw
      rw [map_cons, map_cons, List.cons.injEq] at h
      rw [asciiByte_injective hc hd h.1, ih hcs hw h.2]

theorem source_ascii : ∀ c ∈ "source ".toList, c.toNat < 128 := by
  have ha : "source ".toList.all (fun c => c.toNat < 128) := by
    rw [String.toList_ofList]
    rfl
  exact fun c hc => of_decide_eq_true (all_eq_true.mp ha c hc)

theorem eqIgnoreAsciiCase_source (h : ∀ c ∈ w, c.toNat < 128) :
    eqIgnoreAsciiCase (w.map asciiByte) sourceBytes ↔
      w.map toAsciiLowercaseChar = "source ".toList := by
  have hl : (w.map asciiByte).map lowerByte =
      (w.map toAsciiLowercaseChar).map asciiByte := by
    rw [map_map, map_map]
    exact map_congr_left fun c hc => lowerByte_asciiByte (h c hc)
  have hs : sourceBytes.map lowerByte = "source ".toList.map asciiByte := by
    rw [String.toList_ofList]
    rfl
  rw [eqIgnoreAsciiCase, beq_iff_eq, hl, hs, map_asciiByte_inj ?_ source_ascii]
  intro c hc
  obtain ⟨d, hd, rfl⟩ := mem_map.mp hc
  exact toAsciiLowercaseChar_ascii (h d hd)

theorem ascii_of_source (h : w.map toAsciiLowercaseChar = "source ".toList) :
    ∀ c ∈ w, c.toNat < 128 := by
  intro c hc
  have hm : toAsciiLowercaseChar c ∈ "source ".toList := by
    rw [← h]
    exact mem_map_of_mem hc
  exact ascii_of_toAsciiLowercaseChar (source_ascii _ hm)

theorem length_of_source (h : w.map toAsciiLowercaseChar = "source ".toList) :
    w.length = 7 := by
  have hl := congrArg List.length h
  rw [length_map] at hl
  exact hl.trans (by simp)

/-! ### Markers -/

theorem markerDigits_of_markerAt (h : MarkerAt cs digits rest) :
    markerDigits (toUtf8 cs) = some digits.length := by
  obtain ⟨⟨w, rfl, hw⟩, hne, hdi⟩ := h
  have ha := ascii_of_source hw
  have hl : (w.map asciiByte).length = 7 := by
    rw [length_map, length_of_source hw]
  have hd : ∀ c ∈ digits, c.toNat < 128 := fun c hc => ascii_of_isAsciiDigit (hdi c hc)
  have hby : toUtf8 ('[' :: (w ++ (digits ++ ']' :: rest))) =
      91 :: (w.map asciiByte ++ (digits.map asciiByte ++ 93 :: toUtf8 rest)) := by
    rw [toUtf8_cons, toUtf8_append, toUtf8_append, toUtf8_cons, toUtf8_of_ascii ha,
      toUtf8_of_ascii hd]
    rfl
  have ht : (digits.map asciiByte ++ 93 :: toUtf8 rest).takeWhile isDigitByte =
      digits.map asciiByte := by
    rw [takeWhile_append_of_pos, takeWhile_cons_of_neg (by decide), append_nil]
    intro b hb
    obtain ⟨c, hc, rfl⟩ := mem_map.mp hb
    rw [isDigitByte_asciiByte (hd c hc), hdi c hc]
  have hdr : (w.map asciiByte ++ (digits.map asciiByte ++ 93 :: toUtf8 rest)).drop 7 =
      digits.map asciiByte ++ 93 :: toUtf8 rest := by rw [← hl, drop_left]
  have hla : (w.map asciiByte ++ (digits.map asciiByte ++ 93 :: toUtf8 rest)).drop
      (7 + (digits.map asciiByte).length) = 93 :: toUtf8 rest := by
    rw [← drop_drop, hdr, drop_left]
  have hs : eqIgnoreAsciiCase
      ((w.map asciiByte ++ (digits.map asciiByte ++ 93 :: toUtf8 rest)).take 7) sourceBytes =
        true := by
    rw [← hl, take_left, eqIgnoreAsciiCase_source ha]
    exact hw
  have hcl : digits.map asciiByte ≠ [] ∧
      ((w.map asciiByte ++ (digits.map asciiByte ++ 93 :: toUtf8 rest)).drop
        (7 + (digits.map asciiByte).length)).head? = some 93 :=
    ⟨by simpa using hne, by rw [hla]; rfl⟩
  rw [hby, markerDigits, if_pos ⟨rfl, hs⟩, hdr, ht]
  dsimp only
  rw [if_pos hcl, length_map]

theorem drop_takeWhile {β : Type} (p : β → Bool) (its : List β) :
    its.drop (its.takeWhile p).length = its.dropWhile p := by
  have hs := takeWhile_append_dropWhile (p := p) (l := its)
  calc its.drop (its.takeWhile p).length
      = (its.takeWhile p ++ its.dropWhile p).drop (its.takeWhile p).length := by rw [hs]
    _ = its.dropWhile p := drop_left

/-- The bytes of a marker, and that all of them are ASCII. -/
theorem exists_markerBytes {bytes : List UInt8} {count : ℕ} (h : markerDigits bytes = some count) :
    ∃ name figures tail, bytes = (91 :: (name ++ (figures ++ [93]))) ++ tail ∧
      eqIgnoreAsciiCase name sourceBytes ∧ figures ≠ [] ∧
        (∀ b ∈ figures, isDigitByte b) ∧ figures.length = count := by
  cases bytes with
  | nil => cases h
  | cons b bytes =>
    rw [markerDigits] at h
    dsimp only at h
    split_ifs at h with ho hcl
    obtain ⟨rfl, hs⟩ := ho
    obtain ⟨hne, hl⟩ := hcl
    refine ⟨bytes.take 7, (bytes.drop 7).takeWhile isDigitByte,
      ((bytes.drop 7).dropWhile isDigitByte).tail, ?_, hs, hne,
      fun b hb => mem_takeWhile_imp hb, Option.some.inj h⟩
    rw [← drop_drop, drop_takeWhile] at hl
    have hc : 93 :: ((bytes.drop 7).dropWhile isDigitByte).tail =
        (bytes.drop 7).dropWhile isDigitByte := cons_head?_tail hl
    rw [cons_append, append_assoc, append_assoc, cons_append, nil_append,
      hc, takeWhile_append_dropWhile, take_append_drop]

theorem ascii_of_lowerByte {b : UInt8} (h : (lowerByte b).toNat < 128) : b.toNat < 128 := by
  unfold lowerByte at h
  split_ifs at h with hu
  · omega
  · exact h

theorem ascii_of_eqIgnoreAsciiCase {name : List UInt8}
    (h : eqIgnoreAsciiCase name sourceBytes) : ∀ b ∈ name, b.toNat < 128 := by
  rw [eqIgnoreAsciiCase, beq_iff_eq] at h
  intro b hb
  have hm : lowerByte b ∈ sourceBytes.map lowerByte := by
    rw [← h]
    exact mem_map_of_mem hb
  have hs : (sourceBytes.map lowerByte).all (fun d => d.toNat < 128) := by decide
  exact ascii_of_lowerByte (of_decide_eq_true (all_eq_true.mp hs _ hm))

theorem exists_markerAt {count : ℕ} (h : markerDigits (toUtf8 cs) = some count) :
    ∃ digits rest, MarkerAt cs digits rest ∧ digits.length = count := by
  obtain ⟨name, figures, tail, hby, hna, hne, hfi, rfl⟩ := exists_markerBytes h
  have hn := ascii_of_eqIgnoreAsciiCase hna
  have hf : ∀ b ∈ figures, b.toNat < 128 := by
    intro b hb
    have hdg := of_decide_eq_true (hfi b hb)
    omega
  obtain ⟨all, rest, rfl, ha, heq, -⟩ := exists_of_toUtf8_eq_append hby (by
    refine forall_mem_cons.mpr ⟨by decide, ?_⟩
    refine forall_mem_append.mpr ⟨hn, ?_⟩
    exact forall_mem_append.mpr ⟨hf, forall_mem_singleton.mpr (by decide)⟩)
  obtain ⟨fst, os, rfl, hfr, ho⟩ := map_eq_cons_iff.mp heq.symm
  obtain ⟨w, more, rfl, hwo, hm⟩ := map_eq_append_iff.mp ho
  obtain ⟨digits, lasts, rfl, hdi, hla⟩ := map_eq_append_iff.mp hm
  obtain ⟨last, nothing, rfl, hls, hno⟩ := map_eq_cons_iff.mp hla
  obtain rfl := map_eq_nil_iff.mp hno
  obtain ⟨hfa, ha⟩ := forall_mem_cons.mp ha
  obtain ⟨hw, ha⟩ := forall_mem_append.mp ha
  obtain ⟨hd, ha⟩ := forall_mem_append.mp ha
  have hl := forall_mem_singleton.mp ha
  obtain rfl : fst = '[' := asciiByte_injective hfa (by decide) hfr
  obtain rfl : last = ']' := asciiByte_injective hl (by decide) hls
  subst hwo
  subst hdi
  refine ⟨digits, rest, ⟨⟨w, by simp, ?_⟩, ?_, ?_⟩, by rw [length_map]⟩
  · exact (eqIgnoreAsciiCase_source hw).mp hna
  · rintro rfl
    exact hne rfl
  · intro c hc
    rw [← isDigitByte_asciiByte (hd c hc)]
    exact hfi _ (mem_map_of_mem hc)

/-! ### One marker -/

theorem length_toUtf8_of_ascii (h : ∀ c ∈ cs, c.toNat < 128) : (toUtf8 cs).length = cs.length := by
  rw [toUtf8_of_ascii h, length_map]

/-- The digits of a marker are cut out at boundaries of characters. -/
theorem markerNumber_of_markerAt (done : List Char) (lim : ℕ) (h : MarkerAt cs digits rest) :
    ∃ raw, cs = raw ++ rest ∧
    raw ≠ [] ∧ markerNumber (done ++ cs) lim (toUtf8 done).length = some
      (((fromStrRadix 10 digits).filter fun number => decide (1 ≤ number ∧ number ≤ lim)).map
        fun number => (number, (toUtf8 (done ++ raw)).length)) := by
  have hd := markerDigits_of_markerAt h
  obtain ⟨⟨w, rfl, hw⟩, hne, hal⟩ := h
  have ho : ∀ c ∈ '[' :: w, c.toNat < 128 := forall_mem_cons.mpr ⟨by decide, ascii_of_source hw⟩
  have ha : ∀ c ∈ digits, c.toNat < 128 := fun c hc => ascii_of_isAsciiDigit (hal c hc)
  have hs : (toUtf8 (done ++ '[' :: w)).length = (toUtf8 done).length + 8 := by
    rw [toUtf8_append, length_append, length_toUtf8_of_ascii ho, length_cons, length_of_source hw]
  have hst : (toUtf8 (done ++ '[' :: (w ++ (digits ++ [']'])))).length =
      (toUtf8 done).length + 8 + digits.length + 1 := by
    have hl : ∀ c ∈ [']'], c.toNat < 128 := forall_mem_singleton.mpr (by decide)
    rw [← hs, ← cons_append, ← append_assoc, ← append_assoc, toUtf8_append,
      toUtf8_append, length_append, length_append, length_toUtf8_of_ascii ha,
      length_toUtf8_of_ascii hl, length_singleton]
  refine ⟨'[' :: (w ++ (digits ++ [']'])), by simp, cons_ne_nil _ _, ?_⟩
  have hsl : (charsFrom ((toUtf8 done).length + 8)
      (done ++ '[' :: (w ++ (digits ++ ']' :: rest)))).bind (charsUpTo digits.length) =
        some digits := by
    have hf : done ++ '[' :: (w ++ (digits ++ ']' :: rest)) =
        (done ++ '[' :: w) ++ (digits ++ ']' :: rest) := by simp
    rw [← hs, hf, charsFrom_toUtf8, Option.bind_some, ← length_toUtf8_of_ascii ha, charsUpTo_toUtf8]
  rw [markerNumber, drop_toUtf8, hd]
  dsimp only
  rw [hsl, Option.map_some, hst]

theorem markerNumber_of_citesAt (done : List Char) (h : CitesAt lim cs number rest) :
    ∃ raw, cs = raw ++ rest ∧
    raw ≠ [] ∧ markerNumber (done ++ cs) lim (toUtf8 done).length =
      some (some (number, (toUtf8 (done ++ raw)).length)) := by
  obtain ⟨digits, hm, hn, hr⟩ := h
  obtain ⟨raw, hra, hne, hre⟩ := markerNumber_of_markerAt done lim hm
  refine ⟨raw, hra, hne, ?_⟩
  rw [hre, hn, Option.filter_some, if_pos (decide_eq_true hr), Option.map_some]

theorem markerNumber_of_free (h : ∀ number rest, ¬CitesAt lim cs number rest) :
    markerNumber (done ++ cs) lim (toUtf8 done).length = some none := by
  cases hd : markerDigits (toUtf8 cs) with
  | none =>
    rw [markerNumber, drop_toUtf8, hd]
  | some count =>
    obtain ⟨digits, rest, hm, -⟩ := exists_markerAt hd
    obtain ⟨raw, -, -, hre⟩ := markerNumber_of_markerAt done lim hm
    rw [hre]
    cases hn : fromStrRadix 10 digits with
    | none => rfl
    | some number =>
      have hr : ¬(1 ≤ number ∧ number ≤ lim) := fun hr =>
        h number rest ⟨digits, hm, hn, hr⟩
      rw [Option.filter_some, if_neg (by simpa using hr), Option.map_none]

/-- Every answer has its pieces. -/
theorem exists_reads (lim : ℕ) (n : ℕ) : ∀ cs : List Char, cs.length ≤ n →
    ∃ pieces, Reads lim cs pieces := by
  induction n with
  | zero =>
    intro cs hle
    obtain rfl := length_eq_zero_iff.mp (le_zero.mp hle)
    exact ⟨[], Reads.nil⟩
  | succ n ih =>
    intro cs hle
    by_cases hc : ∃ number rest, CitesAt lim cs number rest
    · obtain ⟨number, rest, hc⟩ := hc
      obtain ⟨raw, rfl, hne, -⟩ := markerNumber_of_citesAt [] hc
      have hpo := length_pos_iff.mpr hne
      rw [length_append] at hle
      obtain ⟨pieces, hp⟩ := ih rest (by omega)
      exact ⟨_, Reads.cited hc hp⟩
    · cases cs with
      | nil => exact ⟨[], Reads.nil⟩
      | cons c cs =>
        obtain ⟨pieces, hp⟩ := ih cs (le_of_succ_le_succ hle)
        exact ⟨_, Reads.text (fun number rest h => hc ⟨number, rest, h⟩) hp⟩

/-! ### The loop -/

/-- The kept citations are those of the numbers, in their order. -/
def Retains (citations : List α) (order : List ℕ) (retained : List α) : Prop :=
  retained.length = order.length ∧
    ∀ place number : ℕ, order[place]? = some number → retained[place]? = citations[number - 1]?

/-- The state of the loop after markers with some numbers. -/
structure Tracks (citations : List α) (order : List ℕ) (s : Citing α) : Prop where
  nodup : order.Nodup
  range : ∀ number ∈ order, 1 ≤ number ∧ number ≤ citations.length
  retains : Retains citations order s.retained
  numbers : ∀ number, getKey number s.sourceNumbers =
    if number ∈ order then some (order.idxOf number + 1) else none

variable {order : List ℕ}

theorem Tracks.cite {citations : List α} {s : Citing α}
    (h : Tracks citations order s) (hpo : 1 ≤ number) (hr : number ≤ citations.length) :
    ∃ t, cite citations number s = some t ∧ Tracks citations (note order number) t ∧
      t.rewritten = s.rewritten ++ marker ((note order number).idxOf number + 1) := by
  unfold Retrieval.cite note
  rw [h.numbers]
  by_cases hm : number ∈ order
  · rw [if_pos hm, if_pos hm]
    exact ⟨_, rfl, ⟨h.nodup, h.range, h.retains, h.numbers⟩, rfl⟩
  · rw [if_neg hm, if_neg hm]
    have hg : citations[number - 1]? = some citations[number - 1] := List.getElem?_eq_getElem _
    have hl : (order ++ [number]).idxOf number = order.length := by
      rw [List.idxOf_append_of_notMem hm, List.idxOf_cons_self, Nat.add_zero]
    rw [hg]
    refine ⟨_, rfl, ⟨?_, ?_, ⟨?_, ?_⟩, ?_⟩, ?_⟩
    · rw [List.nodup_append]
      refine ⟨h.nodup, List.pairwise_singleton _ _, fun other ho last hl => ?_⟩
      rw [List.mem_singleton.mp hl]
      rintro rfl
      exact hm ho
    · exact List.forall_mem_append.mpr ⟨h.range, List.forall_mem_singleton.mpr ⟨hpo, hr⟩⟩
    · rw [List.length_append, List.length_append, h.retains.1, List.length_singleton,
        List.length_singleton]
    · intro place other hp
      rcases Nat.lt_or_ge place order.length with hlt | hge
      · rw [List.getElem?_append_left hlt] at hp
        rw [List.getElem?_append_left (h.retains.1.symm ▸ hlt)]
        exact h.retains.2 place other hp
      · rw [List.getElem?_append_right hge] at hp
        rw [List.getElem?_append_right (h.retains.1.symm ▸ hge), h.retains.1]
        obtain ⟨hz, ho⟩ := List.getElem?_eq_some_iff.mp hp
        rw [List.length_singleton, lt_one_iff] at hz
        rw [hz]
        simp only [hz, List.getElem_cons_zero] at ho
        rw [← ho, hg]
        rfl
    · intro other
      by_cases ho : other = number
      · subst ho
        rw [getKey_putKey_self, if_pos (List.mem_append_right _ (List.mem_singleton_self _)), hl,
          h.retains.1]
      · rw [getKey_putKey_of_ne ho, h.numbers]
        by_cases hk : other ∈ order
        · rw [if_pos hk, if_pos (List.mem_append_left _ hk), List.idxOf_append_of_mem hk]
        · rw [if_neg hk, if_neg]
          rw [List.mem_append, List.mem_singleton, not_or]
          exact ⟨hk, ho⟩
    · dsimp only
      rw [hl, h.retains.1]

/-- The numbers noted while some pieces are read. -/
def noted (order : List ℕ) (pieces : List Piece) : List ℕ :=
  (pieces.filterMap Piece.number).foldl note order

theorem prefix_note (order : List ℕ) (number : ℕ) : order <+: note order number := by
  unfold note
  split_ifs
  · exact prefix_rfl
  · exact prefix_append order [number]

theorem mem_note (order : List ℕ) (number : ℕ) : number ∈ note order number := by
  unfold note
  split_ifs with hm
  · exact hm
  · exact mem_append_right _ (mem_singleton_self _)

theorem prefix_noted (order : List ℕ) (pieces : List Piece) : order <+: noted order pieces := by
  unfold noted
  generalize pieces.filterMap Piece.number = nums
  induction nums generalizing order with
  | nil => exact prefix_rfl
  | cons number nums ih => exact (prefix_note order number).trans (ih _)

theorem idxOf_of_prefix {more : List ℕ} (h : order <+: more) (hm : number ∈ order) :
    more.idxOf number = order.idxOf number := by
  obtain ⟨rest, rfl⟩ := h
  exact idxOf_append_of_mem hm

/-- The loop reads the rest of the text piece by piece. -/
theorem exists_retainLoop {citations : List α} (hre : Reads citations.length cs pieces) :
    ∀ (done : List Char) (order : List ℕ) (s : Citing α), Tracks citations order s →
      ∃ t, Tracks citations (noted order pieces) t ∧
        t.rewritten = s.rewritten ++ render (noted order pieces) pieces ∧
          ∀ rs, (toUtf8 cs).length < rs →
            retainLoop (done ++ cs) citations rs (toUtf8 done).length s = some t := by
  induction hre with
  | nil =>
    intro done order s h
    refine ⟨s, h, (append_nil _).symm, fun rs hr => ?_⟩
    obtain ⟨rs, rfl⟩ := exists_eq_add_one.mpr (zero_lt_of_lt hr)
    rw [retainLoop, append_nil, if_neg (lt_irrefl _)]
  | @text c cs pieces hf hrs ih =>
    intro done order s h
    obtain ⟨t, ht, hw, hru⟩ := ih (done ++ [c]) order
      { s with rewritten := s.rewritten ++ [c] } ⟨h.nodup, h.range, h.retains, h.numbers⟩
    refine ⟨t, ht, ?_, fun rs hr => ?_⟩
    · rw [hw, append_assoc]
      rfl
    · obtain ⟨rs, rfl⟩ := exists_eq_add_one.mpr (zero_lt_of_lt hr)
      have hp := c.utf8Size_pos
      rw [length_toUtf8_cons] at hr
      have hlt : (toUtf8 done).length < (toUtf8 (done ++ c :: cs)).length := by
        rw [toUtf8_append, length_append, length_toUtf8_cons]
        omega
      have hn : (toUtf8 (done ++ [c])).length = (toUtf8 done).length + c.utf8Size := by
        rw [toUtf8_append, length_append, length_toUtf8_cons, toUtf8_nil, length_nil, Nat.add_zero]
      have hco : done ++ c :: cs = (done ++ [c]) ++ cs := by simp
      rw [retainLoop, if_pos hlt, markerNumber_of_free hf, Option.bind_eq_bind, Option.bind_some]
      dsimp only
      rw [charsFrom_toUtf8, Option.bind_eq_bind, Option.bind_some, head?_cons,
        Option.bind_eq_bind, Option.bind_some, ← hn, hco]
      exact hru rs (by omega)
  | @cited cs rest number pieces hc hrs ih =>
    intro done order s h
    obtain ⟨-, -, -, hp, hra⟩ := id hc
    obtain ⟨raw, rfl, hne, hm⟩ := markerNumber_of_citesAt done hc
    obtain ⟨cited, hct, hci, hma⟩ := h.cite hp hra
    obtain ⟨t, ht, hw, hru⟩ := ih (done ++ raw) (note order number) cited hci
    refine ⟨t, ht, ?_, fun rs hr => ?_⟩
    · rw [hw, hma, append_assoc]
      have hi : (noted order (.cited number :: pieces)).idxOf number =
          (note order number).idxOf number :=
        idxOf_of_prefix (prefix_noted (note order number) pieces) (mem_note order number)
      show _ ++ (_ ++ render (noted order (.cited number :: pieces)) pieces) =
        _ ++ (marker ((noted order (.cited number :: pieces)).idxOf number + 1) ++ _)
      rw [hi]
      rfl
    · obtain ⟨rs, rfl⟩ := exists_eq_add_one.mpr (zero_lt_of_lt hr)
      have hrw : 0 < (toUtf8 raw).length := by
        cases raw with
        | nil => exact absurd rfl hne
        | cons c raw =>
          have hp := c.utf8Size_pos
          rw [length_toUtf8_cons]
          omega
      rw [toUtf8_append, length_append] at hr
      have hlt : (toUtf8 done).length < (toUtf8 (done ++ (raw ++ rest))).length := by
        rw [toUtf8_append, toUtf8_append, length_append, length_append]
        omega
      rw [retainLoop, if_pos hlt, hm, Option.bind_eq_bind, Option.bind_some]
      dsimp only
      rw [hct, Option.bind_eq_bind, Option.bind_some, ← append_assoc]
      exact hru rs (by omega)

/-! ### Reading what was written -/

/-- The number of a piece replaced by its place. -/
def Piece.renumber (order : List ℕ) : Piece → Piece
  | .text c => .text c
  | .cited number => .cited (order.idxOf number + 1)

theorem parseDigits_lt {bound acc : ℕ} (ha : acc < bound)
    (h : parseDigits 10 bound acc digits = some number) : number < bound := by
  induction digits generalizing acc with
  | nil =>
    cases h
    exact ha
  | cons c digits ih =>
    rw [parseDigits] at h
    cases hd : digitValue 10 c with
    | none =>
      rw [hd] at h
      cases h
    | some digit =>
      rw [hd] at h
      dsimp only at h
      split_ifs at h with hlt
      exact ih hlt h

theorem fromStrRadix_lt (h : fromStrRadix 10 digits = some number) :
    number < 18446744073709551616 := by
  unfold fromStrRadix at h
  dsimp only at h
  split_ifs at h
  · exact parseDigits_lt (by decide) h
  · exact parseDigits_lt (by decide) h

theorem digitChar_cases {d : ℕ} (h : d < 10) :
    digitValue 10 d.digitChar = some d ∧ isAsciiDigit d.digitChar ∧ d.digitChar ≠ '+' := by
  have ha : ∀ d < 10, digitValue 10 (digitChar d) = some d ∧
      isAsciiDigit (digitChar d) ∧ digitChar d ≠ '+' := by decide
  exact ha d h

theorem parseDigits_toDigits (n : ℕ) {bound : ℕ} (hb : n < bound) :
    parseDigits 10 bound 0 (toDigits 10 n) = some n := by
  induction n using Nat.strongRecOn with
  | ind n ih =>
    rcases Nat.lt_or_ge n 10 with hs | hl
    · rw [toDigits_of_lt_base hs, parseDigits, (digitChar_cases hs).1]
      dsimp only
      rw [Nat.zero_mul, Nat.zero_add, if_pos hb]
      rfl
    · have hla := (digitChar_cases (mod_lt n (by decide : 0 < 10))).1
      rw [toDigits_of_base_le (by decide) hl, parseDigits_append,
        ih (n / 10) (by omega) (by omega), Option.bind_some, parseDigits, hla]
      dsimp only
      rw [div_add_mod', if_pos hb]
      rfl

theorem isAsciiDigit_of_mem_toDigits (n : ℕ) : ∀ c ∈ toDigits 10 n, isAsciiDigit c := by
  induction n using Nat.strongRecOn with
  | ind n ih =>
    rcases Nat.lt_or_ge n 10 with hs | hl
    · rw [toDigits_of_lt_base hs]
      exact forall_mem_singleton.mpr (digitChar_cases hs).2.1
    · rw [toDigits_of_base_le (by decide) hl]
      refine forall_mem_append.mpr ⟨ih (n / 10) (by omega), forall_mem_singleton.mpr ?_⟩
      exact (digitChar_cases (mod_lt n (by decide : 0 < 10))).2.1

theorem fromStrRadix_toDigits {n : ℕ} (h : n < 18446744073709551616) :
    fromStrRadix 10 (toDigits 10 n) = some n := by
  have hp : (toDigits 10 n).head? ≠ some '+' := by
    intro hh
    have hd := isAsciiDigit_of_mem_toDigits n '+' (mem_of_mem_head? hh)
    cases hd
  unfold fromStrRadix
  rw [if_neg hp]
  dsimp only
  rw [if_neg toDigits_ne_nil, parseDigits_toDigits n h]

theorem markerAt_marker (n : ℕ) : MarkerAt (marker n ++ rest) (toDigits 10 n) rest where
  shape := ⟨"source ".toList, by simp [marker], by decide +kernel⟩
  nonempty := toDigits_ne_nil
  digits := isAsciiDigit_of_mem_toDigits n

theorem citesAt_marker {n : ℕ} (hp : 1 ≤ n) (hle : n ≤ lim) (h : n < 18446744073709551616) :
    CitesAt lim (marker n ++ rest) n rest :=
  ⟨_, markerAt_marker n, fromStrRadix_toDigits h, hp, hle⟩

/-- No new bracket is written, so characters without one that were written were read. -/
theorem exists_of_render (hr : Reads lim cs pieces)
    (ho : '[' ∉ w) (h : render order pieces = w ++ rest) : ∃ more, cs = w ++ more := by
  induction w generalizing cs pieces with
  | nil => exact ⟨cs, rfl⟩
  | cons c w ih =>
    rw [mem_cons, not_or] at ho
    cases hr with
    | nil => cases h
    | @text d cs pieces _ hre =>
      obtain ⟨rfl, ht⟩ := List.cons.inj h
      obtain ⟨more, rfl⟩ := ih hre ho.2 ht
      exact ⟨more, rfl⟩
    | cited => exact absurd (List.cons.inj h).1 ho.1 
theorem bracket_notMem_marker (hw : w.map toAsciiLowercaseChar = "source ".toList)
    (hd : ∀ c ∈ digits, isAsciiDigit c) : '[' ∉ w ++ (digits ++ [']']) := by
  intro hm
  rcases mem_append.mp hm with hm | hm
  · have hl : toAsciiLowercaseChar '[' ∈ "source ".toList := by
      rw [← hw]
      exact mem_map_of_mem hm
    exact absurd hl (by decide +kernel)
  · rcases mem_append.mp hm with hm | hm
    · exact absurd (hd _ hm) (by decide)
    · exact absurd (mem_singleton.mp hm) (by decide)

/-- The written text has a marker in range only where a marker in range was read. -/
theorem reads_render (hre : Reads lim cs pieces) (hle : order.length ≤ lim)
    (hb : order.length < 18446744073709551616)
    (hk : ∀ number ∈ pieces.filterMap Piece.number, number ∈ order) :
    Reads order.length (render order pieces) (pieces.map (Piece.renumber order)) := by
  induction hre with
  | nil => exact Reads.nil
  | @text c cs pieces hf hr ih =>
    refine Reads.text (fun number rest hc => ?_) (ih hk)
    obtain ⟨digits, ⟨⟨w, hs, hwo⟩, hne, hd⟩, hn, hp, hra⟩ := hc
    obtain ⟨rfl, ht⟩ := List.cons.inj hs
    have hw : render order pieces = (w ++ (digits ++ [']'])) ++ rest := by
      rw [append_assoc, append_assoc]
      exact ht
    obtain ⟨more, rfl⟩ := exists_of_render hr (bracket_notMem_marker hwo hd) hw
    refine hf number more ⟨digits, ⟨⟨w, ?_, hwo⟩, hne, hd⟩, hn, hp, hra.trans hle⟩
    simp
  | @cited cs rest number pieces hc hr ih =>
    obtain ⟨hm, hk⟩ := forall_mem_cons.mp hk
    have hi := idxOf_lt_length_iff.mpr hm
    exact Reads.cited (citesAt_marker (succ_pos _) hi (Nat.lt_of_le_of_lt hi hb)) (ih hk)

/-! ### Results -/

theorem mem_noted (order : List ℕ) (pieces : List Piece) :
    ∀ number ∈ pieces.filterMap Piece.number, number ∈ noted order pieces := by
  unfold noted
  generalize pieces.filterMap Piece.number = nums
  induction nums generalizing order with
  | nil => exact fun _ hm => absurd hm not_mem_nil
  | cons number nums ih =>
    have hk : ∀ (order nums : List ℕ), order <+: nums.foldl note order := by
      intro order nums
      induction nums generalizing order with
      | nil => exact prefix_rfl
      | cons number nums ih => exact (prefix_note order number).trans (ih _)
    exact forall_mem_cons.mpr ⟨(hk _ nums).subset (mem_note order number), ih (note order number)⟩

/-- The numbers of markers are ones that were parsed. -/
theorem bound_of_reads (hr : Reads lim cs pieces) :
    ∀ number ∈ pieces.filterMap Piece.number, number < 18446744073709551616 := by
  induction hr with
  | nil => exact fun _ hm => absurd hm not_mem_nil
  | text _ _ ih => exact ih
  | cited hc _ ih =>
    obtain ⟨digits, -, hn, -⟩ := hc
    exact forall_mem_cons.mpr ⟨fromStrRadix_lt hn, ih⟩

theorem mem_of_mem_noted (h : number ∈ noted order pieces) :
    number ∈ order ∨ number ∈ pieces.filterMap Piece.number := by
  unfold noted at h
  generalize pieces.filterMap Piece.number = nums at h ⊢
  induction nums generalizing order with
  | nil => exact .inl h
  | cons fst nums ih =>
    rcases ih h with hold | hn
    · unfold note at hold
      split_ifs at hold
      · exact .inl hold
      · rcases mem_append.mp hold with hold | hf
        · exact .inl hold
        · exact .inr (mem_cons.mpr (.inl (mem_singleton.mp hf)))
    · exact .inr (mem_cons_of_mem _ hn)

/-- Renumbered pieces bring the places of the numbers in their order. -/
theorem noted_renumber {seen : List ℕ} (hs : ∀ number ∈ seen, number ∈ order)
    (hk : ∀ number ∈ pieces.filterMap Piece.number, number ∈ order) :
    noted (seen.map fun number => order.idxOf number + 1) (pieces.map (Piece.renumber order)) =
      (noted seen pieces).map fun number => order.idxOf number + 1 := by
  induction pieces generalizing seen with
  | nil => rfl
  | cons piece pieces ih =>
    cases piece with
    | text c => exact ih hs hk
    | cited number =>
      obtain ⟨hm, hk⟩ := forall_mem_cons.mp hk
      have hn : note (seen.map fun number => order.idxOf number + 1) (order.idxOf number + 1) =
          (note seen number).map fun number => order.idxOf number + 1 := by
        have hsa : order.idxOf number + 1 ∈ seen.map (fun number => order.idxOf number + 1) ↔
            number ∈ seen := by
          refine ⟨fun h => ?_, fun h => mem_map_of_mem h⟩
          obtain ⟨other, ho, heq⟩ := mem_map.mp h
          rwa [← (idxOf_inj (hs other ho)).mp (succ.inj heq)]
        unfold note
        by_cases h : number ∈ seen
        · rw [if_pos h, if_pos (hsa.mpr h)]
        · rw [if_neg h, if_neg (hsa.not.mpr h), map_append, map_singleton]
      have hne : ∀ other ∈ note seen number, other ∈ order := by
        unfold note
        split_ifs
        · exact hs
        · exact forall_mem_append.mpr ⟨hs, forall_mem_singleton.mpr hm⟩
      have hr := ih hne hk
      rw [← hn] at hr
      exact hr

theorem map_idxOf (h : order.Nodup) :
    (order.map fun number => order.idxOf number + 1) = List.range' 1 order.length := by
  refine ext_getElem (by simp) fun place hp _ => ?_
  rw [length_map] at hp
  rw [getElem_map, h.idxOf_getElem place hp, getElem_range']
  omega

theorem render_renumber (hk : ∀ number ∈ pieces.filterMap Piece.number, number ∈ order) :
    render (List.range' 1 order.length) (pieces.map (Piece.renumber order)) =
      render order pieces := by
  have hp : ∀ number ∈ order,
      (List.range' 1 order.length).idxOf (order.idxOf number + 1) = order.idxOf number := by
    intro number hm
    have hi := idxOf_lt_length_iff.mpr hm
    have hr : order.idxOf number < (List.range' 1 order.length).length := by simpa using hi
    have hg : (List.range' 1 order.length)[order.idxOf number] = order.idxOf number + 1 := by
      rw [getElem_range']
      omega
    rw [← hg]
    exact (nodup_range' 1).idxOf_getElem _ _
  induction pieces with
  | nil => rfl
  | cons piece pieces ih =>
    cases piece with
    | text c =>
      show c :: render _ _ = c :: render _ _
      rw [ih hk]
    | cited number =>
      obtain ⟨hm, hk⟩ := forall_mem_cons.mp hk
      show marker ((List.range' 1 order.length).idxOf (order.idxOf number + 1) + 1) ++ render _ _ =
        marker (order.idxOf number + 1) ++ render _ _
      rw [hp number hm, ih hk]

theorem tracks_nil (citations : List α) : Tracks citations [] ⟨[], [], []⟩ where
  nodup := nodup_nil
  range _ hmem := absurd hmem not_mem_nil
  retains := ⟨rfl, fun place number h => by cases h⟩
  numbers _ := rfl

/-- For every answer and citations the scanner ends without a slice inside a character, and its
text is the answer with the markers in range renumbered by first appearance. The citation at a
place is the one the number that is now the place had. What it returns comes back unchanged. -/
theorem retainCitedSources_faithful (content : String) (citations : List α) :
    ∃ pieces retained, Reads citations.length content.toList pieces ∧
      (citedNumbers pieces).Nodup ∧ Retains citations (citedNumbers pieces) retained ∧
      (∀ rounds, (toUtf8 content.toList).length < rounds →
        retainCitedSources rounds content citations =
          some (String.ofList (render (citedNumbers pieces) pieces), retained)) ∧
      ∀ rounds, (toUtf8 (render (citedNumbers pieces) pieces)).length < rounds →
        retainCitedSources rounds (String.ofList (render (citedNumbers pieces) pieces)) retained =
          some (String.ofList (render (citedNumbers pieces) pieces), retained) := by
  obtain ⟨pieces, hr⟩ := exists_reads citations.length _ content.toList le_rfl
  obtain ⟨t, ht, hw, hru⟩ := exists_retainLoop hr [] [] _ (tracks_nil citations)
  have hk : ∀ number ∈ pieces.filterMap Piece.number, number ∈ citedNumbers pieces :=
    mem_noted [] pieces
  have hb : (citedNumbers pieces).length ≤ citations.length ∧
      (citedNumbers pieces).length < 18446744073709551616 := by
    have hs : ∀ m, (∀ number ∈ citedNumbers pieces, number ≤ m) →
        (citedNumbers pieces).length ≤ m := by
      intro m hm
      have hpe : citedNumbers pieces ⊆ List.range' 1 m := by
        intro number hn
        have hpo := (ht.range number hn).1
        have hle := hm number hn
        exact mem_range'_1.mpr ⟨hpo, by omega⟩
      calc (citedNumbers pieces).length ≤ (List.range' 1 m).length :=
            (ht.nodup.subperm hpe).length_le
        _ = m := length_range'
    refine ⟨hs _ fun number hn => (ht.range number hn).2, ?_⟩
    have hle := hs 18446744073709551615 fun number hn => by
      rcases mem_of_mem_noted hn with hno | hme
      · cases hno
      · have hlt := bound_of_reads hr number hme
        omega
    omega
  refine ⟨pieces, t.retained, hr, ht.nodup, ht.retains, fun rounds hro => ?_, fun rounds hro => ?_⟩
  · have hrn := hru rounds hro
    rw [nil_append] at hrn hw
    rw [retainCitedSources]
    show (retainLoop content.toList citations rounds 0 _).map _ = _
    rw [show (0 : ℕ) = (toUtf8 []).length from rfl, hrn, Option.map_some, hw]
    rfl
  · have ha := reads_render hr hb.1 hb.2 hk
    have hl : t.retained.length = (citedNumbers pieces).length := ht.retains.1
    rw [← hl] at ha
    obtain ⟨u, hu, hw', hru'⟩ := exists_retainLoop ha [] [] _ (tracks_nil t.retained)
    have ho : noted [] (pieces.map (Piece.renumber (citedNumbers pieces))) =
        List.range' 1 (citedNumbers pieces).length :=
      (noted_renumber (fun _ hme => absurd hme not_mem_nil) hk).trans (map_idxOf ht.nodup)
    rw [ho] at hu
    have hre : u.retained = t.retained := by
      refine ext_getElem? fun place => ?_
      rcases Nat.lt_or_ge place (citedNumbers pieces).length with hlt | hge
      · have hp : (List.range' 1 (citedNumbers pieces).length)[place]? = some (1 + place) := by
          rw [getElem?_range' hlt, Nat.one_mul]
        rw [hu.retains.2 place _ hp, Nat.add_sub_cancel_left]
      · rw [getElem?_eq_none (by rw [hu.retains.1, length_range']; exact hge),
          getElem?_eq_none (by rw [hl]; exact hge)]
    have hrn := hru' rounds hro
    rw [nil_append] at hrn hw'
    rw [ho, render_renumber hk] at hw'
    rw [retainCitedSources, String.toList_ofList]
    show (retainLoop _ t.retained rounds 0 _).map _ = _
    rw [show (0 : ℕ) = (toUtf8 []).length from rfl, hrn, Option.map_some, hw', hre]

end FocalDesk.Retrieval
