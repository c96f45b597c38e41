import FocalDesk.Text
import Mathlib.Data.List.TakeWhile

/-! How a document is cut into chunks, and that nothing of it is lost. -/
namespace FocalDesk.Retrieval
open List Option Nat

/-- `&chars[start..stop]`, which panics on bounds out of order or range. -/
def slice {α : Type*} (items : List α) (start stop : ℕ) : Option (List α) :=
  if start ≤ stop ∧ stop ≤ items.length then some ((items.drop start).take (stop - start)) else none

/-- The index of the last item with a property. -/
def rposition {α : Type*} (p : α → Bool) : List α → Option ℕ
  | [] => none
  | item :: items =>
    match rposition p items with
    | some index => some (index + 1)
    | none => if p item then some 0 else none

/-- The positions of a chunk before blanks are cut off. -/
structure Window where
  start : ℕ
  stop : ℕ
deriving DecidableEq

/-- Where the window ends: behind the last newline of its last quarter, if there is one. -/
def windowEnd (chars : List Char) (maxChars start : ℕ) : Option ℕ :=
  let hardEnd := min (start + maxChars) chars.length
  if hardEnd < chars.length then
    let searchStart := max (hardEnd - maxChars / 4) (start + 1)
    (slice chars searchStart hardEnd).map fun searched =>
      match rposition (· == '\n') searched with
      | some offset => searchStart + offset + 1
      | none => hardEnd
  else some hardEnd

/-- The loop from a start, with its windows and chunks. It has no result when a slice is out of
bounds or the rounds are used up. -/
def chunkLoop (chars : List Char) (maxChars overlapChars : ℕ) :
    ℕ → ℕ → Option (List Window × List String)
  | 0, _ => none
  | rounds + 1, start =>
    if start < chars.length then do
      let stop ← windowEnd chars maxChars start
      let piece ← slice chars start stop
      let chunk := trim (String.ofList piece)
      let chunks := if chunk = "" then [] else [chunk]
      if stop = chars.length then some ([⟨start, stop⟩], chunks)
      else do
        let rest ← chunkLoop chars maxChars overlapChars rounds
          (max (stop - overlapChars) (start + 1))
        some (⟨start, stop⟩ :: rest.1, chunks ++ rest.2)
    else some ([], [])

def chunkDocument (rounds : ℕ) (text : String) (maxChars overlapChars : ℕ) :
    Option (List Window × List String) :=
  if maxChars = 0 ∨ maxChars ≤ overlapChars then some ([], [])
  else chunkLoop text.toList maxChars overlapChars rounds 0

variable {α : Type*} {chars : List Char} {maxChars overlapChars start stop : ℕ} {w : Window}
  {windows : List Window}

theorem slice_eq {its : List α} (ho : start ≤ stop) (hr : stop ≤ its.length) :
    slice its start stop = some ((its.drop start).take (stop - start)) :=
  if_pos ⟨ho, hr⟩

theorem rposition_lt {p : α → Bool} {its : List α} {i : ℕ}
    (h : rposition p its = some i) : i < its.length := by
  induction its generalizing i with
  | nil => cases h
  | cons item its ih =>
    unfold rposition at h
    cases hr : rposition p its with
    | some rest =>
      rw [hr] at h
      cases h
      exact succ_lt_succ (ih hr)
    | none =>
      rw [hr] at h
      dsimp only at h
      split_ifs at h
      cases h
      exact zero_lt_succ _

theorem exists_windowEnd (hm : 0 < maxChars) (hst : start < chars.length) :
    ∃ stop, windowEnd chars maxChars start = some stop ∧ start < stop ∧
      stop ≤ start + maxChars ∧ stop ≤ chars.length ∧
        (stop < chars.length → start + maxChars < chars.length) := by
  unfold windowEnd
  dsimp only
  split_ifs with hs
  · have hor : max (min (start + maxChars) chars.length - maxChars / 4) (start + 1) ≤
        min (start + maxChars) chars.length := by omega
    rw [slice_eq hor hs.le, map_some]
    refine ⟨_, rfl, ?_⟩
    split
    · rename_i offset ho
      have hlt := rposition_lt ho
      rw [length_take, length_drop] at hlt
      omega
    · omega
  · exact ⟨_, rfl, by omega⟩

/-! ### What the windows cover -/

/-- The chunk of a window, if there is more than blanks in it. -/
def chunkOf (chars : List Char) (w : Window) : Option String :=
  let chunk := trim (String.ofList ((chars.drop w.start).take (w.stop - w.start)))
  if chunk = "" then none else some chunk

/-- The windows of a run from a start: they lie in the text, each begins after the one before
and shares at most the overlap with it, and together they cover the rest of the text. There is
more than one only in a text longer than a window. -/
structure Covers (chars : List Char) (maxChars overlapChars start : ℕ) (windows : List Window) :
    Prop where
  inside : ∀ w ∈ windows, w.start < w.stop ∧ w.stop ≤ chars.length ∧ w.stop ≤ w.start + maxChars
  first : ∀ w ∈ windows.head?, w.start = start
  advance : windows.IsChain fun w next =>
    w.start < next.start ∧ next.start ≤ w.stop ∧ w.stop ≤ next.start + overlapChars
  covered : ∀ position, start ≤ position → position < chars.length →
    ∃ w ∈ windows, w.start ≤ position ∧ position < w.stop
  more : ∀ w ∈ windows, w.start = start ∨ start + maxChars < chars.length

theorem covers_nil (h : chars.length ≤ start) : Covers chars maxChars overlapChars start [] where
  inside _ hmem := absurd hmem not_mem_nil
  first _ hmem := by cases hmem
  advance := IsChain.nil
  covered position hs hlt := by omega
  more _ hmem := absurd hmem not_mem_nil

/-- The window that reaches the end of the text is the last one. -/
theorem covers_last (hlt : start < chars.length) (hm : chars.length ≤ start + maxChars) :
    Covers chars maxChars overlapChars start [⟨start, chars.length⟩] where
  inside := by
    rintro w hmem
    rw [mem_singleton.mp hmem]
    exact ⟨hlt, le_rfl, hm⟩
  first := by
    rintro w ⟨⟩
    rfl
  advance := List.IsChain.singleton _
  covered position hs hposition := ⟨_, mem_singleton_self _, hs, hposition⟩
  more w hmem := .inl (by rw [mem_singleton.mp hmem])

theorem Covers.cons (hlt : start < stop) (hst : stop ≤ chars.length) (hma : stop ≤ start + maxChars)
    (hm : start + maxChars < chars.length)
    (hr : Covers chars maxChars overlapChars (max (stop - overlapChars) (start + 1)) windows) :
    Covers chars maxChars overlapChars start (⟨start, stop⟩ :: windows) where
  inside := forall_mem_cons.mpr ⟨⟨hlt, hst, hma⟩, hr.inside⟩
  first := by
    rintro w ⟨⟩
    rfl
  advance := by
    cases windows with
    | nil => exact List.IsChain.singleton _
    | cons next windows =>
      have hf : next.start = max (stop - overlapChars) (start + 1) := hr.first next rfl
      refine IsChain.cons_cons ⟨?_, ?_, ?_⟩ hr.advance
      · show start < next.start
        omega
      · show next.start ≤ stop
        omega
      · show stop ≤ next.start + overlapChars
        omega
  covered position hs hposition := by
    by_cases hw : position < stop
    · exact ⟨_, mem_cons_self, hs, hw⟩
    · obtain ⟨w, hme, hc⟩ := hr.covered position (by omega) hposition
      exact ⟨w, mem_cons_of_mem _ hme, hc⟩
  more _ _ := .inr hm

/-- The chunk that the loop pushes for a window. -/
theorem chunksOf_cons (windows : List Window) :
    (⟨start, stop⟩ :: windows).filterMap (chunkOf chars) =
      (if trim (String.ofList ((chars.drop start).take (stop - start))) = "" then []
        else [trim (String.ofList ((chars.drop start).take (stop - start)))]) ++
          windows.filterMap (chunkOf chars) := by
  unfold chunkOf
  split_ifs with hb
  · simp [hb]
  · simp [hb]

theorem chunkLoop_of_le (h : chars.length ≤ start) {rs : ℕ} (hr : 0 < rs) :
    chunkLoop chars maxChars overlapChars rs start = some ([], []) := by
  obtain ⟨rs, rfl⟩ := exists_eq_add_one.mpr hr
  exact if_neg h.not_gt

/-- One round of the loop. -/
theorem chunkLoop_succ (he : windowEnd chars maxChars start = some stop) (hlt : start < stop)
    (hs : stop ≤ chars.length) (rs : ℕ) :
    chunkLoop chars maxChars overlapChars (rs + 1) start =
      if stop = chars.length then some ([⟨start, stop⟩], [⟨start, stop⟩].filterMap (chunkOf chars))
      else (chunkLoop chars maxChars overlapChars rs
        (max (stop - overlapChars) (start + 1))).map fun rest =>
          (⟨start, stop⟩ :: rest.1, [⟨start, stop⟩].filterMap (chunkOf chars) ++ rest.2) := by
  rw [chunkLoop, if_pos (hlt.trans_le hs), he, bind_eq_bind, bind_some,
    slice_eq hlt.le hs, bind_eq_bind, bind_some, chunksOf_cons [],
    filterMap_nil, append_nil]
  dsimp only
  split_ifs with hl
  · rfl
  · rfl
  all_goals
    cases chunkLoop chars maxChars overlapChars rs (max (stop - overlapChars) (start + 1)) <;> rfl

/-- The loop ends from every start, however many rounds more it is given. -/
theorem exists_chunkLoop (chars : List Char) (overlapChars : ℕ) (hma : 0 < maxChars) (n : ℕ) :
    ∀ start, chars.length - start ≤ n →
      ∃ windows, Covers chars maxChars overlapChars start windows ∧
        ∀ rs, chars.length - start < rs →
          chunkLoop chars maxChars overlapChars rs start =
            some (windows, windows.filterMap (chunkOf chars)) := by
  induction n with
  | zero =>
    intro start hle
    have he : chars.length ≤ start := by omega
    exact ⟨[], covers_nil he, fun rs hr => chunkLoop_of_le he (by omega)⟩
  | succ n ih =>
    intro start hle
    rcases le_or_gt chars.length start with he | hs
    · exact ⟨[], covers_nil he, fun rs hr => chunkLoop_of_le he (by omega)⟩
    · obtain ⟨stop, hw, hlt, hl, hst, hm⟩ := exists_windowEnd hma hs
      rcases hst.eq_or_lt with rfl | hsh
      · refine ⟨_, covers_last hs hl, fun rs hr => ?_⟩
        obtain ⟨rs, rfl⟩ := exists_eq_add_one.mpr (zero_lt_of_lt hr)
        rw [chunkLoop_succ hw hlt le_rfl, if_pos rfl]
      · obtain ⟨windows, hc, hru⟩ := ih (max (stop - overlapChars) (start + 1)) (by omega)
        refine ⟨_, hc.cons hlt hst hl (hm hsh), fun rs hr => ?_⟩
        obtain ⟨rs, rfl⟩ := exists_eq_add_one.mpr (zero_lt_of_lt hr)
        rw [chunkLoop_succ hw hlt hst, if_neg hsh.ne, hru rs (by omega),
          map_some, ← filterMap_append]
        rfl

/-! ### Blanks -/

theorem charCount_trim_le (s : String) : charCount (trim s) ≤ charCount s := by
  unfold charCount trim
  rw [String.toList_ofList, length_reverse]
  calc _ ≤ (s.toList.dropWhile isWhitespace).reverse.length := length_dropWhile_le ..
    _ ≤ _ := by
      rw [length_reverse]
      exact length_dropWhile_le ..

/-- A window with more than blanks has a chunk. -/
theorem exists_chunkOf {pos : ℕ} {c : Char} (hg : chars[pos]? = some c)
    (hc : isWhitespace c = false) (hs : w.start ≤ pos) (hst : pos < w.stop) :
    ∃ chunk, chunkOf chars w = some chunk := by
  have hm : c ∈ (chars.drop w.start).take (w.stop - w.start) := by
    refine mem_of_getElem? (i := pos - w.start) ?_
    rw [getElem?_take_of_lt (by omega), getElem?_drop, Nat.add_sub_cancel' hs]
    exact hg
  exact ⟨_, if_neg (trim_ne_empty (by rwa [String.toList_ofList]) hc)⟩

theorem charCount_chunkOf (hw : w.stop ≤ w.start + maxChars) {c : String}
    (h : chunkOf chars w = some c) : charCount c ≤ maxChars := by
  unfold chunkOf at h
  dsimp only at h
  split_ifs at h
  cases h
  refine (charCount_trim_le _).trans ?_
  rw [charCount, String.toList_ofList, length_take]
  omega

/-- The loop ends with windows that lie in the text, advance, share at most the overlap and cover
it, in rounds bounded by its length. The chunks are what is in the windows without the blanks
around it, and every other character is in the window of one. -/
theorem chunkDocument_covers (text : String) (maxChars overlapChars : ℕ)
    (hoverlap : overlapChars < maxChars) : ∃ windows chunks,
    (∀ rounds, charCount text < rounds →
      chunkDocument rounds text maxChars overlapChars = some (windows, chunks)) ∧
    Covers text.toList maxChars overlapChars 0 windows ∧
    chunks = windows.filterMap (chunkOf text.toList) ∧
    (∀ chunk ∈ chunks, charCount chunk ≤ maxChars) ∧
    (∀ (position : ℕ) (c : Char), text.toList[position]? = some c → isWhitespace c = false →
      ∃ w ∈ windows, w.start ≤ position ∧ position < w.stop ∧
        ∃ chunk ∈ chunks, chunkOf text.toList w = some chunk) ∧
    ∀ w ∈ windows, w.start = 0 ∨ w.start + maxChars < 2 * charCount text := by
  obtain ⟨windows, hco, hr⟩ := exists_chunkLoop text.toList overlapChars
    (zero_lt_of_lt hoverlap) _ 0 le_rfl
  refine ⟨windows, _, fun rounds hro => ?_, hco, rfl, ?_, ?_, ?_⟩
  · rw [chunkDocument, if_neg (by omega)]
    exact hr rounds (by rwa [Nat.sub_zero])
  · intro chunk hch
    obtain ⟨w, hm, hof⟩ := mem_filterMap.mp hch
    exact charCount_chunkOf (hco.inside w hm).2.2 hof
  · intro position c hg hc
    obtain ⟨hlt, -⟩ := List.getElem?_eq_some_iff.mp hg
    obtain ⟨w, hm, hs, hst⟩ := hco.covered position (Nat.zero_le _) hlt
    obtain ⟨chunk, hch⟩ := exists_chunkOf hg hc hs hst
    exact ⟨w, hm, hs, hst, chunk, mem_filterMap.mpr ⟨w, hm, hch⟩, hch⟩
  · intro w hm
    have hi := hco.inside w hm
    have hmo := hco.more w hm
    rw [charCount]
    omega

theorem chunkDocument_covers_example : ∃ windows chunks,
    (∀ rounds, 5 < rounds → chunkDocument rounds "ab\ncd" 4 1 = some (windows, chunks)) ∧
      Covers "ab\ncd".toList 4 1 0 windows ∧ ∀ chunk ∈ chunks, charCount chunk ≤ 4 := by
  obtain ⟨windows, chunks, hr, hc, -, hb, -, -⟩ := chunkDocument_covers "ab\ncd" 4 1 (by decide)
  exact ⟨windows, chunks, hr, hc, hb⟩

end FocalDesk.Retrieval
