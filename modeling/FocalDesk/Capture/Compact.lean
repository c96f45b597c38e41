import FocalDesk.Capture.Broker
import Mathlib.Data.List.Induction
import Mathlib.Data.List.Perm.Basic
import Mathlib.Algebra.Order.Ring.Int

/-! The damage of a frame as the renderer compacts it before the frame is published. -/
namespace FocalDesk.Capture
open Library List

def mergeMargin : ℤ := 4

def maxRects : ℕ := 8

def Rectangle.isEmpty (rect : Rectangle) : Bool := rect.width = 0 || rect.height = 0

def expandRect (rect : Rectangle) (margin : ℤ) : Rectangle :=
  ⟨rect.x - margin, rect.y - margin, rect.width + margin * 2, rect.height + margin * 2⟩

def mergeRects (a b : Rectangle) : Rectangle :=
  let minX := min a.x b.x
  let minY := min a.y b.y
  let maxX := max (a.x + a.width) (b.x + b.width)
  let maxY := max (a.y + a.height) (b.y + b.height)
  ⟨minX, minY, maxX - minX, maxY - minY⟩

/-- The last rectangle takes the place of the one that is removed. -/
def swapRemove (rects : List Rectangle) (i : ℕ) : List Rectangle :=
  match rects.getLast? with
  | none => rects
  | some last => (rects.set i last).dropLast

/-- The corners of a rectangle around others. -/
structure Bounds where
  minX : ℤ
  minY : ℤ
  maxX : ℤ
  maxY : ℤ

def Bounds.of (rect : Rectangle) : Bounds :=
  ⟨rect.x, rect.y, rect.x + rect.width, rect.y + rect.height⟩

def Bounds.add (bounds : Bounds) (rect : Rectangle) : Bounds where
  minX := min bounds.minX rect.x
  minY := min bounds.minY rect.y
  maxX := max bounds.maxX (rect.x + rect.width)
  maxY := max bounds.maxY (rect.y + rect.height)

def rectBounds : List Rectangle → Option Rectangle
  | [] => none
  | first :: rest =>
    let bounds := rest.foldl Bounds.add (.of first)
    some ⟨bounds.minX, bounds.minY, max (bounds.maxX - bounds.minX) 0,
      max (bounds.maxY - bounds.minY) 0⟩

theorem length_swapRemove (rects : List Rectangle) (i : ℕ) :
    (swapRemove rects i).length = rects.length - 1 := by
  unfold swapRemove
  cases hl : rects.getLast? with
  | none => simp [getLast?_eq_none_iff.mp hl]
  | some last => simp

section Toolkit
variable (overlaps : Rectangle → Rectangle → Bool)
  (intersection : Rectangle → Rectangle → Option Rectangle)

/-- The candidate takes in what is near to it. After each merge the search begins again. -/
def coalesce (candidate : Rectangle) (rects : List Rectangle) (i : ℕ) :
    Rectangle × List Rectangle :=
  if h : i < rects.length then
    if overlaps (expandRect candidate mergeMargin) (rects.get ⟨i, h⟩) then
      coalesce (mergeRects candidate (rects.get ⟨i, h⟩)) (swapRemove rects i) 0
    else coalesce candidate rects (i + 1)
  else (candidate, rects)
termination_by (rects.length, rects.length - i)
decreasing_by
  · rw [Prod.lex_def, length_swapRemove]
    omega
  · rw [Prod.lex_def]
    omega

/-- One more rectangle of the damage. -/
def compactRect (full : Rectangle) (rects : List Rectangle) (rect : Rectangle) :
    List Rectangle :=
  if rect.width ≤ 0 ∨ rect.height ≤ 0 then rects
  else
    match intersection rect full with
    | none => rects
    | some clipped =>
      if clipped.isEmpty then rects
      else
        let coalesced := coalesce overlaps clipped rects 0
        coalesced.2 ++ [coalesced.1]

def compactDamage (damage : List Rectangle) (width height : ℤ) : List Rectangle :=
  let rects := damage.foldl (compactRect overlaps intersection ⟨0, 0, width, height⟩) []
  if maxRects < rects.length then
    match rectBounds rects with
    | some bounds => [bounds]
    | none => rects
  else rects

end Toolkit

/-! Each compacted rectangle is a part of the output. -/

/-- The rectangle has pixels, and all of them are in an output of this size. -/
structure Rectangle.Within (rect : Rectangle) (width height : ℤ) : Prop where
  left : 0 ≤ rect.x
  top : 0 ≤ rect.y
  wide : 0 < rect.width
  high : 0 < rect.height
  right : rect.x + rect.width ≤ width
  bottom : rect.y + rect.height ≤ height

/-- What the toolkit promises of an intersection: it is a part of the second rectangle. -/
def Clips (intersection : Rectangle → Rectangle → Option Rectangle) : Prop :=
  ∀ a b c, 0 ≤ b.width → 0 ≤ b.height → intersection a b = some c →
    b.x ≤ c.x ∧ b.y ≤ c.y ∧ 0 ≤ c.width ∧ 0 ≤ c.height ∧
      c.x + c.width ≤ b.x + b.width ∧ c.y + c.height ≤ b.y + b.height

variable {overlaps : Rectangle → Rectangle → Bool}
  {intersection : Rectangle → Rectangle → Option Rectangle} {width height : ℤ}
  {rects : List Rectangle} {rect a b : Rectangle}

theorem within_merge (ha : a.Within width height) (hb : b.Within width height) :
    (mergeRects a b).Within width height := by
  obtain ⟨hax, hay, haw, hah, har, hab⟩ := ha
  obtain ⟨hbx, hby, hbw, hbh, hbr, hbb⟩ := hb
  constructor <;> dsimp only [mergeRects] <;> omega

theorem mem_of_mem_swapRemove {i : ℕ} (h : rect ∈ swapRemove rects i) : rect ∈ rects := by
  unfold swapRemove at h
  cases hl : rects.getLast? with
  | none => simpa only [hl] using h
  | some last =>
    simp only [hl] at h
    obtain hm | rfl := mem_or_eq_of_mem_set (dropLast_subset _ h)
    · exact hm
    · exact mem_of_getLast? hl

theorem within_coalesce {cand : Rectangle} {i : ℕ} (hc : cand.Within width height)
    (h : ∀ rect ∈ rects, rect.Within width height) :
    (coalesce overlaps cand rects i).1.Within width height ∧
      ∀ rect ∈ (coalesce overlaps cand rects i).2, rect.Within width height := by
  fun_induction coalesce overlaps cand rects i with
  | case1 cand rects i hi ho ih =>
    refine ih (within_merge hc (h _ (get_mem _ _))) fun rect hr => ?_
    exact h rect (mem_of_mem_swapRemove hr)
  | case2 cand rects i hi ho ih => exact ih hc h
  | case3 cand rects i hi => exact ⟨hc, h⟩

theorem within_compactRect (hci : Clips intersection) (hwd : 0 ≤ width) (hhe : 0 ≤ height)
    (h : ∀ rect ∈ rects, rect.Within width height) :
    ∀ other ∈ compactRect overlaps intersection ⟨0, 0, width, height⟩ rects rect,
      other.Within width height := by
  unfold compactRect
  split
  · exact h
  · split
    · exact h
    · rename_i clipped hcl
      split
      · exact h
      · rename_i he
        obtain ⟨hx, hy, hw, hh, hr, hb⟩ := hci rect _ clipped hwd hhe hcl
        simp only [Rectangle.isEmpty, Bool.or_eq_true, decide_eq_true_eq, not_or] at he
        have hwi : clipped.Within width height := by
          constructor <;> dsimp only at * <;> omega
        have hc : (coalesce overlaps clipped rects 0).1.Within width height ∧
            ∀ other ∈ (coalesce overlaps clipped rects 0).2, other.Within width height :=
          within_coalesce hwi h
        obtain ⟨hf, hre⟩ := hc
        intro other ho
        obtain ho | ho := mem_append.mp ho
        · exact hre other ho
        · rw [mem_singleton.mp ho]
          exact hf

theorem within_foldl (hc : Clips intersection) (hw : 0 ≤ width) (hh : 0 ≤ height)
    (dmg : List Rectangle) (h : ∀ rect ∈ rects, rect.Within width height) :
    ∀ rect ∈ dmg.foldl (compactRect overlaps intersection ⟨0, 0, width, height⟩) rects,
      rect.Within width height := by
  induction dmg generalizing rects with
  | nil => exact h
  | cons fst dmg ih => exact ih (within_compactRect hc hw hh h)

/-- The corners are those of a rectangle with pixels, in an output of this size. -/
def Bounds.Within (bounds : Bounds) (width height : ℤ) : Prop :=
  0 ≤ bounds.minX ∧ 0 ≤ bounds.minY ∧ bounds.minX < bounds.maxX ∧ bounds.minY < bounds.maxY ∧
    bounds.maxX ≤ width ∧ bounds.maxY ≤ height

theorem within_bounds {bounds : Bounds} (hbo : bounds.Within width height)
    (h : ∀ rect ∈ rects, rect.Within width height) :
    (rects.foldl Bounds.add bounds).Within width height := by
  induction rects generalizing bounds with
  | nil => exact hbo
  | cons rect rects ih =>
    obtain ⟨⟨hx, hy, hw, hh, hr, hb⟩, hre⟩ := forall_mem_cons.mp h
    refine ih ?_ hre
    simp only [Bounds.Within, Bounds.add] at hbo ⊢
    omega

theorem within_rectBounds (h : ∀ rect ∈ rects, rect.Within width height)
    (hbo : rectBounds rects = some rect) : rect.Within width height := by
  cases rects with
  | nil => cases hbo
  | cons fst rest =>
    obtain ⟨⟨hx, hy, hw, hh, hr, hb⟩, hre⟩ := forall_mem_cons.mp h
    have hf : (Bounds.of fst).Within width height := by
      simp only [Bounds.Within, Bounds.of]
      omega
    obtain ⟨hm, hmi, hwi, hhi, hma, hmx⟩ := within_bounds hf hre
    cases hbo
    constructor <;> dsimp only <;> omega

/-- Whatever the damage was, a few rectangles inside of the output are left of it. -/
theorem compactDamage_within (overlaps : Rectangle → Rectangle → Bool) (hc : Clips intersection)
    (hwi : 0 ≤ width) (hh : 0 ≤ height) (dmg : List Rectangle) :
    (compactDamage overlaps intersection dmg width height).length ≤ maxRects ∧
      ∀ rect ∈ compactDamage overlaps intersection dmg width height, rect.Within width height := by
  have hw : ∀ rect ∈ dmg.foldl
      (compactRect overlaps intersection ⟨0, 0, width, height⟩) [], rect.Within width height :=
    within_foldl hc hwi hh dmg fun _ hr => absurd hr not_mem_nil
  unfold compactDamage
  generalize dmg.foldl (compactRect overlaps intersection ⟨0, 0, width, height⟩) [] = rects at hw
  dsimp only
  split
  · rename_i hm
    split
    · rename_i bounds hb
      refine ⟨Nat.one_le_iff_ne_zero.mpr (by decide), fun rect hr => ?_⟩
      rw [mem_singleton.mp hr]
      exact within_rectBounds hw hb
    · rename_i hn
      cases rects with
      | nil => cases hm
      | cons fst rest => cases hn
  · rename_i hf
    exact ⟨Nat.le_of_not_lt hf, hw⟩

/-! What is left covers the damage, and no pixel of it twice. -/

/-- No pixel is in both. -/
def Apart (a b : Rectangle) : Prop := ∀ p, ¬ (a.Covers p ∧ b.Covers p)

/-- The toolkit finds the common pixels, and overlaps where there are some. -/
structure Toolkit (overlaps : Rectangle → Rectangle → Bool)
    (intersection : Rectangle → Rectangle → Option Rectangle) : Prop where
  common : ∀ a b p, a.Covers p → b.Covers p → ∃ c, intersection a b = some c ∧ c.Covers p
  apart : ∀ a b, overlaps a b = false → Apart a b

/-- All of these pixels are covered, and no pixel is covered twice. -/
structure Tiled (P : Pixel → Prop) (rects : List Rectangle) : Prop where
  covers : ∀ p, P p → Damaged rects p
  apart : rects.Pairwise Apart

variable {P : Pixel → Prop} {p : Pixel} {full : Rectangle}

theorem Tiled.mono {Q : Pixel → Prop} (h : Tiled P rects) (hq : ∀ p, Q p → P p) : Tiled Q rects :=
  ⟨fun p hp => h.covers p (hq p hp), h.apart⟩

theorem perm_swapRemove {i : ℕ} (h : i < rects.length) :
    (rects[i] :: swapRemove rects i).Perm rects := by
  obtain rfl | ⟨init, last, rfl⟩ := eq_nil_or_concat' rects
  · cases h
  · simp only [swapRemove, getLast?_concat]
    by_cases hi : i < init.length
    · rw [set_append_left _ _ hi, dropLast_concat, getElem_append_left hi]
      refine .trans ((set_perm_cons_eraseIdx hi last).cons _) (.trans (.swap ..) ?_)
      exact .trans ((getElem_cons_eraseIdx_perm hi).cons _) (perm_append_singleton ..).symm
    · rw [length_append, length_singleton] at h
      obtain rfl : i = init.length := by omega
      simpa using (perm_append_singleton last init).symm

theorem covers_merge (h : a.Covers p ∨ b.Covers p) : (mergeRects a b).Covers p := by
  simp only [Rectangle.Covers, mergeRects] at *
  omega

/-- What comes before `i` was found not to be near to the candidate. -/
theorem tiled_coalesce (ht : Toolkit overlaps intersection) {cand : Rectangle} {i : ℕ}
    (hc : ∀ p, P p → cand.Covers p ∨ Damaged rects p) (hp : rects.Pairwise Apart)
    (hi : ∀ rect ∈ rects.take i, overlaps (expandRect cand mergeMargin) rect = false) :
    Tiled P ((coalesce overlaps cand rects i).2 ++ [(coalesce overlaps cand rects i).1]) := by
  fun_induction coalesce overlaps cand rects i with
  | case1 cand rects i hlt ho ih =>
    have hperm := perm_swapRemove hlt
    refine ih (fun p h => ?_)
      (pairwise_cons.mp ((hperm.pairwise_iff fun h p hp => h p hp.symm).mpr hp)).2 (by simp)
    rcases hc p h with hcov | ⟨rect, hm, hcov⟩
    · exact .inl (covers_merge (.inl hcov))
    · rcases mem_cons.mp (hperm.mem_iff.mpr hm) with rfl | hm
      · exact .inl (covers_merge (.inr hcov))
      · exact .inr ⟨rect, hm, hcov⟩
  | case2 cand rects i hlt ho ih =>
    refine ih hc hp fun rect hm => ?_
    rw [take_succ_eq_append_getElem hlt, mem_append, mem_singleton] at hm
    rcases hm with hm | rfl
    · exact hi rect hm
    · simpa using ho
  | case3 cand rects i hge =>
    rw [take_of_length_le (by omega)] at hi
    refine ⟨fun p h => ?_, pairwise_append.mpr ⟨hp, pairwise_singleton .., ?_⟩⟩
    · rcases hc p h with hcov | ⟨rect, hm, hcov⟩
      · exact ⟨cand, by simp, hcov⟩
      · exact ⟨rect, by simp [hm], hcov⟩
    · intro rect hm c hc p hcov
      refine ht.apart _ _ (hi rect hm) p ⟨?_, hcov.1⟩
      have := mem_singleton.mp hc ▸ hcov.2
      simp only [Rectangle.Covers, expandRect, mergeMargin] at *
      omega

theorem tiled_compactRect (ht : Toolkit overlaps intersection) (h : Tiled P rects)
    (rect : Rectangle) : Tiled (fun p => P p ∨ full.Covers p ∧ rect.Covers p)
      (compactRect overlaps intersection full rects rect) := by
  unfold compactRect
  split
  case isTrue he =>
    refine h.mono fun p hp => hp.resolve_right fun ⟨_, hp⟩ => ?_
    unfold Rectangle.Covers at hp
    omega
  case isFalse =>
    split
    case h_1 hn =>
      refine h.mono fun p hp => hp.resolve_right fun ⟨hf, hp⟩ => ?_
      obtain ⟨c, hc, -⟩ := ht.common _ _ p hp hf
      cases hn.symm.trans hc
    case h_2 clipped hs =>
      have hcl (p) (hp : full.Covers p ∧ rect.Covers p) : clipped.Covers p := by
        obtain ⟨c, hc, hcov⟩ := ht.common _ _ p hp.2 hp.1
        exact Option.some.inj (hs.symm.trans hc) ▸ hcov
      split
      case isTrue he =>
        refine h.mono fun p hp => hp.resolve_right fun hp => ?_
        have := hcl p hp
        simp only [Rectangle.isEmpty, Bool.or_eq_true, decide_eq_true_eq] at he
        unfold Rectangle.Covers at this
        omega
      case isFalse =>
        exact tiled_coalesce ht (fun p hp => (hp.imp (h.covers p) (hcl p)).symm) h.apart (by simp)

theorem tiled_foldl (ht : Toolkit overlaps intersection) (full : Rectangle)
    (damage : List Rectangle) :
    Tiled (fun p => full.Covers p ∧ Damaged damage p)
      (damage.foldl (compactRect overlaps intersection full) []) := by
  induction damage using List.reverseRecOn with
  | nil => exact ⟨fun p ⟨_, _, hm, _⟩ => absurd hm not_mem_nil, .nil⟩
  | append_singleton damage rect ih =>
    rw [foldl_append]
    refine (tiled_compactRect ht ih rect).mono fun p ⟨hf, other, hm, hp⟩ => ?_
    rcases mem_append.mp hm with hm | hm
    · exact .inl ⟨hf, other, hm, hp⟩
    · exact .inr ⟨hf, mem_singleton.mp hm ▸ hp⟩

/-- A pixel of the corners or of a rectangle that is added. -/
theorem covers_bounds {bounds : Bounds} (h : (bounds.minX ≤ p.1 ∧ p.1 < bounds.maxX ∧
      bounds.minY ≤ p.2 ∧ p.2 < bounds.maxY) ∨ Damaged rects p) :
    let after := rects.foldl Bounds.add bounds
    after.minX ≤ p.1 ∧ p.1 < after.maxX ∧ after.minY ≤ p.2 ∧ p.2 < after.maxY := by
  induction rects generalizing bounds with
  | nil => exact h.resolve_right fun ⟨_, hm, _⟩ => absurd hm not_mem_nil
  | cons fst rest ih =>
    refine ih ?_
    simp only [Bounds.add]
    rcases h with h | ⟨rect, hm, hc⟩
    · omega
    · rcases mem_cons.mp hm with rfl | hm
      · unfold Rectangle.Covers at hc
        omega
      · exact .inr ⟨rect, hm, hc⟩

end FocalDesk.Capture
