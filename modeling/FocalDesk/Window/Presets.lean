import FocalDesk.Window.Managed
import Mathlib.Algebra.Order.BigOperators.Group.List
import Mathlib.Tactic.SplitIfs

/-! The presets of a split and the panes that complete them. -/
namespace FocalDesk.Window
open List

inductive SplitLayoutPreset where
  | leftHalf
  | rightHalf
  | topHalf
  | bottomHalf
  | leftTwoThirds
  | rightThird
  | leftThird
  | rightTwoThirds
  | topLeft
  | topRight
  | bottomLeft
  | bottomRight

abbrev SplitAssistTarget := Rect × SplitDirection

def splitRect : Rect → SplitDirection → Option Rect
  | ⟨loc, w, h⟩, .left => if w < minSplitPaneWidth * 2 then none else some ⟨loc, w.tdiv 2, h⟩
  | ⟨loc, w, h⟩, .right =>
    if w < minSplitPaneWidth * 2 then none
    else some ⟨⟨loc.x + w.tdiv 2, loc.y⟩, w - w.tdiv 2, h⟩
  | ⟨loc, w, h⟩, .top => if h < minSplitPaneHeight * 2 then none else some ⟨loc, w, h.tdiv 2⟩
  | ⟨loc, w, h⟩, .bottom =>
    if h < minSplitPaneHeight * 2 then none
    else some ⟨⟨loc.x, loc.y + h.tdiv 2⟩, w, h - h.tdiv 2⟩
  | _, _ => none

def splitPresetRect : Rect → SplitLayoutPreset → Option (Rect × SplitDirection)
  | ⟨loc, w, h⟩, preset =>
    let third := w.tdiv 3
    let leftHalf := w.tdiv 2
    let topHalf := h.tdiv 2
    let wide (pane : Rect × SplitDirection) :=
      if minSplitPaneWidth * 3 ≤ w then some pane else none
    let quarter (pane : Rect × SplitDirection) :=
      if minSplitPaneWidth * 2 ≤ w ∧ minSplitPaneHeight * 2 ≤ h then some pane else none
    match preset with
    | .leftHalf => (splitRect ⟨loc, w, h⟩ .left).map (·, .left)
    | .rightHalf => (splitRect ⟨loc, w, h⟩ .right).map (·, .right)
    | .topHalf => (splitRect ⟨loc, w, h⟩ .top).map (·, .top)
    | .bottomHalf => (splitRect ⟨loc, w, h⟩ .bottom).map (·, .bottom)
    | .leftTwoThirds => wide (⟨loc, third * 2, h⟩, .left)
    | .rightThird => wide (⟨⟨loc.x + third * 2, loc.y⟩, w - third * 2, h⟩, .right)
    | .leftThird => wide (⟨loc, third, h⟩, .left)
    | .rightTwoThirds => wide (⟨⟨loc.x + third, loc.y⟩, w - third, h⟩, .right)
    | .topLeft => quarter (⟨loc, leftHalf, topHalf⟩, .topLeft)
    | .topRight => quarter (⟨⟨loc.x + leftHalf, loc.y⟩, w - leftHalf, topHalf⟩, .topRight)
    | .bottomLeft => quarter (⟨⟨loc.x, loc.y + topHalf⟩, leftHalf, h - topHalf⟩, .bottomLeft)
    | .bottomRight => quarter
      (⟨⟨loc.x + leftHalf, loc.y + topHalf⟩, w - leftHalf, h - topHalf⟩, .bottomRight)

/-- The work area first, then the pane that is occupied. -/
def complementarySplitRect : Rect → Rect → SplitDirection → Option SplitAssistTarget
  | ⟨loc, w, h⟩, ⟨pane, width, height⟩, direction =>
    let target : Option SplitAssistTarget :=
      match direction with
      | .center => none
      | .left => some (⟨⟨pane.x + width, loc.y⟩, loc.x + w - pane.x - width, h⟩, .right)
      | .right => some (⟨loc, pane.x - loc.x, h⟩, .left)
      | .top => some (⟨⟨loc.x, pane.y + height⟩, w, loc.y + h - pane.y - height⟩, .bottom)
      | .bottom => some (⟨loc, w, pane.y - loc.y⟩, .top)
      | .topLeft => some
        (⟨⟨pane.x + width, pane.y⟩, loc.x + w - pane.x - width, height⟩, .topRight)
      | .topRight => some (⟨⟨loc.x, pane.y⟩, pane.x - loc.x, height⟩, .topLeft)
      | .bottomLeft => some
        (⟨⟨pane.x + width, pane.y⟩, loc.x + w - pane.x - width, height⟩, .bottomRight)
      | .bottomRight => some (⟨⟨loc.x, pane.y⟩, pane.x - loc.x, height⟩, .bottomLeft)
    target.filter fun target => 0 < target.1.size.w ∧ 0 < target.1.size.h

def splitAssistTargets : Rect → Rect → SplitDirection → List SplitAssistTarget
  | ⟨loc, w, h⟩, ⟨pane, width, height⟩, direction =>
    let third := w.tdiv 3
    let isLeftThird := direction = .left ∧ pane.x = loc.x ∧ width = third
    let isRightThird := direction = .right ∧ pane.x = loc.x + third * 2 ∧
      pane.x + width = loc.x + w
    if minSplitPaneWidth * 3 ≤ w ∧ pane.y = loc.y ∧ height = h ∧
        (isLeftThird ∨ isRightThird) then
      let middle := (⟨⟨loc.x + third, loc.y⟩, third, h⟩, .center)
      let left := (⟨loc, third, h⟩, .left)
      let right := (⟨⟨loc.x + third * 2, loc.y⟩, w - third * 2, h⟩, .right)
      if isLeftThird then [middle, right] else [middle, left]
    else
      let presets := filterMap (splitPresetRect ⟨loc, w, h⟩)
      match direction with
      | .topLeft => presets [.topRight, .bottomLeft, .bottomRight]
      | .topRight => presets [.topLeft, .bottomRight, .bottomLeft]
      | .bottomLeft => presets [.bottomRight, .topLeft, .topRight]
      | .bottomRight => presets [.bottomLeft, .topRight, .topLeft]
      | _ => (complementarySplitRect ⟨loc, w, h⟩ ⟨pane, width, height⟩ direction).toList

/-- The pane of a preset and those that complete it. -/
def layout (work : Rect) (preset : SplitLayoutPreset) : Option (List SplitAssistTarget) :=
  (splitPresetRect work preset).map fun pane => pane :: splitAssistTargets work pane.1 pane.2

/-! Panes between dividers, which cover a work area exactly. -/

/-- How often a rectangle covers a point. -/
def Rect.covers (rect : Rect) (x y : ℤ) : ℕ :=
  if rect.loc.x ≤ x ∧ x < rect.loc.x + rect.size.w ∧
      rect.loc.y ≤ y ∧ y < rect.loc.y + rect.size.h then 1 else 0

/-- The panes cover each point of the work area once, and no other point. -/
def Tiles (work : Rect) (panes : List SplitAssistTarget) : Prop :=
  ∀ x y, (panes.map (·.1.covers x y)).sum = work.covers x y

/-- The dividers of a layout, measured from the corner of the work area. -/
inductive Shape where
  | columns (x : ℤ)
  | rows (y : ℤ)
  | thirds (x₁ x₂ : ℤ)
  | grid (x y : ℤ)

def region (loc : Point) (x₁ x₂ y₁ y₂ : ℤ) : Rect :=
  ⟨⟨loc.x + x₁, loc.y + y₁⟩, x₂ - x₁, y₂ - y₁⟩

def SplitLayoutPreset.shape (w h : ℤ) : SplitLayoutPreset → Shape
  | .leftHalf | .rightHalf => .columns (w.tdiv 2)
  | .topHalf | .bottomHalf => .rows (h.tdiv 2)
  | .leftTwoThirds => .columns (w.tdiv 3 * 2)
  | .rightTwoThirds => .columns (w.tdiv 3)
  | .leftThird | .rightThird => .thirds (w.tdiv 3) (w.tdiv 3 * 2)
  | _ => .grid (w.tdiv 2) (h.tdiv 2)

namespace Shape

def panes : Rect → Shape → List SplitAssistTarget
  | ⟨loc, w, h⟩, columns x => [(region loc 0 x 0 h, .left), (region loc x w 0 h, .right)]
  | ⟨loc, w, h⟩, rows y => [(region loc 0 w 0 y, .top), (region loc 0 w y h, .bottom)]
  | ⟨loc, w, h⟩, thirds x₁ x₂ => [(region loc 0 x₁ 0 h, .left), (region loc x₁ x₂ 0 h, .center),
      (region loc x₂ w 0 h, .right)]
  | ⟨loc, w, h⟩, grid x y => [(region loc 0 x 0 y, .topLeft), (region loc x w 0 y, .topRight),
      (region loc 0 x y h, .bottomLeft), (region loc x w y h, .bottomRight)]

/-- The panes keep their minimum sizes. -/
def Fits (w h : ℤ) : Shape → Prop
  | columns x => minSplitPaneWidth ≤ x ∧ x + minSplitPaneWidth ≤ w
  | rows y => minSplitPaneHeight ≤ y ∧ y + minSplitPaneHeight ≤ h
  | thirds x₁ x₂ =>
    minSplitPaneWidth ≤ x₁ ∧ x₁ + minSplitPaneWidth ≤ x₂ ∧ x₂ + minSplitPaneWidth ≤ w
  | grid x y => (minSplitPaneWidth ≤ x ∧ x + minSplitPaneWidth ≤ w) ∧
    minSplitPaneHeight ≤ y ∧ y + minSplitPaneHeight ≤ h

end Shape

variable {loc : Point} {w h : ℤ} {preset : SplitLayoutPreset} {shape : Shape}
  {panes : List SplitAssistTarget}

namespace Shape

theorem tiles (hf : shape.Fits w h) : Tiles ⟨loc, w, h⟩ (shape.panes ⟨loc, w, h⟩) := by
  intro p q
  cases shape <;>
  · simp only [Fits, minSplitPaneWidth, minSplitPaneHeight] at hf
    simp only [Shape.panes, region, map_cons, sum_cons, map_nil, sum_nil, Rect.covers]
    grind

theorem direction (hf : shape.Fits w h) :
    ∀ pane ∈ shape.panes ⟨loc, w, h⟩, splitDirectionForRect ⟨loc, w, h⟩ pane.1 = some pane.2 := by
  cases shape with
  | grid x y =>
    simp only [Fits, minSplitPaneWidth, minSplitPaneHeight] at hf
    have hx : x ≠ 0 := by omega
    have hy : y ≠ 0 := by omega
    simp only [Shape.panes, forall_mem_cons, region, splitDirectionForRect]
    refine ⟨?_, ?_, ?_, ?_, nofun⟩ <;> grind
  | _ =>
    simp only [Fits, minSplitPaneWidth, minSplitPaneHeight] at hf
    simp only [Shape.panes, forall_mem_cons, region, splitDirectionForRect]
    grind

end Shape

theorem layout_fits (hl : (layout ⟨loc, w, h⟩ preset).isSome) :
    (preset.shape w h).Fits w h := by
  have hd {k : ℤ} (n : ℤ) (hk : 0 ≤ k) := Int.tdiv_eq_ediv_of_nonneg (b := n) hk
  cases preset <;> simp [layout, splitPresetRect, splitRect, SplitLayoutPreset.shape, Shape.Fits,
    minSplitPaneWidth, minSplitPaneHeight] at * <;> grind

/-- At most the panes of a shape, and all of them where there is anything to cover. -/
structure Completes (loc : Point) (w h : ℤ) (shape : Shape) (panes : List SplitAssistTarget) :
    Prop where
  mem : ∀ pane ∈ panes, pane ∈ shape.panes ⟨loc, w, h⟩
  sum (f : SplitAssistTarget → ℕ) : (panes.map f).sum ≤ ((shape.panes ⟨loc, w, h⟩).map f).sum
  whole (f : SplitAssistTarget → ℕ) : 0 < w → 0 < h →
    (panes.map f).sum = ((shape.panes ⟨loc, w, h⟩).map f).sum

theorem layout_completes (hl : layout ⟨loc, w, h⟩ preset = some panes) :
    Completes loc w h (preset.shape w h) panes := by
  have hf := layout_fits (by simp [hl] : (layout ⟨loc, w, h⟩ preset).isSome)
  have hw2 (h : 0 ≤ w) := Int.tdiv_eq_ediv_of_nonneg (b := 2) h
  have hw3 (h : 0 ≤ w) := Int.tdiv_eq_ediv_of_nonneg (b := 3) h
  have h8 : minSplitPaneWidth = 800 := rfl
  have h5 : minSplitPaneHeight = 500 := rfl
  obtain ⟨x, y⟩ := loc
  obtain ⟨pane, hp, rfl⟩ := Option.map_eq_some_iff.mp hl
  clear hl
  cases preset <;>
    simp only [splitPresetRect, splitRect, Option.map_eq_some_iff, Option.ite_none_left_eq_some,
      Option.ite_none_right_eq_some, Option.some.injEq] at hp
  all_goals first | obtain ⟨hg, rfl⟩ := hp | obtain ⟨_, ⟨hg, rfl⟩, rfl⟩ := hp
  all_goals
    simp only [SplitLayoutPreset.shape, Shape.Fits, splitAssistTargets, complementarySplitRect] at *
  case leftThird | rightThird =>
    rw [if_pos (by simp; omega)]
    constructor <;> simp [Shape.panes, region] <;> grind
  case topLeft | topRight | bottomLeft | bottomRight =>
    rw [if_neg (by omega)]
    simp only [filterMap_cons, splitPresetRect, hg, filterMap_nil]
    constructor <;> simp [Shape.panes, region] <;> grind
  all_goals
    rw [if_neg (by omega)]
    simp only [Option.filter_some]
    constructor <;> simp [Shape.panes, region] <;> grind

theorem Completes.tiles (hc : Completes loc w h shape panes) (hf : shape.Fits w h) :
    Tiles ⟨loc, w, h⟩ panes := by
  intro x y
  have ht : Tiles ⟨loc, w, h⟩ (shape.panes ⟨loc, w, h⟩) := Shape.tiles hf
  by_cases hw : 0 < w ∧ 0 < h
  · rw [hc.whole _ hw.1 hw.2, ht x y]
  · have h₀ : Rect.covers ⟨loc, w, h⟩ x y = 0 := if_neg (by dsimp only; omega)
    have := hc.sum (·.1.covers x y)
    rw [ht x y] at this
    omega

/-- What a preset asks of its panes; it leaves the other extent whole. -/
def SplitLayoutPreset.minimum (work : Rect) : SplitLayoutPreset → Size
  | .topHalf | .bottomHalf => ⟨work.size.w, minSplitPaneHeight⟩
  | .topLeft | .topRight | .bottomLeft | .bottomRight => ⟨minSplitPaneWidth, minSplitPaneHeight⟩
  | _ => ⟨minSplitPaneWidth, work.size.h⟩

end FocalDesk.Window
