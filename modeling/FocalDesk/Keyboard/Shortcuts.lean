import FocalDesk.Integer
import FocalDesk.Text
import Mathlib.Data.List.Induction
import Mathlib.Logic.Function.Basic

/-! Shortcuts, and the overrides of a user. -/
namespace FocalDesk
open Library List Option

inductive KeyAction where
  | closeFocused | focusNext | focusPrev | focusShellNext | focusShellPrevious | overflowView
  | quitCompositor | toggleLauncher | launchTerminal | launchAiConsole | lockScreen
  | takeScreenshot | takeScreenshotAll | launchBrowser | launchFiles | toggleClipboardHistory
  | toggleVoiceCapture | magnifierZoomIn | magnifierZoomOut | toggleNightLight | cycleColorFilter
  | splitLeft | splitRight | splitTop | splitBottom | toggleSplitLayout | swapSplitLeft
  | swapSplitRight | swapSplitTop | swapSplitBottom | resizeSplitLeft | resizeSplitRight
  | resizeSplitTop | resizeSplitBottom | resizeSplitLeftFine | resizeSplitRightFine
  | resizeSplitTopFine | resizeSplitBottomFine | focusSplitNext | focusSplitPrevious
  | undoSplitAction
  | activateSlot (slot : ℕ) | assignSlot (slot : ℕ)
deriving DecidableEq

structure ModMask where
  shift : Bool
  ctrl : Bool
  alt : Bool
  super : Bool
deriving DecidableEq

inductive ModFlag where
  | shift | ctrl | alt | super

namespace ModMask

def empty : ModMask := { shift := false, ctrl := false, alt := false, super := false }

def contains (mods : ModMask) : ModFlag → Bool
  | .shift => mods.shift
  | .ctrl => mods.ctrl
  | .alt => mods.alt
  | .super => mods.super

def insert (mods : ModMask) : ModFlag → ModMask
  | .shift => { mods with shift := true }
  | .ctrl => { mods with ctrl := true }
  | .alt => { mods with alt := true }
  | .super => { mods with super := true }

end ModMask

structure KeyCombo where
  mods : ModMask
  sym : ℕ
deriving DecidableEq

/-- `xkbcommon`, and `char::to_lowercase`. -/
structure Xkb where
  keysymFromName : String → ℕ
  keysymToUtf32 : ℕ → ℕ
  utf32ToKeysym : ℕ → ℕ
  toLowercase : Char → List Char

/-- `KEY_ISO_Left_Tab` and `KEY_Tab` -/
def isoLeftTab : ℕ := 0xfe20

def tab : ℕ := 0xff09

/-- `char::from_u32` -/
def charFromU32 (n : ℕ) : Option Char := if h : n.isValidChar then some (Char.ofNatAux n h) else none

/-- `KeySymbol::normalized` -/
def Xkb.normalized (xkb : Xkb) (sym : ℕ) : ℕ :=
  if sym = isoLeftTab then tab
  else if xkb.keysymToUtf32 sym = 0 then sym
  else
    match (charFromU32 (xkb.keysymToUtf32 sym)).map xkb.toLowercase with
    | some [c] => xkb.utf32ToKeysym c.toNat
    | _ => sym

variable (xkb : Xkb)

namespace KeyCombo

def new (mods : ModMask) (sym : ℕ) : KeyCombo := { mods, sym := xkb.normalized sym }

def normalized (combo : KeyCombo) : KeyCombo := new xkb combo.mods combo.sym

end KeyCombo

/-- The hash map from combinations to actions. -/
structure Keybinds where
  map : KeyCombo → Option KeyAction

namespace Keybinds

def insert (keybinds : Keybinds) (combo : KeyCombo) (action : KeyAction) : Keybinds :=
  { map := Function.update keybinds.map (combo.normalized xkb) (some action) }

/-- The bindings of an action go. -/
def release (keybinds : Keybinds) (action : KeyAction) : Keybinds :=
  { map := fun combo => (keybinds.map combo).filter fun existing => existing ≠ action }

def resolve (keybinds : Keybinds) (sym : ℕ) (mods : ModMask) : Option KeyAction :=
  keybinds.map (.new xkb mods sym)

end Keybinds

/-- The names of an action in the configuration, and its `Debug` text. -/
def namedActions : List (List String × KeyAction × String) :=
  [(["close_focused"], .closeFocused, "CloseFocused"), (["focus_next"], .focusNext, "FocusNext"),
    (["focus_previous", "focus_prev"], .focusPrev, "FocusPrev"),
    (["focus_shell_next"], .focusShellNext, "FocusShellNext"),
    (["focus_shell_previous", "focus_shell_prev"], .focusShellPrevious, "FocusShellPrevious"),
    (["show_workspaces", "overflow_view"], .overflowView, "OverflowView"),
    (["quit_compositor"], .quitCompositor, "QuitCompositor"),
    (["toggle_launcher"], .toggleLauncher, "ToggleLauncher"),
    (["launch_terminal"], .launchTerminal, "LaunchTerminal"),
    (["launch_ai_console", "launch_agent"], .launchAiConsole, "LaunchAiConsole"),
    (["lock_screen"], .lockScreen, "LockScreen"),
    (["take_screenshot"], .takeScreenshot, "TakeScreenshot"),
    (["take_screenshot_all"], .takeScreenshotAll, "TakeScreenshotAll"),
    (["launch_browser"], .launchBrowser, "LaunchBrowser"),
    (["launch_files"], .launchFiles, "LaunchFiles"),
    (["toggle_clipboard_history"], .toggleClipboardHistory, "ToggleClipboardHistory"),
    (["toggle_voice_capture"], .toggleVoiceCapture, "ToggleVoiceCapture"),
    (["magnifier_zoom_in"], .magnifierZoomIn, "MagnifierZoomIn"),
    (["magnifier_zoom_out"], .magnifierZoomOut, "MagnifierZoomOut"),
    (["toggle_night_light"], .toggleNightLight, "ToggleNightLight"),
    (["cycle_color_filter"], .cycleColorFilter, "CycleColorFilter"),
    (["split_left"], .splitLeft, "SplitLeft"), (["split_right"], .splitRight, "SplitRight"),
    (["split_top"], .splitTop, "SplitTop"), (["split_bottom"], .splitBottom, "SplitBottom"),
    (["toggle_split_layout"], .toggleSplitLayout, "ToggleSplitLayout"),
    (["swap_split_left"], .swapSplitLeft, "SwapSplitLeft"),
    (["swap_split_right"], .swapSplitRight, "SwapSplitRight"),
    (["swap_split_top"], .swapSplitTop, "SwapSplitTop"),
    (["swap_split_bottom"], .swapSplitBottom, "SwapSplitBottom"),
    (["resize_split_left"], .resizeSplitLeft, "ResizeSplitLeft"),
    (["resize_split_right"], .resizeSplitRight, "ResizeSplitRight"),
    (["resize_split_top"], .resizeSplitTop, "ResizeSplitTop"),
    (["resize_split_bottom"], .resizeSplitBottom, "ResizeSplitBottom"),
    (["resize_split_left_fine"], .resizeSplitLeftFine, "ResizeSplitLeftFine"),
    (["resize_split_right_fine"], .resizeSplitRightFine, "ResizeSplitRightFine"),
    (["resize_split_top_fine"], .resizeSplitTopFine, "ResizeSplitTopFine"),
    (["resize_split_bottom_fine"], .resizeSplitBottomFine, "ResizeSplitBottomFine"),
    (["focus_split_next"], .focusSplitNext, "FocusSplitNext"),
    (["focus_split_previous", "focus_split_prev"], .focusSplitPrevious, "FocusSplitPrevious"),
    (["undo_split_action"], .undoSplitAction, "UndoSplitAction")]

def KeyAction.debug : KeyAction → String
  | .activateSlot slot => "ActivateSlot(" ++ toString slot ++ ")"
  | .assignSlot slot => "AssignSlot(" ++ toString slot ++ ")"
  | action => ((namedActions.find? fun row => row.2.1 = action).map fun row => row.2.2).getD ""

def numberedAction (name namePrefix : String) : Option ℕ :=
  if startsWith name namePrefix then
    match parseU64 (String.ofList (name.toList.drop (charCount namePrefix))) with
    | some number => if 1 ≤ number ∧ number ≤ 9 then some (number - 1) else none
    | none => none
  else none

def actionFromName (name : String) : Option KeyAction :=
  let normalized := replaceText (toAsciiLowercase (trim name)) "-" "_"
  match namedActions.find? fun row => row.1.contains normalized with
  | some row => some row.2.1
  | none =>
    match numberedAction normalized "activate_workspace_" with
    | some slot => some (.activateSlot slot)
    | none => (numberedAction normalized "move_to_workspace_").map .assignSlot

def modFlag (modifier : String) : Option ModFlag :=
  let name := toAsciiLowercase modifier
  if name = "shift" then some .shift
  else if name = "ctrl" ∨ name = "control" then some .ctrl
  else if name = "alt" then some .alt
  else if name = "super" ∨ name = "logo" ∨ name = "meta" then some .super
  else none

def addModifier (mods : ModMask) (modifier : String) : Except String ModMask :=
  match modFlag modifier with
  | none => .error ("unknown modifier `" ++ modifier ++ "`")
  | some flag =>
    if mods.contains flag then .error ("duplicate modifier `" ++ modifier ++ "`")
    else .ok (mods.insert flag)

def canonicalKey (name : String) : String :=
  let lower := toAsciiLowercase name
  if lower = "enter" then "Return"
  else if lower = "esc" then "Escape"
  else if lower = "space" then "space"
  else if lower = "printscreen" then "Print"
  else if byteLen lower = 1 then lower
  else name

def parseShortcut (shortcut : String) : Except String KeyCombo := do
  let parts := ((shortcut.toList.splitOn '+').map fun part => trim (String.ofList part)).filter
    (· ≠ "")
  let keyName ← okOr parts.getLast? "shortcut is empty"
  let mods ← parts.dropLast.foldlM addModifier .empty
  let sym := xkb.keysymFromName (canonicalKey keyName)
  bailIf (sym = 0) ("unknown key `" ++ keyName ++ "`")
  return .new xkb mods sym

/-- An override of the configuration: the name of an action, and its shortcut. -/
abbrev Override := String × String

namespace Keybinds

/-- What an override binds, or why it is rejected. -/
def accept (keybinds : Keybinds) (override : Override) : Except String (KeyCombo × KeyAction) :=
  match actionFromName override.1 with
  | none => .error ("unknown keybinding action `" ++ override.1 ++ "`")
  | some action =>
    match parseShortcut xkb override.2 with
    | .error error => .error ("invalid shortcut for `" ++ override.1 ++ "`: " ++ error)
    | .ok combo =>
      match (keybinds.map combo).filter fun displaced => displaced ≠ action with
      | some displaced =>
        .error ("shortcut `" ++ override.2 ++ "` for `" ++ override.1 ++ "` conflicts with " ++
          displaced.debug)
      | none => .ok (combo, action)

/-- A round of the loop: the bindings and the warnings after it. -/
def applyOverride (state : Keybinds × List String) (override : Override) :
    Keybinds × List String :=
  match state.1.accept xkb override with
  | .error warning => (state.1, state.2 ++ [warning])
  | .ok (combo, action) => ((state.1.release action).insert xkb combo action, state.2)

def applyOverrides (keybinds : Keybinds) (overrides : List Override) : Keybinds × List String :=
  overrides.foldl (applyOverride xkb) (keybinds, [])

/-! What overrides keep. -/

/-- Only normalized combinations are bound. -/
def Normalized (keybinds : Keybinds) : Prop :=
  ∀ combo action, keybinds.map combo = some action → combo.normalized xkb = combo

def Bound (keybinds : Keybinds) (action : KeyAction) : Prop :=
  ∃ combo, keybinds.map combo = some action

variable {xkb} {keybinds : Keybinds} {override ovr : Override} {overrides : List Override}
  {combo : KeyCombo} {action : KeyAction} {st : Keybinds × List String}

theorem accept_eq_ok : keybinds.accept xkb ovr = .ok (combo, action) ↔
    actionFromName ovr.1 = some action ∧ parseShortcut xkb ovr.2 = .ok combo ∧
      ∀ other, keybinds.map combo = some other → other = action := by
  unfold accept
  split
  case h_1 h => simp [h]
  case h_2 a h =>
    split
    case h_1 error hp => simp [hp]
    case h_2 c hp =>
      split
      case h_1 displaced hd =>
        obtain ⟨hm, hne⟩ := filter_eq_some_iff.mp hd
        simp only [reduceCtorEq, false_iff, h, hp]
        rintro ⟨ha, hc, hall⟩
        cases ha
        cases hc
        exact absurd (hall displaced hm) (by simpa using hne)
      case h_2 hd =>
        simp only [h, hp, Except.ok.injEq, Prod.mk.injEq, some.injEq]
        constructor
        · rintro ⟨rfl, rfl⟩
          refine ⟨rfl, rfl, fun other ho => ?_⟩
          by_contra hne
          simp [ho, hne] at hd
        · rintro ⟨rfl, rfl, -⟩
          exact ⟨rfl, rfl⟩

theorem normalized_of_parse (hx : ∀ sym, xkb.normalized (xkb.normalized sym) = xkb.normalized sym)
    {shortcut : String} (h : parseShortcut xkb shortcut = .ok combo) :
    combo.normalized xkb = combo := by
  simp only [parseShortcut, bind_eq_ok, pure_eq_ok] at h
  obtain ⟨_, -, mods, -, _, -, rfl⟩ := h
  simp [KeyCombo.normalized, KeyCombo.new, hx]

theorem map_rebound (hc : combo.normalized xkb = combo) (c : KeyCombo) :
    ((keybinds.release action).insert xkb combo action).map c =
      if c = combo then some action else (keybinds.map c).filter fun other => other ≠ action := by
  simp [insert, release, hc, Function.update_apply]

theorem applyOverride_cases (st : Keybinds × List String) (ovr : Override) :
    (∃ warn, st.1.accept xkb ovr = .error warn ∧
      applyOverride xkb st ovr = (st.1, st.2 ++ [warn])) ∨
    ∃ combo action, st.1.accept xkb ovr = .ok (combo, action) ∧
      applyOverride xkb st ovr = ((st.1.release action).insert xkb combo action, st.2) := by
  unfold applyOverride
  cases h : st.1.accept xkb ovr with
  | error warn => exact .inl ⟨warn, rfl, rfl⟩
  | ok bound => exact .inr ⟨bound.1, bound.2, rfl, rfl⟩

section
variable (hx : ∀ sym, xkb.normalized (xkb.normalized sym) = xkb.normalized sym)
include hx

/-- An override is rejected with a warning, or binds its combination and nothing else. -/
theorem applyOverride_map (st : Keybinds × List String) (ovr : Override) :
    (∃ warn, st.1.accept xkb ovr = .error warn ∧
      applyOverride xkb st ovr = (st.1, st.2 ++ [warn])) ∨
    ∃ combo action, st.1.accept xkb ovr = .ok (combo, action) ∧
      combo.normalized xkb = combo ∧ (∀ other, st.1.map combo = some other → other = action) ∧
      (applyOverride xkb st ovr).2 = st.2 ∧
      ∀ c, (applyOverride xkb st ovr).1.map c =
        if c = combo then some action else (st.1.map c).filter fun other => other ≠ action := by
  rcases applyOverride_cases st ovr with h | ⟨combo, action, ha, hs⟩
  · exact .inl h
  · obtain ⟨-, hp, hother⟩ := (accept_eq_ok).mp ha
    have hc := normalized_of_parse hx hp
    exact .inr ⟨combo, action, ha, hc, hother, by rw [hs], fun c => by rw [hs, map_rebound hc]⟩

theorem normalized_step (h : st.1.Normalized xkb) (ovr : Override) :
    (applyOverride xkb st ovr).1.Normalized xkb := by
  rcases applyOverride_map hx st ovr with
    ⟨warn, -, hs⟩ | ⟨combo, action, -, hc, -, -, hm⟩
  · rw [hs]
    exact h
  · intro c a hca
    rw [hm] at hca
    split at hca
    case isTrue he => exact he ▸ hc
    case isFalse => exact h c a (filter_eq_some_iff.mp hca).1

theorem bound_step (h : st.1.Bound action) (ovr : Override) :
    (applyOverride xkb st ovr).1.Bound action := by
  rcases applyOverride_map hx st ovr with
    ⟨warn, -, hs⟩ | ⟨combo, own, -, -, hother, -, hm⟩
  · rw [hs]
    exact h
  · obtain ⟨c, hca⟩ := h
    by_cases ha : action = own
    · exact ⟨combo, by rw [hm, if_pos rfl, ha]⟩
    · have hne : c ≠ combo := fun he => ha (hother action (he ▸ hca))
      exact ⟨c, by rw [hm, if_neg hne, hca, filter_some, if_pos (by simpa using ha)]⟩

/-- A binding stays until an override of its action is accepted. -/
theorem map_step (h : st.1.map combo = some action)
    (hn : ∀ c, st.1.accept xkb ovr ≠ .ok (c, action)) :
    (applyOverride xkb st ovr).1.map combo = some action := by
  rcases applyOverride_map hx st ovr with
    ⟨warn, -, hs⟩ | ⟨c, own, ha, -, hother, -, hm⟩
  · rw [hs]
    exact h
  · have hne : action ≠ own := fun he => hn c (he ▸ ha)
    have hc : combo ≠ c := fun he => hne (hother action (he ▸ h))
    rw [hm, if_neg hc, h, filter_some, if_pos (by simpa using hne)]

end

/-- What a round must do with the outcome of its override. -/
structure Safe (xkb : Xkb) (before after : Keybinds × List String)
    (outcome : Except String (KeyCombo × KeyAction)) : Prop where
  rejected : ∀ warning, outcome = .error warning → after = (before.1, before.2 ++ [warning])
  accepted : ∀ combo action, outcome = .ok (combo, action) →
    after.2 = before.2 ∧ after.1.resolve xkb combo.sym combo.mods = some action
  owners : ∀ c, after.1.map c ≠ before.1.map c → ∃ combo action, outcome = .ok (combo, action) ∧
    (before.1.map c = some action ∨ before.1.map c = none ∧ c = combo ∧ after.1.map c = some action)

theorem resolve_eq (hc : combo.normalized xkb = combo) (keybinds : Keybinds) :
    keybinds.resolve xkb combo.sym combo.mods = keybinds.map combo := congrArg keybinds.map hc

theorem safe_step (hx : ∀ sym, xkb.normalized (xkb.normalized sym) = xkb.normalized sym)
    (st : Keybinds × List String) (ovr : Override) :
    Safe xkb st (applyOverride xkb st ovr) (st.1.accept xkb ovr) := by
  rcases applyOverride_map hx st ovr with
    ⟨warn, he, hs⟩ | ⟨combo, action, ha, hc, hother, hw, hm⟩
  · rw [hs, he]
    refine ⟨fun w hw => ?_, fun c a h => ?_, fun c h => absurd rfl h⟩
    · cases hw
      rfl
    · cases h
  · rw [ha]
    refine ⟨fun w h => ?_, fun c a h => ?_, fun c h => ⟨combo, action, rfl, ?_⟩⟩
    · cases h
    · cases h
      exact ⟨hw, by rw [resolve_eq hc, hm, if_pos rfl]⟩
    · rw [hm] at h ⊢
      by_cases he : c = combo
      · subst he
        cases hk : st.1.map c with
        | none => exact .inr ⟨rfl, rfl, if_pos rfl⟩
        | some other => exact .inl (congrArg some (hother other hk))
      · rw [if_neg he] at h
        cases hk : st.1.map c with
        | none => simp [hk] at h
        | some other =>
          by_cases ho : other = action
          · exact .inl (congrArg some ho)
          · simp [hk, ho] at h

end Keybinds

open Keybinds in
/-- Every action that is bound stays bound; a rejected override leaves one warning and nothing
else; an accepted one binds its shortcut until another of its action is accepted; and it only
takes combinations of its own action and one that is free. -/
theorem overrides_keep_actions (xkb : Xkb)
    (hx : ∀ sym, xkb.normalized (xkb.normalized sym) = xkb.normalized sym) (keybinds : Keybinds)
    (hn : keybinds.Normalized xkb) (overrides : List Override) :
    (keybinds.applyOverrides xkb overrides).1.Normalized xkb ∧
    (∀ action, keybinds.Bound action → (keybinds.applyOverrides xkb overrides).1.Bound action) ∧
    ∀ before override after, overrides = before ++ override :: after →
      Safe xkb (keybinds.applyOverrides xkb before)
        (keybinds.applyOverrides xkb (before ++ [override]))
        ((keybinds.applyOverrides xkb before).1.accept xkb override) ∧
      ∀ combo action,
        (keybinds.applyOverrides xkb before).1.accept xkb override = .ok (combo, action) →
        (∀ between later rest, after = between ++ later :: rest → ∀ c,
          (keybinds.applyOverrides xkb (before ++ override :: between)).1.accept xkb later ≠
            .ok (c, action)) →
        (keybinds.applyOverrides xkb overrides).1.resolve xkb combo.sym combo.mods = some action := by
  have hnormal (overrides : List Override) :
      (keybinds.applyOverrides xkb overrides).1.Normalized xkb := by
    induction overrides using List.reverseRecOn with
    | nil => exact hn
    | append_singleton overrides override ih =>
      simp only [applyOverrides, foldl_concat] at ih ⊢
      exact normalized_step hx ih override
  refine ⟨hnormal overrides, fun action hb => ?_, ?_⟩
  · induction overrides using List.reverseRecOn with
    | nil => exact hb
    | append_singleton overrides override ih =>
      simp only [applyOverrides, foldl_concat] at ih ⊢
      exact bound_step hx ih override
  · rintro before override after rfl
    have hsafe : Safe xkb (keybinds.applyOverrides xkb before)
        (keybinds.applyOverrides xkb (before ++ [override]))
        ((keybinds.applyOverrides xkb before).1.accept xkb override) := by
      simp only [applyOverrides, foldl_concat]
      exact safe_step hx _ override
    refine ⟨hsafe, fun combo action ha hlast => ?_⟩
    have hc := normalized_of_parse hx ((accept_eq_ok).mp ha).2.1
    rw [resolve_eq hc]
    have hfirst := (hsafe.accepted combo action ha).2
    rw [resolve_eq hc] at hfirst
    -- induction on the overrides that come later
    induction after using List.reverseRecOn with
    | nil => exact hfirst
    | append_singleton after later ih =>
      have ih := ih fun between l rest he => hlast between l (rest ++ [later]) (by simp [he])
      have hnew := hlast after later [] rfl
      simp only [applyOverrides, ← cons_append, ← append_assoc, foldl_concat] at ih hnew ⊢
      exact map_step hx ih hnew

/-! One override, and a second one of the same action. -/

/-- Letters have their ASCII codes as key symbols. -/
def asciiXkb : Xkb where
  keysymFromName name := if charCount name = 1 then (name.toList.headD ' ').toNat else 0
  keysymToUtf32 sym := if 32 ≤ sym ∧ sym < 127 then sym else 0
  utf32ToKeysym := id
  toLowercase c := [toAsciiLowercaseChar c]

theorem normalized_asciiXkb (sym : ℕ) :
    asciiXkb.normalized (asciiXkb.normalized sym) = asciiXkb.normalized sym := by
  by_cases h : 32 ≤ sym ∧ sym < 127
  · have hall : ∀ sym < 127, 32 ≤ sym →
        asciiXkb.normalized (asciiXkb.normalized sym) = asciiXkb.normalized sym := by decide
    exact hall sym h.2 h.1
  · have h0 : asciiXkb.keysymToUtf32 sym = 0 := if_neg h
    by_cases ht : sym = isoLeftTab
    · subst ht
      decide
    · simp [Xkb.normalized, ht, h0]

/-- Super and Return launch the terminal. -/
def terminalKeybinds : Keybinds :=
  { map := fun combo => if combo = { mods := { ModMask.empty with super := true }, sym := 0xff0d }
      then some .launchTerminal else none }

theorem normalized_terminalKeybinds : terminalKeybinds.Normalized asciiXkb := by
  intro combo action h
  simp only [terminalKeybinds, ite_none_right_eq_some] at h
  rw [h.1]
  decide

theorem overrides_keep_actions_sample :
    (terminalKeybinds.applyOverrides asciiXkb [("launch_terminal", "Ctrl+Alt+T")]).1.Bound
      .launchTerminal :=
  (overrides_keep_actions asciiXkb normalized_asciiXkb terminalKeybinds normalized_terminalKeybinds
    [("launch_terminal", "Ctrl+Alt+T")]).2.1 _ ⟨_, if_pos rfl⟩

/-- The first of two overrides of an action is accepted, and its shortcut is free again. -/
theorem second_override_frees_first : ¬ ∀ (xkb : Xkb) (keybinds : Keybinds),
    (∀ sym, xkb.normalized (xkb.normalized sym) = xkb.normalized sym) →
    keybinds.Normalized xkb → ∀ overrides before override after combo action,
      overrides = before ++ override :: after →
      (keybinds.applyOverrides xkb before).1.accept xkb override = .ok (combo, action) →
      (keybinds.applyOverrides xkb overrides).1.resolve xkb combo.sym combo.mods = some action := by
  intro h
  have ha : (terminalKeybinds.applyOverrides asciiXkb []).1.accept asciiXkb
      ("launch_terminal", "Ctrl+Alt+T") = .ok
        ({ mods := { ModMask.empty with ctrl := true, alt := true }, sym := 0x74 },
          .launchTerminal) := by decide +kernel
  have hr := h asciiXkb terminalKeybinds normalized_asciiXkb normalized_terminalKeybinds
    [("launch_terminal", "Ctrl+Alt+T"), ("launch_terminal", "Ctrl+Alt+U")] [] _ _ _ _ rfl ha
  exact absurd hr (by decide +kernel)

end FocalDesk
