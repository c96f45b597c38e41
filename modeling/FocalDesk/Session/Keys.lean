import FocalDesk.Keyboard.Alternation

/-! The way of a key through locks, panels, dialogs, chrome focus and shortcuts to the client. -/
namespace FocalDesk.Session
open Library Option

structure ModMask where
  shift : Bool
  ctrl : Bool
  alt : Bool
  super : Bool
deriving DecidableEq, Repr

/-- Key symbols are xkb's numbers. -/
abbrev KeySymbol := ℕ

namespace Keysyms

def keyEscape : KeySymbol := 0xff1b
def keyReturn : KeySymbol := 0xff0d
def keyKpEnter : KeySymbol := 0xff8d
def keyTab : KeySymbol := 0xff09
def keyIsoLeftTab : KeySymbol := 0xfe20
def keySpace : KeySymbol := 0x20
def keyXf86PowerOff : KeySymbol := 0x1008ff2a
def keyXf86Sleep : KeySymbol := 0x1008ff2f

end Keysyms

structure KeyCombo where
  mods : ModMask
  sym : KeySymbol
deriving DecidableEq, Repr

/-- The bindings, and xkb's lower case of a symbol that stands for a letter. -/
structure Keybinds (α : Type) where
  lowercase : KeySymbol → KeySymbol
  map : List (KeyCombo × α)

namespace Keybinds

variable {α : Type} (keybinds : Keybinds α)

def normalized (sym : KeySymbol) : KeySymbol :=
  if sym = Keysyms.keyIsoLeftTab then Keysyms.keyTab else keybinds.lowercase sym

def resolve (sym : KeySymbol) (mods : ModMask) : Option α :=
  keybinds.map.lookup { mods, sym := keybinds.normalized sym }

end Keybinds

inductive ShortcutDispatch (α : Type) where
  | forward
  | intercept
  | trigger (action : α)

def shortcutDispatch {α : Type} (keybinds : Keybinds α) (sym : KeySymbol) (mods : ModMask)
    (state : KeyState) : ShortcutDispatch α :=
  match keybinds.resolve sym mods with
  | none => .forward
  | some action =>
    match state with
    | .pressed => .trigger action
    | .released => .intercept

structure Dialog where
  id : ℕ
  dismissible : Bool
deriving DecidableEq, Repr

/-- What stands between a key and the client: the lock screen, the panels of the focused output,
the dialogs and the keyboard focus of the chrome. -/
structure Overlays where
  lockScreenActive : Bool
  panelsOpen : Bool
  dialogs : List Dialog
  activeDialog : Option ℕ
  uiFocused : Bool
deriving DecidableEq, Repr

/-- A key with what xkb says about it at that moment. `takenByPanel` is what an open panel
answers to it. -/
structure PreparedKeyEvent where
  keycode : ℕ
  state : KeyState
  symbol : KeySymbol
  modifiers : ModMask
  takenByPanel : Bool
deriving DecidableEq, Repr

def PreparedKeyEvent.transition (prepared : PreparedKeyEvent) : KeyTransition :=
  ⟨prepared.keycode, prepared.state⟩

namespace Overlays

variable (overlays : Overlays)

def closeDialog (id : ℕ) : Overlays :=
  { overlays with
    dialogs := overlays.dialogs.filter fun dialog => dialog.id ≠ id
    activeDialog := if overlays.activeDialog = some id then none else overlays.activeDialog }

/-- The dialog that input goes to. -/
def openDialog : Option Dialog :=
  overlays.activeDialog.bind fun id => overlays.dialogs.find? fun dialog => dialog.id = id

end Overlays

def navigationKey (sym : KeySymbol) : Bool :=
  decide (sym ∈ [Keysyms.keyTab, Keysyms.keyIsoLeftTab, Keysyms.keyReturn, Keysyms.keyKpEnter,
    Keysyms.keySpace, Keysyms.keyEscape])

section

variable {α : Type} (keybinds : Keybinds α) (overlays : Overlays) (prepared prep : PreparedKeyEvent)

/-- The overlays after a key, and whether it goes on to the client. What a shortcut or a button
does to the overlays comes after it, as a change of its own. -/
def dispatchPreparedKeyEvent : Overlays × Bool :=
  match overlays.openDialog with
  | some dialog =>
    if prepared.state = .pressed ∧
        (prepared.symbol = Keysyms.keyEscape ∧ dialog.dismissible = true ∨
          prepared.symbol = Keysyms.keyReturn ∨ prepared.symbol = Keysyms.keyKpEnter) then
      (overlays.closeDialog dialog.id, false)
    else (overlays, false)
  | none =>
    if overlays.uiFocused = true ∧ navigationKey prepared.symbol = true then
      if prepared.state = .pressed ∧ prepared.symbol ≠ Keysyms.keyTab ∧
          prepared.symbol ≠ Keysyms.keyIsoLeftTab then
        ({ overlays with uiFocused := false }, false)
      else (overlays, false)
    else if prepared.state = .pressed ∧
        (prepared.symbol = Keysyms.keyXf86PowerOff ∨ prepared.symbol = Keysyms.keyXf86Sleep) then
      (overlays, false)
    else
      match shortcutDispatch keybinds prepared.symbol prepared.modifiers prepared.state with
      | .forward => (overlays, true)
      | .intercept => (overlays, false)
      | .trigger _ => (overlays, false)

def handleKeyboardInput : Overlays × Bool :=
  if prepared.state = .pressed ∧ prepared.keycode = 1 ∧ overlays.panelsOpen = true then
    ({ overlays with panelsOpen := false }, false)
  else if overlays.panelsOpen = true ∧ prepared.takenByPanel = true then (overlays, false)
  else dispatchPreparedKeyEvent keybinds overlays prepared

/-- The lock screen keeps every key. -/
def handleKey : Overlays × Bool :=
  if overlays.lockScreenActive = true then (overlays, false)
  else handleKeyboardInput keybinds overlays prepared

/-- Nothing stands between the key and the client, whatever its state. -/
def Clear : Prop :=
  overlays.lockScreenActive = false ∧ ¬(overlays.panelsOpen = true ∧ prepared.takenByPanel = true) ∧
    overlays.openDialog = none ∧
    ¬(overlays.uiFocused = true ∧ navigationKey prepared.symbol = true) ∧
    keybinds.resolve prepared.symbol prepared.modifiers = none

instance : Decidable (Clear keybinds overlays prepared) :=
  inferInstanceAs (Decidable (_ ∧ ¬_ ∧ _ ∧ ¬_ ∧ _))

end

/-- `down` holds the keys that are physically down, `cycles` those of them whose press went on
to the client, and `forwarded` what the client got. -/
structure KeyDesk where
  overlays : Overlays
  down : Finset ℕ
  cycles : Finset ℕ
  forwarded : List KeyTransition

inductive DeskEvent where
  | key (prepared : PreparedKeyEvent)
  | overlays (overlays : Overlays)

namespace KeyDesk

variable {α : Type} (keybinds : Keybinds α)

def start (overlays : Overlays) : KeyDesk :=
  { overlays, down := ∅, cycles := ∅, forwarded := [] }

/-- Presses and releases of a key take turns; the overlays change as they like. -/
def step (desk : KeyDesk) : DeskEvent → Option KeyDesk
  | .overlays overlays => some { desk with overlays }
  | .key prepared =>
    if prepared.state = .pressed ↔ prepared.keycode ∉ desk.down then
      let handled := handleKey keybinds desk.overlays prepared
      some
        { overlays := handled.1
          down := prepared.transition.track desk.down
          cycles := if handled.2 then prepared.transition.track desk.cycles
            else desk.cycles.erase prepared.keycode
          forwarded := if handled.2 then desk.forwarded ++ [prepared.transition]
            else desk.forwarded }
    else none

/-- A client has got presses and releases in turn, and no key is down for it that is up. -/
structure WellFormed (desk : KeyDesk) : Prop where
  inTurn : InTurn ∅ desk.forwarded
  notStuck : downAfter ∅ desk.forwarded ⊆ desk.down

/-- The step leaves the client with well-formed key cycles. -/
def KeepsCycles (desk : KeyDesk) (event : DeskEvent) : Prop :=
  ∀ next, step keybinds desk event = some next → WellFormed next

/-- A release finds the way to the client clear exactly when the press of its cycle went there. -/
def LikePress (desk : KeyDesk) : DeskEvent → Prop
  | .key prepared => prepared.state = .released → prepared.keycode ∈ desk.down →
      (Clear keybinds desk.overlays prepared ↔ prepared.keycode ∈ desk.cycles)
  | .overlays _ => True

instance (desk : KeyDesk) : (event : DeskEvent) → Decidable (LikePress keybinds desk event)
  | .key _ => inferInstanceAs (Decidable (_ → _ → (_ ↔ _)))
  | .overlays _ => isTrue trivial

section

variable {keybinds} {desk next : KeyDesk} {ev : DeskEvent} {prepared prep : PreparedKeyEvent}
  {overlays : Overlays}

/-- A release goes to the client exactly when its way is clear. -/
theorem handleKey_released (h : prep.state = .released) :
    (handleKey keybinds overlays prep).2 ↔ Clear keybinds overlays prep := by
  have hup : ¬prep.state = .pressed := by simp [h]
  unfold handleKey Clear
  by_cases hl : overlays.lockScreenActive
  · simp [hl]
  rw [if_neg hl]
  unfold handleKeyboardInput
  rw [if_neg fun he => hup he.1]
  by_cases hp : overlays.panelsOpen ∧ prep.takenByPanel
  · simp [hp]
  rw [if_neg hp]
  unfold dispatchPreparedKeyEvent
  rcases hd : overlays.openDialog with _ | dialog
  · dsimp only
    by_cases hf : overlays.uiFocused ∧ navigationKey prep.symbol
    · rw [if_pos hf, if_neg fun hn => hup hn.1]
      simp [hf]
    rw [if_neg hf, if_neg fun hpo => hup hpo.1]
    unfold shortcutDispatch
    rcases hb : keybinds.resolve prep.symbol prep.modifiers with _ | act
    · simp only [hl, hp, hf]
      simp
    · rw [h]
      simp
  · simp [hup]

/-- The client's keys are those whose press went to it, and they are down. -/
structure Inv (desk : KeyDesk) : Prop where
  inTurn : InTurn ∅ desk.forwarded
  downAfter : downAfter ∅ desk.forwarded = desk.cycles
  cycles : desk.cycles ⊆ desk.down

theorem Inv.wellFormed (h : Inv desk) : WellFormed desk :=
  ⟨h.inTurn, by rw [h.downAfter]; exact h.cycles⟩

theorem downAfter_snoc (evs : List KeyTransition) (transition : KeyTransition) :
    FocalDesk.downAfter ∅ (evs ++ [transition]) = transition.track (FocalDesk.downAfter ∅ evs) := by
  simp [FocalDesk.downAfter]

theorem inTurn_snoc {evs : List KeyTransition} {transition : KeyTransition} :
    InTurn ∅ (evs ++ [transition]) ↔ InTurn ∅ evs ∧
      (transition.state = .pressed ↔ transition.keycode ∉ FocalDesk.downAfter ∅ evs) := by
  simp [ordered_append, InTurn]

theorem Inv.press (h : Inv desk) (hs : prep.state = .pressed)
    (hup : prep.keycode ∉ desk.down) (hst : step keybinds desk (.key prep) = some next)
    : Inv next := by
  have hc : prep.keycode ∉ desk.cycles := fun hm => hup (h.cycles hm)
  have htu : prep.state = .pressed ↔ prep.keycode ∉ desk.down := by simp [hs, hup]
  have ht : ∀ keys : Finset ℕ, prep.transition.track keys =
      insert prep.keycode keys := by
    intro keys
    simp [KeyTransition.track, PreparedKeyEvent.transition, hs]
  simp only [step, if_pos htu, some.injEq] at hst
  subst hst
  cases hf : (handleKey keybinds desk.overlays prep).2 with
  | true =>
    refine ⟨?_, ?_, ?_⟩
    · simp only [if_pos]
      refine (inTurn_snoc).mpr ⟨h.inTurn, ?_⟩
      rw [h.downAfter]
      simp [PreparedKeyEvent.transition, hs, hc]
    · simp only [if_pos]
      rw [downAfter_snoc, h.downAfter]
    · simp only [if_pos, ht]
      exact Finset.insert_subset_insert _ h.cycles
  | false =>
    simp only [Bool.false_eq_true, if_false, ht, Finset.erase_eq_of_notMem hc]
    exact ⟨h.inTurn, h.downAfter, h.cycles.trans (Finset.subset_insert _ _)⟩

/-- After a release the client's cycles are well formed exactly when it went the way of its
press. -/
theorem Inv.release (h : Inv desk) (hstate : prep.state = .released)
    (hdown : prep.keycode ∈ desk.down) (hstep : step keybinds desk (.key prep) = some next)
    :
    (WellFormed next ↔ (Clear keybinds desk.overlays prep ↔ prep.keycode ∈ desk.cycles)) ∧
      (WellFormed next → Inv next) := by
  have hturn : prep.state = .pressed ↔ prep.keycode ∉ desk.down := by simp [hstate, hdown]
  have htrack : ∀ keys : Finset ℕ, prep.transition.track keys =
      keys.erase prep.keycode := by
    intro keys
    simp [KeyTransition.track, PreparedKeyEvent.transition, hstate]
  simp only [step, if_pos hturn, some.injEq] at hstep
  subst hstep
  rw [← handleKey_released hstate]
  cases hforwarded : (handleKey keybinds desk.overlays prep).2 with
  | true =>
    simp only [if_pos, htrack, true_iff]
    have hlast : InTurn ∅ (desk.forwarded ++ [prep.transition]) ↔
        prep.keycode ∈ desk.cycles := by
      rw [inTurn_snoc, h.downAfter]
      simp [h.inTurn, PreparedKeyEvent.transition, hstate]
    have hafter : FocalDesk.downAfter ∅ (desk.forwarded ++ [prep.transition]) =
        desk.cycles.erase prep.keycode := by
      rw [downAfter_snoc, h.downAfter, htrack]
    have hsubset : desk.cycles.erase prep.keycode ⊆ desk.down.erase prep.keycode :=
      Finset.erase_subset_erase _ h.cycles
    refine ⟨⟨fun hwell => hlast.mp hwell.inTurn, fun hmem => ⟨hlast.mpr hmem, ?_⟩⟩,
      fun hwell => ⟨hwell.inTurn, hafter, hsubset⟩⟩
    dsimp only
    rw [hafter]
    exact hsubset
  | false =>
    simp only [Bool.false_eq_true, if_false, htrack, false_iff]
    have hkept : prep.keycode ∉ desk.cycles →
        Inv { overlays := (handleKey keybinds desk.overlays prep).1
              down := desk.down.erase prep.keycode
              cycles := desk.cycles.erase prep.keycode
              forwarded := desk.forwarded } := by
      intro hcycle
      rw [Finset.erase_eq_of_notMem hcycle]
      exact ⟨h.inTurn, h.downAfter, fun k hk =>
        Finset.mem_erase.mpr ⟨ne_of_mem_of_not_mem hk hcycle, h.cycles hk⟩⟩
    have hneeds : WellFormed { overlays := (handleKey keybinds desk.overlays prep).1
                               down := desk.down.erase prep.keycode
                               cycles := desk.cycles.erase prep.keycode
                               forwarded := desk.forwarded } →
        prep.keycode ∉ desk.cycles := by
      intro hwell hcycle
      have hstuck := hwell.notStuck
      dsimp only at hstuck
      rw [h.downAfter] at hstuck
      exact (Finset.mem_erase.mp (hstuck hcycle)).1 rfl
    exact ⟨⟨hneeds, fun hcycle => (hkept hcycle).wellFormed⟩, fun hwell => hkept (hneeds hwell)⟩

theorem keepsCycles_iff (h : Inv desk) :
    (KeepsCycles keybinds desk ev ↔ LikePress keybinds desk ev) ∧
      (KeepsCycles keybinds desk ev → ∀ next, step keybinds desk ev = some next → Inv next) := by
  cases ev with
  | overlays overlays =>
    have hi : ∀ next, step keybinds desk (.overlays overlays) = some next → Inv next := by
      intro next hs
      cases some.inj hs
      exact ⟨h.inTurn, h.downAfter, h.cycles⟩
    exact ⟨iff_of_true (fun next hs => (hi next hs).wellFormed) trivial, fun _ => hi⟩
  | key prep =>
    by_cases ht : prep.state = .pressed ↔ prep.keycode ∉ desk.down
    · cases hst : prep.state with
      | pressed =>
        have hup : prep.keycode ∉ desk.down := ht.mp hst
        have hi : ∀ next, step keybinds desk (.key prep) = some next → Inv next :=
          fun next hs => h.press hst hup hs
        refine ⟨iff_of_true (fun next hs => (hi next hs).wellFormed) ?_, fun _ => hi⟩
        intro hr
        rw [hst] at hr
        cases hr
      | released =>
        have hd : prep.keycode ∈ desk.down := by
          by_contra hup
          rw [ht.mpr hup] at hst
          cases hst
        refine ⟨⟨fun hk _ _ => ?_, fun hl next hs => ?_⟩, fun hk next hs => ?_⟩
        · have hs : step keybinds desk (.key prep) = some _ := if_pos ht
          exact (h.release hst hd hs).1.mp (hk _ hs)
        · exact (h.release hst hd hs).1.mpr (hl hst hd)
        · exact (h.release hst hd hs).2 (hk next hs)
    · have hn : step keybinds desk (.key prep) = none := if_neg ht
      refine ⟨iff_of_true (fun next hs => ?_) fun hst hd => ?_, fun _ next hs => ?_⟩
      · rw [hn] at hs
        cases hs
      · exact absurd (by simp [hst, hd]) ht
      · rw [hn] at hs
        cases hs

end

/-- The client gets well-formed key cycles in exactly the runs in which each release finds the
way to it clear if its press went there, and not clear if it did not. Then the events of each
key alternate. -/
theorem cycles_wellFormed_iff (overlays : Overlays) (events : List DeskEvent) :
    (Meets (step keybinds) (KeepsCycles keybinds) (start overlays) events ↔
      Meets (step keybinds) (LikePress keybinds) (start overlays) events) ∧
    (Meets (step keybinds) (LikePress keybinds) (start overlays) events → ∀ desk,
      run (step keybinds) (start overlays) events = some desk → ∀ keycode,
        Alternates .pressed (statesOf keycode desk.forwarded)) := by
  have hst : Inv (start overlays) := ⟨trivial, rfl, Finset.Subset.refl _⟩
  have hif : Meets (step keybinds) (KeepsCycles keybinds) (start overlays) events ↔
      Meets (step keybinds) (LikePress keybinds) (start overlays) events := by
    generalize start overlays = desk at hst
    induction events generalizing desk with
    | nil => exact Iff.rfl
    | cons event events ih =>
      obtain ⟨ho, hi⟩ :
          (KeepsCycles keybinds desk event ↔ LikePress keybinds desk event) ∧
            (KeepsCycles keybinds desk event → ∀ next, step keybinds desk event = some next →
              Inv next) := keepsCycles_iff hst
      constructor
      · exact fun hm => ⟨ho.mp hm.1, fun next hs =>
          (ih next (hi hm.1 next hs)).mp (hm.2 next hs)⟩
      · exact fun hm => ⟨ho.mpr hm.1, fun next hs =>
          (ih next (hi (ho.mpr hm.1) next hs)).mpr (hm.2 next hs)⟩
  refine ⟨hif, fun hm desk hr keycode => ?_⟩
  have hl : Inv desk := run_invariant_of_meets (fun hs hok hi =>
    (keepsCycles_iff hi).2 ((keepsCycles_iff hi).1.mpr hok) _ hs) hm hr hst
  simpa using hl.inTurn.alternates keycode

/-- Super and Left are one shortcut. -/
def superLeft : Keybinds ℕ where
  lowercase := id
  map := [(⟨⟨false, false, false, true⟩, 0xff51⟩, 0)]

def noOverlays : Overlays where
  lockScreenActive := false
  panelsOpen := false
  dialogs := []
  activeDialog := none
  uiFocused := false

/-- Super goes up before Left does. -/
def superFirst : List DeskEvent :=
  [.key ⟨133, .pressed, 0xffeb, ⟨false, false, false, true⟩, false⟩,
    .key ⟨113, .pressed, 0xff51, ⟨false, false, false, true⟩, false⟩,
    .key ⟨133, .released, 0xffeb, ⟨false, false, false, false⟩, false⟩]

def leftUp : DeskEvent := .key ⟨113, .released, 0xff51, ⟨false, false, false, false⟩, false⟩

theorem release_without_press :
    ¬ ∀ (keybinds : Keybinds ℕ) overlays events,
      Meets (step keybinds) (KeepsCycles keybinds) (start overlays) events := by
  intro ha
  have he : (run (step superLeft) (start noOverlays) superFirst).any (fun desk =>
      (step superLeft desk leftUp).any fun next =>
        decide (next.forwarded = [⟨133, .pressed⟩, ⟨133, .released⟩, ⟨113, .released⟩])) =
      true := by decide
  obtain ⟨desk, hr, he⟩ := exists_run_of_any he
  obtain ⟨next, hs, hf⟩ := (any_eq_true _ _).mp he
  have hl := (meets_append (ha superLeft noOverlays (superFirst ++ [leftUp])) hr).2.1
  have ht := (hl next hs).inTurn
  rw [of_decide_eq_true hf] at ht
  simp [InTurn, KeyTransition.track] at ht

end KeyDesk

end FocalDesk.Session
