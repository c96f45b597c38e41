import FocalDesk.Library.BTreeMap
import FocalDesk.Library.Transition
import Mathlib.Data.List.Nodup

/-! Concurrent calls on a shared value: each changes it, writes all of it to a file, and puts
the value it found back when the write fails. -/
namespace FocalDesk.Library.Undo
open Std.ExtTreeMap Prod

/-- A value with the calls whose changes made it, oldest first. -/
structure Stamped (S O : Type) where
  value : S
  history : List (ℕ × O)

/-- What a call checks before it takes the lock, the change it makes under the lock, whether
the encoded value is small enough, and whether there is a file at all. -/
structure System (S O : Type) where
  accepts : O → S → Bool
  mutate : O → S → Except String S
  fits : S → Bool
  stored : Bool

inductive Stage (S O : Type) where
  | accepted
  | changed (previous : Stamped S O)
  | encoded (previous bytes : Stamped S O)
  | failed (previous : Stamped S O)
  | returned (ok : Bool)

structure Call (S O : Type) where
  op : O
  stage : Stage S O

structure State (S O : Type) where
  memory : Stamped S O
  file : Stamped S O
  calls : BTreeMap ℕ (Call S O)

/-- A write replaces the file or not, and may report a failure after it did. -/
inductive Outcome where
  | landed
  | lost
  | unsynced
deriving DecidableEq

inductive Event (O : Type) where
  | begin (c : ℕ) (op : O)
  | change (c : ℕ)
  | encode (c : ℕ)
  | write (c : ℕ) (outcome : Outcome)
  | restore (c : ℕ)

variable {S O : Type} {sys : System S O} {init : S} {s t : State S O} {e : Event O}
  {c d : ℕ} {op o : O} {stage : Stage S O} {x prev bytes : Stamped S O}
  {memory file file' : List (ℕ × O)}

def State.opened (value : S) : State S O :=
  { memory := ⟨value, []⟩, file := ⟨value, []⟩, calls := ∅ }

def State.set (s : State S O) (c : ℕ) (op : O) (stage : Stage S O) : State S O :=
  { s with calls := s.calls.insert c ⟨op, stage⟩ }

def step (sys : System S O) (s : State S O) : Event O → Option (State S O)
  | .begin c op =>
    if c ∈ s.calls then none
    else if sys.accepts op s.memory.value then some (s.set c op .accepted)
    else some (s.set c op (.returned false))
  | .change c =>
    match s.calls[c]? with
    | some ⟨op, .accepted⟩ =>
      match sys.mutate op s.memory.value with
      | .error _ => some (s.set c op (.returned false))
      | .ok value => some { s.set c op (.changed s.memory) with
          memory := ⟨value, s.memory.history ++ [(c, op)]⟩ }
    | _ => none
  | .encode c =>
    match s.calls[c]? with
    | some ⟨op, .changed previous⟩ =>
      if sys.stored = false then some (s.set c op (.returned true))
      else if sys.fits s.memory.value then some (s.set c op (.encoded previous s.memory))
      else some (s.set c op (.failed previous))
    | _ => none
  | .write c outcome =>
    match s.calls[c]? with
    | some ⟨op, .encoded previous bytes⟩ =>
      match outcome with
      | .landed => some { s.set c op (.returned true) with file := bytes }
      | .lost => some (s.set c op (.failed previous))
      | .unsynced => some { s.set c op (.failed previous) with file := bytes }
    | _ => none
  | .restore c =>
    match s.calls[c]? with
    | some ⟨op, .failed previous⟩ =>
      some { s.set c op (.returned false) with memory := previous }
    | _ => none

/-- What a step can do, one case for each branch. -/
inductive Step (sys : System S O) (s : State S O) : Event O → State S O → Prop
  | accept {c : ℕ} {op : O} (h : c ∉ s.calls) : Step sys s (.begin c op) (s.set c op .accepted)
  | refuse {c : ℕ} {op : O} (h : c ∉ s.calls) :
      Step sys s (.begin c op) (s.set c op (.returned false))
  | reject {c : ℕ} {op : O} (h : s.calls[c]? = some ⟨op, .accepted⟩) :
      Step sys s (.change c) (s.set c op (.returned false))
  | change {c : ℕ} {op : O} {value : S} (h : s.calls[c]? = some ⟨op, .accepted⟩)
      (hvalue : sys.mutate op s.memory.value = .ok value) :
      Step sys s (.change c) { s.set c op (.changed s.memory) with
        memory := ⟨value, s.memory.history ++ [(c, op)]⟩ }
  | keep {c : ℕ} {op : O} {previous : Stamped S O}
      (h : s.calls[c]? = some ⟨op, .changed previous⟩)
      (hstored : sys.stored = false) : Step sys s (.encode c) (s.set c op (.returned true))
  | encode {c : ℕ} {op : O} {previous : Stamped S O}
      (h : s.calls[c]? = some ⟨op, .changed previous⟩) :
      Step sys s (.encode c) (s.set c op (.encoded previous s.memory))
  | exceed {c : ℕ} {op : O} {previous : Stamped S O}
      (h : s.calls[c]? = some ⟨op, .changed previous⟩) :
      Step sys s (.encode c) (s.set c op (.failed previous))
  | land {c : ℕ} {op : O} {previous bytes : Stamped S O}
      (h : s.calls[c]? = some ⟨op, .encoded previous bytes⟩) :
      Step sys s (.write c .landed) { s.set c op (.returned true) with file := bytes }
  | lose {c : ℕ} {op : O} {previous bytes : Stamped S O}
      (h : s.calls[c]? = some ⟨op, .encoded previous bytes⟩) :
      Step sys s (.write c .lost) (s.set c op (.failed previous))
  | unsync {c : ℕ} {op : O} {previous bytes : Stamped S O}
      (h : s.calls[c]? = some ⟨op, .encoded previous bytes⟩) :
      Step sys s (.write c .unsynced) { s.set c op (.failed previous) with file := bytes }
  | restore {c : ℕ} {op : O} {previous : Stamped S O}
      (h : s.calls[c]? = some ⟨op, .failed previous⟩) :
      Step sys s (.restore c) { s.set c op (.returned false) with memory := previous }

theorem step_cases (h : step sys s e = some t) : Step sys s e t := by
  cases e with
  | begin c op =>
    simp only [step] at h
    split at h
    · cases h
    · split at h
      · cases h
        exact .accept ‹_›
      · cases h
        exact .refuse ‹_›
  | change c =>
    simp only [step] at h
    split at h
    case h_1 hc =>
      split at h
      · cases h
        exact .reject hc
      case h_2 hv =>
        cases h
        exact .change hc hv
    case h_2 => cases h
  | encode c =>
    simp only [step] at h
    split at h
    case h_1 hc =>
      split at h
      case isTrue hs =>
        cases h
        exact .keep hc hs
      case isFalse =>
        split at h
        · cases h
          exact .encode hc
        · cases h
          exact .exceed hc
    case h_2 => cases h
  | write c out =>
    simp only [step] at h
    split at h
    case h_1 hc =>
      cases out with
      | landed =>
        cases h
        exact .land hc
      | lost =>
        cases h
        exact .lose hc
      | unsynced =>
        cases h
        exact .unsync hc
    case h_2 => cases h
  | restore c =>
    simp only [step] at h
    split at h
    case h_1 hc =>
      cases h
      exact .restore hc
    case h_2 => cases h

/-! Histories. -/

def apply (sys : System S O) (value : S) (entry : ℕ × O) : S :=
  (sys.mutate entry.2 value).toOption.getD value

/-- The value that the changes of some calls make, one after the other. -/
def replay (sys : System S O) (init : S) (history : List (ℕ × O)) : S :=
  history.foldl (apply sys) init

theorem replay_snoc {v : S} (h : sys.mutate op (replay sys init memory) = .ok v) :
    replay sys init (memory ++ [(c, op)]) = v := by
  simp only [replay, List.foldl_append, List.foldl_cons, List.foldl_nil]
  simp only [replay] at h
  simp [apply, h, Except.toOption]

/-- A write takes nothing from the file and brings nothing that was put back, and a call puts
back the value it found only while its own change is the last one and is not on file. -/
def InOrder (s : State S O) : Event O → Prop
  | .write c outcome =>
    match s.calls[c]? with
    | some ⟨_, .encoded _ bytes⟩ => outcome ≠ .lost →
        s.file.history <+: bytes.history ∧ bytes.history <+: s.memory.history
    | _ => True
  | .restore c =>
    match s.calls[c]? with
    | some ⟨op, .failed previous⟩ =>
        s.memory.history = previous.history ++ [(c, op)] ∧ (c, op) ∉ s.file.history
    | _ => True
  | _ => True

instance [DecidableEq O] (s : State S O) (e : Event O) : Decidable (InOrder s e) := by
  unfold InOrder
  split
  · split <;> infer_instance
  · split <;> infer_instance
  · infer_instance

def Stamped.Faithful (sys : System S O) (init : S) (x : Stamped S O) : Prop :=
  x.value = replay sys init x.history

def Stage.Holds (sys : System S O) (init : S) (memory file : List (ℕ × O)) (c : ℕ) (op : O) :
    Stage S O → Prop
  | .accepted => c ∉ memory.map Prod.fst
  | .changed previous | .failed previous =>
      previous.Faithful sys init ∧ previous.history ++ [(c, op)] <+: memory
  | .encoded previous bytes =>
      (previous.Faithful sys init ∧ previous.history ++ [(c, op)] <+: memory) ∧
        bytes.Faithful sys init ∧ (c, op) ∈ bytes.history
  | .returned true => (c, op) ∈ memory ∧ (sys.stored = true → (c, op) ∈ file)
  | .returned false => c ∉ memory.map Prod.fst

structure Inv (sys : System S O) (init : S) (s : State S O) : Prop where
  nodup : (s.memory.history.map Prod.fst).Nodup
  memory : s.memory.Faithful sys init
  file : s.file.Faithful sys init
  onFile : s.file.history <+: s.memory.history
  known : ∀ (c : ℕ) (op : O), (c, op) ∈ s.memory.history → ∃ stage, s.calls[c]? = some ⟨op, stage⟩
  holds : ∀ (c : ℕ) (op : O) (stage : Stage S O), s.calls[c]? = some ⟨op, stage⟩ →
    stage.Holds sys init s.memory.history s.file.history c op

/-! A call's obligation while others act. -/

theorem holds_append (h : stage.Holds sys init memory file d o) (hne : d ≠ c) :
    stage.Holds sys init (memory ++ [(c, op)]) file d o := by
  have hp : ∀ {xs : List (ℕ × O)}, xs <+: memory → xs <+: memory ++ [(c, op)] :=
    fun hxs => hxs.trans (List.prefix_append _ _)
  have ho : d ∉ memory.map fst → d ∉ (memory ++ [(c, op)]).map fst := by
    intro hd
    simp only [List.map_append, List.map_cons, List.map_nil, List.mem_append, List.mem_singleton,
      not_or]
    exact ⟨hd, hne⟩
  cases stage with
  | accepted => exact ho h
  | changed prev => exact ⟨h.1, hp h.2⟩
  | failed prev => exact ⟨h.1, hp h.2⟩
  | encoded prev bytes => exact ⟨⟨h.1.1, hp h.1.2⟩, h.2⟩
  | returned ok =>
    cases ok with
    | true => exact ⟨List.mem_append_left _ h.1, h.2⟩
    | false => exact ho h

theorem prefix_of_snoc_prefix {xs : List (ℕ × O)} (h : xs ++ [(d, o)] <+: memory ++ [(c, op)])
    (hne : d ≠ c) : xs ++ [(d, o)] <+: memory := by
  rcases List.prefix_concat_iff.mp h with heq | h
  · have hl := List.append_inj_right' heq rfl
    simp only [List.cons.injEq, Prod.mk.injEq, and_true] at hl
    exact absurd hl.1 hne
  · exact h

theorem holds_undo (h : stage.Holds sys init (memory ++ [(c, op)]) file d o) (hne : d ≠ c) :
    stage.Holds sys init memory file d o := by
  have ho : d ∉ (memory ++ [(c, op)]).map fst → d ∉ memory.map fst := by
    intro hd hm
    apply hd
    rw [List.map_append]
    exact List.mem_append_left _ hm
  cases stage with
  | accepted => exact ho h
  | changed prev => exact ⟨h.1, prefix_of_snoc_prefix h.2 hne⟩
  | failed prev => exact ⟨h.1, prefix_of_snoc_prefix h.2 hne⟩
  | encoded prev bytes => exact ⟨⟨h.1.1, prefix_of_snoc_prefix h.1.2 hne⟩, h.2⟩
  | returned ok =>
    cases ok with
    | true =>
      refine ⟨?_, h.2⟩
      rcases List.mem_append.mp h.1 with hm | hm
      · exact hm
      · simp only [List.mem_singleton, Prod.mk.injEq] at hm
        exact absurd hm.1 hne
    | false => exact ho h

theorem holds_file (h : stage.Holds sys init memory file d o) (hf : file <+: file') :
    stage.Holds sys init memory file' d o := by
  cases stage with
  | returned ok =>
    cases ok with
    | true => exact ⟨h.1, fun hs => hf.subset (h.2 hs)⟩
    | false => exact h
  | _ => exact h

/-! One step. -/

theorem getElem?_set : (s.set c op stage).calls[d]? =
    if d = c then some ⟨op, stage⟩ else s.calls[d]? := by
  simp only [State.set, getElem?_insert, Std.LawfulEqCmp.compare_eq_iff_eq]
  simp only [eq_comm]

/-- A step of one call that leaves the value and the file alone. -/
theorem Inv.set (h : Inv sys init s) (hop : c ∉ s.calls ∨ ∃ stage, s.calls[c]? = some ⟨op, stage⟩)
    (hs : stage.Holds sys init s.memory.history s.file.history c op) :
    Inv sys init (s.set c op stage) where
  nodup := h.nodup
  memory := h.memory
  file := h.file
  onFile := h.onFile
  known := by
    intro d o hm
    obtain ⟨stage', hd⟩ := h.known d o hm
    rw [getElem?_set]
    by_cases hdc : d = c
    · subst hdc
      rcases hop with hn | ⟨stage'', hc⟩
      · exact absurd (mem_of_getElem? hd) hn
      · rw [hd] at hc
        cases hc
        exact ⟨stage, if_pos rfl⟩
    · exact ⟨stage', by rw [if_neg hdc, hd]⟩
  holds := by
    intro d o stage' hd
    rw [getElem?_set] at hd
    by_cases hdc : d = c
    · rw [if_pos hdc] at hd
      cases hd
      exact hdc ▸ hs
    · rw [if_neg hdc] at hd
      exact h.holds d o stage' hd

/-- The file takes bytes that hold what it held and nothing that was put back. -/
theorem Inv.write (h : Inv sys init s) (hb : bytes.Faithful sys init)
    (hf : s.file.history <+: bytes.history) (hm : bytes.history <+: s.memory.history) :
    Inv sys init { s with file := bytes } where
  nodup := h.nodup
  memory := h.memory
  file := hb
  onFile := hm
  known := h.known
  holds d o stage hd := holds_file (h.holds d o stage hd) hf

theorem not_mem_of_not_mem_calls (h : Inv sys init s) (hc : c ∉ s.calls) :
    c ∉ s.memory.history.map fst := by
  intro hm
  obtain ⟨⟨d, o⟩, he, rfl⟩ := List.mem_map.mp hm
  obtain ⟨stage, hd⟩ := h.known d o he
  exact hc (mem_of_getElem? hd)

theorem inv_opened : Inv sys init (State.opened init) where
  nodup := by simp [State.opened]
  memory := rfl
  file := rfl
  onFile := List.prefix_refl _
  known c op h := by cases h
  holds c op stage h := by simp [State.opened] at h

theorem inv_change {v : S} (h : Inv sys init s) (hc : s.calls[c]? = some ⟨op, .accepted⟩)
    (hv : sys.mutate op s.memory.value = .ok v) :
    Inv sys init { s.set c op (.changed s.memory) with
      memory := ⟨v, s.memory.history ++ [(c, op)]⟩ } := by
  have hn : c ∉ s.memory.history.map fst := h.holds c op .accepted hc
  refine ⟨?_, ?_, h.file, h.onFile.trans (List.prefix_append _ _), ?_, ?_⟩
  · simp only [List.map_append, List.map_cons, List.map_nil]
    exact List.nodup_append.mpr ⟨h.nodup, List.nodup_singleton c, by
      intro a ha b hb hab
      rw [List.mem_singleton] at hb
      exact hn (hb ▸ hab ▸ ha)⟩
  · have hm := h.memory
    simp only [Stamped.Faithful] at hm ⊢
    rw [hm] at hv
    exact (replay_snoc hv).symm
  · intro d o hme
    rw [getElem?_set]
    rcases List.mem_append.mp hme with hold | hme
    · obtain ⟨stage, hd⟩ := h.known d o hold
      have hdc : d ≠ c := by
        rintro rfl
        exact hn (List.mem_map.mpr ⟨(d, o), hold, rfl⟩)
      exact ⟨stage, by rw [if_neg hdc, hd]⟩
    · simp only [List.mem_singleton, Prod.mk.injEq] at hme
      obtain ⟨rfl, rfl⟩ := hme
      exact ⟨.changed s.memory, if_pos rfl⟩
  · intro d o stage hd
    rw [getElem?_set] at hd
    by_cases hdc : d = c
    · rw [if_pos hdc] at hd
      cases hd
      subst hdc
      exact ⟨h.memory, List.prefix_refl _⟩
    · rw [if_neg hdc] at hd
      exact holds_append (h.holds d o stage hd) hdc

theorem inv_restore (h : Inv sys init s) (hc : s.calls[c]? = some ⟨op, .failed prev⟩)
    (hl : s.memory.history = prev.history ++ [(c, op)]) (hf : (c, op) ∉ s.file.history) :
    Inv sys init { s.set c op (.returned false) with memory := prev } := by
  have hn : (prev.history.map fst ++ [c]).Nodup := by
    simpa [hl] using h.nodup
  have hg : c ∉ prev.history.map fst := fun hm =>
    (List.nodup_append.mp hn).2.2 c hm c (List.mem_singleton_self c) rfl
  refine ⟨(List.nodup_append.mp hn).1, (h.holds c op _ hc).1, h.file, ?_, ?_, ?_⟩
  · have ho := h.onFile
    rw [hl] at ho
    rcases List.prefix_concat_iff.mp ho with heq | hp
    · exact absurd (heq ▸ List.mem_append_right _ (List.mem_singleton_self _)) hf
    · exact hp
  · intro d o hm
    have hm' : (d, o) ∈ s.memory.history := hl ▸ List.mem_append_left _ hm
    obtain ⟨stage, hd⟩ := h.known d o hm'
    have hdc : d ≠ c := by
      rintro rfl
      exact hg (List.mem_map.mpr ⟨(d, o), hm, rfl⟩)
    exact ⟨stage, by rw [getElem?_set, if_neg hdc, hd]⟩
  · intro d o stage hd
    rw [getElem?_set] at hd
    by_cases hdc : d = c
    · rw [if_pos hdc] at hd
      cases hd
      subst hdc
      exact hg
    · rw [if_neg hdc] at hd
      have hh := h.holds d o stage hd
      rw [hl] at hh
      exact holds_undo hh hdc

theorem inv_step (h : step sys s e = some t) (hok : InOrder s e) (hs : Inv sys init s) :
    Inv sys init t := by
  cases step_cases h with
  | accept hc => exact hs.set (.inl hc) (not_mem_of_not_mem_calls hs hc)
  | refuse hc => exact hs.set (.inl hc) (not_mem_of_not_mem_calls hs hc)
  | reject hc =>
    have hn := hs.holds _ _ _ hc
    exact hs.set (.inr ⟨_, hc⟩) hn
  | change hc hv => exact inv_change hs hc hv
  | keep hc hst =>
    refine hs.set (.inr ⟨_, hc⟩) ⟨(hs.holds _ _ _ hc).2.subset (by simp), ?_⟩
    intro h
    rw [hst] at h
    cases h
  | encode hc =>
    have hh := hs.holds _ _ _ hc
    exact hs.set (.inr ⟨_, hc⟩) ⟨hh, hs.memory, hh.2.subset (by simp)⟩
  | exceed hc =>
    have hh := hs.holds _ _ _ hc
    exact hs.set (.inr ⟨_, hc⟩) hh
  | land hc =>
    obtain ⟨⟨-, -⟩, hb, hme⟩ := hs.holds _ _ _ hc
    simp only [InOrder, hc] at hok
    obtain ⟨hf, hm⟩ := hok nofun
    exact (hs.write hb hf hm).set (.inr ⟨_, hc⟩) ⟨hm.subset hme, fun _ => hme⟩
  | lose hc => exact hs.set (.inr ⟨_, hc⟩) (hs.holds _ _ _ hc).1
  | unsync hc =>
    obtain ⟨hp, hb, -⟩ := hs.holds _ _ _ hc
    simp only [InOrder, hc] at hok
    obtain ⟨hf, hm⟩ := hok nofun
    exact (hs.write hb hf hm).set (.inr ⟨_, hc⟩) hp
  | restore hc =>
    simp only [InOrder, hc] at hok
    exact inv_restore hs hc hok.1 hok.2

/-! Whole runs. -/

def Stage.isReturned : Stage S O → Bool
  | .returned _ => true
  | _ => false

def State.quiet (s : State S O) : Bool := s.calls.toList.all fun (_, call) => call.stage.isReturned

theorem returned_of_quiet (h : s.quiet) (hc : s.calls[c]? = some ⟨op, stage⟩) :
    ∃ ok, stage = .returned ok := by
  have hr := List.all_eq_true.mp h _ (mem_toList_iff_getElem?_eq_some.mpr hc)
  cases stage with
  | returned ok => exact ⟨ok, rfl⟩
  | _ => cases hr

/-- The value is what the successful calls make in some order, and the file agrees with it. -/
def Serial (sys : System S O) (init : S) (s : State S O) : Prop :=
  ∃ history : List (ℕ × O), (history.map Prod.fst).Nodup ∧
    (∀ c op, (c, op) ∈ history ↔ s.calls[c]? = some ⟨op, .returned true⟩) ∧
    s.memory.value = replay sys init history ∧
    (sys.stored = true → s.file.value = s.memory.value)

theorem Inv.serial (h : Inv sys init s) (hq : s.quiet) : Serial sys init s := by
  have hok : ∀ c op, (c, op) ∈ s.memory.history → s.calls[c]? = some ⟨op, .returned true⟩ := by
    intro c op hme
    obtain ⟨stage, hc⟩ := h.known c op hme
    obtain ⟨ok, rfl⟩ := returned_of_quiet hq hc
    cases ok with
    | true => exact hc
    | false => exact absurd (List.mem_map.mpr ⟨(c, op), hme, rfl⟩) (h.holds c op _ hc)
  refine ⟨s.memory.history, h.nodup, fun c op => ⟨hok c op, fun hc => (h.holds c op _ hc).1⟩,
    h.memory, ?_⟩
  intro hs
  have hsu : s.memory.history ⊆ s.file.history := fun ⟨c, op⟩ hme =>
    (h.holds c op _ (hok c op hme)).2 hs
  have hl : s.memory.history.length ≤ s.file.history.length :=
    (List.subperm_of_subset (h.nodup.of_map) hsu).length_le
  have heq : s.file.history = s.memory.history := h.onFile.eq_of_length_le hl
  have hf := h.file
  have hm := h.memory
  simp only [Stamped.Faithful] at hf hm
  rw [hf, hm, heq]

/-- Calls that keep to the order lose nothing and leave nothing behind. -/
theorem serial_of_meets {es : List (Event O)} (hm : Meets (step sys) InOrder (.opened init) es)
    (hr : run (step sys) (.opened init) es = some t) (hq : t.quiet) :
    Serial sys init t :=
  (run_invariant_of_meets inv_step hm hr inv_opened).serial hq

end FocalDesk.Library.Undo
