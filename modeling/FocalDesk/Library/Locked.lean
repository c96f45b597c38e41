import FocalDesk.Library.Transition
import Mathlib.Logic.Function.Basic

/-! Processes that read a file, change what they read and write it back, each under one lock. -/
namespace FocalDesk.Library.Locked
open Function

/-- How a file is read and written, and what an operation does and answers. -/
structure System (F S O R : Type*) where
  load : F → S
  save : S → F
  mutate : O → S → S × R

inductive Stage (S O R : Type*) where
  | idle
  | waiting (op : O)
  | locked (op : O)
  | loaded (op : O) (state : S)
  | saved (op : O) (result : R)

/-- The lock, and the operations that were saved with their answers, in the order of the lock. -/
structure State (F S O R : Type*) where
  file : F
  holder : Option ℕ
  stages : ℕ → Stage S O R
  log : List (O × R)

inductive Event (O : Type*) where
  | call (p : ℕ) (op : O)
  | acquire (p : ℕ)
  | load (p : ℕ)
  | save (p : ℕ)
  | release (p : ℕ)

variable {F S O R : Type*} {sys : System F S O R} {s t : State F S O R} {e : Event O} {p q : ℕ}
  {file file' init : F} {log : List (O × R)} {op : O}

def State.opened (file : F) : State F S O R := ⟨file, none, fun _ => .idle, []⟩

def State.set (s : State F S O R) (p : ℕ) (stage : Stage S O R) : State F S O R :=
  { s with stages := Function.update s.stages p stage }

def step (sys : System F S O R) (s : State F S O R) : Event O → Option (State F S O R)
  | .call p op =>
    match s.stages p with
    | .idle => some (s.set p (.waiting op))
    | _ => none
  | .acquire p =>
    match s.stages p, s.holder with
    | .waiting op, none => some { s.set p (.locked op) with holder := some p }
    | _, _ => none
  | .load p =>
    match s.stages p with
    | .locked op => some (s.set p (.loaded op (sys.load s.file)))
    | _ => none
  | .save p =>
    match s.stages p with
    | .loaded op state =>
      let changed := sys.mutate op state
      some { s.set p (.saved op changed.2) with
        file := sys.save changed.1
        log := s.log ++ [(op, changed.2)] }
    | _ => none
  | .release p =>
    match s.stages p with
    | .saved _ _ => some { s.set p .idle with holder := none }
    | _ => none

/-- What operations make of a file, one after the other. -/
inductive Serves (sys : System F S O R) (init : F) : List (O × R) → F → Prop where
  | nil : Serves sys init [] init
  | snoc {log : List (O × R)} {file : F} (op : O) (h : Serves sys init log file) :
      Serves sys init (log ++ [(op, (sys.mutate op (sys.load file)).2)])
        (sys.save (sys.mutate op (sys.load file)).1)

def Stage.inside : Stage S O R → Bool
  | .idle => false
  | .waiting _ => false
  | .locked _ => true
  | .loaded _ _ => true
  | .saved _ _ => true

def Stage.operation : Stage S O R → Option O
  | .idle => none
  | .waiting op => some op
  | .locked op => some op
  | .loaded op _ => some op
  | .saved op _ => some op

/-- A process in the critical section holds the lock, and has read what is on file. -/
structure Serial (sys : System F S O R) (init : F) (s : State F S O R) : Prop where
  serves : Serves sys init s.log s.file
  held : ∀ p, (s.stages p).inside = true → s.holder = some p
  loaded : ∀ p op state, s.stages p = .loaded op state → state = sys.load s.file

theorem serial_opened (file : F) : Serial sys file (State.opened file) :=
  ⟨.nil, nofun, nofun⟩

variable {stg : Stage S O R}

/-- A process outside the critical section goes on. -/
theorem Serial.outside (h : Serial sys init s) (hs : stg.inside = false)
    : Serial sys init (s.set p stg) := by
  refine ⟨h.serves, fun q hq => ?_, fun q op st hq => ?_⟩
  · by_cases hqp : q = p
    · subst hqp
      simp only [State.set, update_self, hs] at hq
      cases hq
    · simp only [State.set, update_of_ne hqp] at hq
      exact h.held q hq
  · by_cases hqp : q = p
    · subst hqp
      simp only [State.set, update_self] at hq
      subst hq
      cases hs
    · simp only [State.set, update_of_ne hqp] at hq
      exact h.loaded q op st hq

/-- A process that holds the lock is the only one in the critical section. -/
theorem Serial.alone (h : Serial sys init s) (hp : s.holder = some p) (hqp : q ≠ p) :
    (s.stages q).inside = false := by
  by_contra hi
  have hh := h.held q (eq_true_of_ne_false hi)
  rw [hp] at hh
  exact hqp (Option.some.inj hh).symm

/-- A process goes on in the critical section, which no other process is in. -/
theorem serial_inside (ho : ∀ q, q ≠ p → (s.stages q).inside = false)
    (hs : Serves sys init log file) (hl : ∀ op st, stg = .loaded op st → st = sys.load file)
    {holder : Option ℕ} (hh : stg.inside → holder = some p) :
    Serial sys init { s.set p stg with file, log, holder } := by
  refine ⟨hs, fun q hq => ?_, fun q op st hq => ?_⟩
  · by_cases hqp : q = p
    · subst hqp
      simp only [State.set, update_self] at hq
      exact hh hq
    · simp only [State.set, update_of_ne hqp, ho q hqp] at hq
      cases hq
  · by_cases hqp : q = p
    · subst hqp
      simp only [State.set, update_self] at hq
      exact hl op st hq
    · simp only [State.set, update_of_ne hqp] at hq
      have hi := ho q hqp
      rw [hq] at hi
      cases hi

theorem serial_step (hs : step sys s e = some t) (h : Serial sys init s) :
    Serial sys init t := by
  cases e with
  | call p op =>
    simp only [step] at hs
    split at hs
    · cases hs
      exact h.outside rfl
    · cases hs
  | acquire p =>
    simp only [step] at hs
    split at hs
    · rename_i op hst hf
      cases hs
      refine serial_inside (fun q _ => ?_) h.serves (fun _ _ hl => by cases hl) fun _ => rfl
      by_contra hi
      have hh := h.held q (eq_true_of_ne_false hi)
      rw [hf] at hh
      cases hh
    · cases hs
  | load p =>
    simp only [step] at hs
    split at hs
    · rename_i op hst
      cases hs
      have hh := h.held p (by rw [hst]; rfl)
      refine serial_inside (fun q hqp => h.alone hh hqp) h.serves (fun op' st hl => ?_) fun _ => hh
      cases hl
      rfl
    · cases hs
  | save p =>
    simp only [step] at hs
    split at hs
    · rename_i op st hst
      cases hs
      have hh := h.held p (by rw [hst]; rfl)
      obtain rfl := h.loaded p op st hst
      exact serial_inside (fun q hqp => h.alone hh hqp) (.snoc op h.serves)
        (fun _ _ hl => by cases hl) fun _ => hh
    · cases hs
  | release p =>
    simp only [step] at hs
    split at hs
    · rename_i op result hst
      cases hs
      have hh := h.held p (by rw [hst]; rfl)
      exact serial_inside (fun q hqp => h.alone hh hqp) h.serves
        (fun _ _ hl => by cases hl) fun hi => by cases hi
    · cases hs

/-- Whatever the order of their steps, the calls change the file one after the other. -/
theorem serves_of_run {es : List (Event O)} (hr : run (step sys) (.opened init) es = some t) :
    Serves sys init t.log t.file :=
  (run_invariant serial_step hr (serial_opened init)).serves

/-- What holds of the operations that are called holds of the saved ones. -/
structure OnlyGood (good : O → Prop) (s : State F S O R) : Prop where
  stages : ∀ p op, (s.stages p).operation = some op → good op
  log : ∀ entry ∈ s.log, good entry.1

variable {good : O → Prop}

theorem OnlyGood.set (h : OnlyGood good s) (hs : ∀ op, stg.operation = some op → good op)
    (hl : ∀ e ∈ log, good e.1) {holder : Option ℕ}
    : OnlyGood good { s.set p stg with file, log, holder } := by
  refine ⟨fun q op hq => ?_, hl⟩
  by_cases hqp : q = p
  · subst hqp
    simp only [State.set, update_self] at hq
    exact hs op hq
  · simp only [State.set, update_of_ne hqp] at hq
    exact h.stages q op hq

theorem onlyGood_step (hs : step sys s e = some t) (hg : ∀ p op, e = .call p op → good op)
    (h : OnlyGood good s) : OnlyGood good t := by
  cases e with
  | call p op =>
    simp only [step] at hs
    split at hs
    · cases hs
      refine h.set (fun op' hop => ?_) h.log
      cases hop
      exact hg p op rfl
    · cases hs
  | acquire p =>
    simp only [step] at hs
    split at hs
    · rename_i op hst hf
      cases hs
      refine h.set (fun op' hop => ?_) h.log
      exact h.stages p op' (by rw [hst]; exact hop)
    · cases hs
  | load p =>
    simp only [step] at hs
    split at hs
    · rename_i op hst
      cases hs
      refine h.set (fun op' hop => ?_) h.log
      exact h.stages p op' (by rw [hst]; exact hop)
    · cases hs
  | save p =>
    simp only [step] at hs
    split at hs
    · rename_i op state hst
      cases hs
      have hop := h.stages p op (by rw [hst]; rfl)
      refine h.set (fun op' hop' => ?_) fun entry he => ?_
      · cases hop'
        exact hop
      · obtain he | he := List.mem_append.mp he
        · exact h.log entry he
        · rw [List.mem_singleton.mp he]
          exact hop
    · cases hs
  | release p =>
    simp only [step] at hs
    split at hs
    · cases hs
      exact h.set (fun _ hop => by cases hop) h.log
    · cases hs

theorem good_of_run {es : List (Event O)} (hg : ∀ p op, .call p op ∈ es → good op)
    (hr : run (step sys) (.opened init) es = some t) : ∀ entry ∈ t.log, good entry.1 := by
  have hm : Meets (step sys) (fun _ e => ∀ p op, e = .call p op → good op)
      (.opened init) es :=
    meets_of_forall fun e he _ p op hc => hg p op (hc ▸ he)
  have ho : OnlyGood good (State.opened init : State F S O R) := ⟨nofun, nofun⟩
  exact (run_invariant_of_meets onlyGood_step hm hr ho).log

end FocalDesk.Library.Locked
