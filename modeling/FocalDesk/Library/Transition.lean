import Mathlib.Data.List.Basic

/-! Finite runs of a partial step function, and the invariant rules for them. -/
namespace FocalDesk.Library
open Option

variable {σ ε : Type*} {step : σ → ε → Option σ} {s t u : σ} {e : ε} {es fs : List ε}

/-- A run takes its events in order and stops at the first one that is refused. -/
def run (step : σ → ε → Option σ) (s : σ) : List ε → Option σ
  | [] => some s
  | e :: es => (step s e).bind fun t => run step t es

@[simp] theorem run_nil : run step s [] = some s := rfl

theorem run_cons : run step s (e :: es) = (step s e).bind fun t => run step t es := rfl

theorem run_cons_eq_some : run step s (e :: es) = some u ↔
    ∃ t, step s e = some t ∧ run step t es = some u := by
  simp [run_cons, bind_eq_some_iff]

theorem run_append : run step s (es ++ fs) = (run step s es).bind fun t => run step t fs := by
  induction es generalizing s with
  | nil => rfl
  | cons e es ih =>
    simp only [List.cons_append, run_cons, bind_assoc]
    exact congrArg _ (funext fun _ => ih)

theorem run_append_eq_some : run step s (es ++ fs) = some u ↔
    ∃ t, run step s es = some t ∧ run step t fs = some u := by
  simp [run_append, bind_eq_some_iff]

/-- `Meets ok s es`: every step the run from `s` takes satisfies `ok` of the state
before it and its event. -/
def Meets (step : σ → ε → Option σ) (ok : σ → ε → Prop) (s : σ) : List ε → Prop
  | [] => True
  | e :: es => ok s e ∧ ∀ t, step s e = some t → Meets step ok t es

instance {ok : σ → ε → Prop} [∀ s e, Decidable (ok s e)] (s : σ) :
    (es : List ε) → Decidable (Meets step ok s es)
  | [] => isTrue trivial
  | e :: es =>
    have : ∀ t, Decidable (Meets step ok t es) := fun t => instDecidableMeets t es
    inferInstanceAs (Decidable (ok s e ∧ ∀ t ∈ step s e, Meets step ok t es))

variable {ok : σ → ε → Prop}

theorem Meets.cons (hok : ok s e) (hs : step s e = some t) (h : Meets step ok t es)
    : Meets step ok s (e :: es) := by
  refine ⟨hok, fun u hu => ?_⟩
  obtain rfl : t = u := some.inj (hs.symm.trans hu)
  exact h

theorem meets_append (h : Meets step ok s (es ++ fs)) (hr : run step s es = some t)
    : Meets step ok s es ∧ Meets step ok t fs := by
  induction es generalizing s with
  | nil =>
    cases hr
    exact ⟨trivial, h⟩
  | cons e es ih =>
    obtain ⟨u, hu, hr⟩ := (run_cons_eq_some).mp hr
    obtain ⟨hf, hre⟩ := ih (h.2 u hu) hr
    exact ⟨.cons h.1 hu hf, hre⟩

theorem Meets.append (h : Meets step ok s es) (hr : run step s es = some t)
    (h' : Meets step ok t fs) : Meets step ok s (es ++ fs) := by
  induction es generalizing s with
  | nil =>
    cases hr
    exact h'
  | cons e es ih =>
    obtain ⟨u, hu, hr⟩ := (run_cons_eq_some).mp hr
    exact .cons h.1 hu (ih (h.2 u hu) hr)

theorem meets_of_forall (h : ∀ e ∈ es, ∀ s, ok s e) : Meets step ok s es := by
  induction es generalizing s with
  | nil => trivial
  | cons e es ih =>
    obtain ⟨he, hes⟩ := List.forall_mem_cons.mp h
    exact ⟨he s, fun _ _ => ih hes⟩

theorem Meets.mono {ok' : σ → ε → Prop} (hok : ∀ s e, ok s e → ok' s e) (h : Meets step ok s es)
    : Meets step ok' s es := by
  induction es generalizing s with
  | nil => trivial
  | cons e es ih =>
    obtain ⟨he, hes⟩ := h
    exact ⟨hok s e he, fun t ht => ih (hes t ht)⟩

/-- What every conforming step preserves, every conforming run preserves. -/
theorem run_invariant_of_meets {Inv : σ → Prop}
    (hst : ∀ {s e t}, step s e = some t → ok s e → Inv s → Inv t)
    (hm : Meets step ok s es) (hr : run step s es = some t) (hs : Inv s) : Inv t := by
  induction es generalizing s with
  | nil =>
    cases hr
    exact hs
  | cons e es ih =>
    obtain ⟨u, hu, hr⟩ := (run_cons_eq_some).mp hr
    exact ih (hm.2 u hu) hr (hst hu hm.1 hs)

theorem run_invariant {Inv : σ → Prop} (hst : ∀ {s e t}, step s e = some t → Inv s → Inv t)
    (hr : run step s es = some t) (hs : Inv s) : Inv t := by
  induction es generalizing s with
  | nil =>
    cases hr
    exact hs
  | cons e es ih =>
    obtain ⟨u, hu, hr⟩ := (run_cons_eq_some).mp hr
    exact ih hr (hst hu hs)

/-- A run that was evaluated to a state with a property. -/
theorem exists_run_of_any {p : σ → Bool} (h : (run step s es).any p) :
    ∃ t, run step s es = some t ∧ p t := by
  cases hr : run step s es with
  | none =>
    rw [hr] at h
    cases h
  | some t => exact ⟨t, rfl, by simpa [hr] using h⟩

/-- A run that stops also at the first step that is not conforming, so that one evaluation
shows both that the run conforms and where it ends. -/
def checkedRun (step : σ → ε → Option σ) (ok : σ → ε → Prop) [∀ s e, Decidable (ok s e)] (s : σ) :
    List ε → Option σ
  | [] => some s
  | e :: es => if ok s e then (step s e).bind fun t => checkedRun step ok t es else none

theorem checkedRun_eq_some [∀ s e, Decidable (ok s e)] :
    checkedRun step ok s es = some t ↔ Meets step ok s es ∧ run step s es = some t := by
  induction es generalizing s with
  | nil => simp [checkedRun, Meets]
  | cons e es ih =>
    simp only [checkedRun, run_cons, Meets]
    by_cases hok : ok s e
    · rw [if_pos hok]
      cases hn : step s e with
      | none => simp
      | some u => simpa [hok] using ih
    · simp [hok]

theorem exists_run_of_checked [∀ s e, Decidable (ok s e)] {p : σ → Bool}
    (h : (checkedRun step ok s es).any p) :
    Meets step ok s es ∧ ∃ t, run step s es = some t ∧ p t := by
  cases hr : checkedRun step ok s es with
  | none =>
    rw [hr] at h
    cases h
  | some t =>
    obtain ⟨hm, hr'⟩ := (checkedRun_eq_some).mp hr
    exact ⟨hm, t, hr', by simpa [hr] using h⟩

end FocalDesk.Library
