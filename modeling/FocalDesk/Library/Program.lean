import Mathlib.Init

/-! Programs with a state and an error: what they do from one state, and triples about all. -/
namespace FocalDesk.Library

variable {σ ε α β : Type} {P : σ → Prop} {Q Q' : α → σ → Prop} {R : β → σ → Prop}
  {E : σ → Prop} {m : EStateM ε σ α} {f : α → EStateM ε σ β} {s t u : σ} {a : α} {b : β}

/-- The result of a program that may fail, as a value. -/
def attempt (m : EStateM ε σ α) : EStateM ε σ (Except ε α) := fun s =>
  match m s with
  | .ok a t => .ok (.ok a) t
  | .error e t => .ok (.error e) t

/-- From every state with `P` the program returns with `Q` or throws with `E`. -/
def Triple (P : σ → Prop) (m : EStateM ε σ α) (Q : α → σ → Prop) (E : σ → Prop) : Prop :=
  ∀ s, P s → match m s with
    | .ok a t => Q a t
    | .error _ t => E t

theorem triple_pure (h : ∀ s, P s → Q a s) : Triple P (pure a : EStateM ε σ α) Q E := h

theorem triple_throw {e : ε} (h : ∀ s, P s → E s) : Triple P (throw e : EStateM ε σ α) Q E := h

theorem triple_bind (hm : Triple P m Q E) (hf : ∀ a, Triple (Q a) (f a) R E) :
    Triple P (m >>= f) R E := by
  intro s hs
  have hfi := hm s hs
  change match EStateM.bind m f s with
    | .ok b t => R b t
    | .error _ t => E t
  unfold EStateM.bind
  cases hr : m s with
  | ok a t =>
    rw [hr] at hfi
    exact hf a t hfi
  | error e t =>
    rw [hr] at hfi
    exact hfi

theorem triple_consequence {P' : σ → Prop} {E' : σ → Prop} (hm : Triple P m Q E)
    (hP : ∀ s, P' s → P s) (hQ : ∀ a s, Q a s → Q' a s) (hE : ∀ s, E s → E' s) :
    Triple P' m Q' E' := by
  intro s hs
  have hr := hm s (hP s hs)
  cases hre : m s with
  | ok a t =>
    rw [hre] at hr
    exact hQ a t hr
  | error e t =>
    rw [hre] at hr
    exact hE t hr

theorem triple_modify {f : σ → σ} {Q : PUnit → σ → Prop} (h : ∀ s, P s → Q ⟨⟩ (f s)) :
    Triple P (modify f : EStateM ε σ PUnit) Q E := h

theorem triple_get {Q : σ → σ → Prop} (h : ∀ s, P s → Q s s) :
    Triple P (get : EStateM ε σ σ) Q E := h

/-- What follows a look at the state runs from that state. -/
theorem triple_get_bind {f : σ → EStateM ε σ β}
    (h : ∀ s, Triple (fun t => t = s ∧ P t) (f s) R E) : Triple P (get >>= f) R E := by
  apply triple_bind (triple_get (Q := fun s t => t = s ∧ P t) fun s hs => ⟨rfl, hs⟩)
  exact h

theorem triple_ite {c : Prop} [Decidable c] {m n : EStateM ε σ α} (hm : c → Triple P m Q E)
    (hn : ¬ c → Triple P n Q E) : Triple P (if c then m else n) Q E := by
  by_cases hc : c
  · rw [if_pos hc]
    exact hm hc
  · rw [if_neg hc]
    exact hn hc

theorem triple_exists {ι : Type} {P : ι → σ → Prop} {φ : ι → Prop}
    (h : ∀ i, φ i → Triple (P i) m Q E) : Triple (fun s => ∃ i, P i s ∧ φ i) m Q E := by
  rintro s ⟨i, hs, hi⟩
  exact h i hi s hs

/-- What is known besides the state. -/
theorem triple_and_right {φ : Prop} (h : φ → Triple P m Q E) : Triple (fun s => P s ∧ φ) m Q E :=
  fun s hs => h hs.2 s hs.1

/-- What every returned value satisfies can be added. -/
theorem triple_value {V : α → Prop} (h : Triple P m Q E) (hv : ∀ s a t, m s = .ok a t → V a) :
    Triple P m (fun a t => Q a t ∧ V a) E := by
  intro s hs
  have hr := h s hs
  cases hre : m s with
  | ok a t =>
    rw [hre] at hr
    exact ⟨hr, hv s a t hre⟩
  | error e t =>
    rw [hre] at hr
    exact hr

/-- A check of how a program goes on from a state. -/
def followed (m : EStateM ε σ α) (ok : α → σ → Bool) (failed : σ → Bool) (s : σ) : Bool :=
  match m s with
  | .ok a t => ok a t
  | .error _ t => failed t

theorem triple_followed (ok : α → σ → Bool) (failed : σ → Bool) (h : Triple P m Q E) :
    Triple (fun s => P s ∧ followed m ok failed s) m (fun a t => Q a t ∧ ok a t)
      fun t => E t ∧ failed t := by
  rintro s ⟨hs, hf⟩
  have hr := h s hs
  unfold followed at hf
  cases hre : m s with
  | ok a t =>
    rw [hre] at hr hf
    exact ⟨hr, hf⟩
  | error e t =>
    rw [hre] at hr hf
    exact ⟨hr, hf⟩

theorem triple_attempt {E' : σ → Prop} (h : Triple P m Q E) :
    Triple P (attempt m)
      (fun res s => (∀ a, res = .ok a → Q a s) ∧ ∀ e, res = .error e → E s) E' := by
  intro s hs
  have hr := h s hs
  unfold attempt
  cases hre : m s with
  | ok a t =>
    rw [hre] at hr
    exact ⟨by rintro _ ⟨⟩; exact hr, by rintro _ ⟨⟩⟩
  | error e t =>
    rw [hre] at hr
    exact ⟨by rintro _ ⟨⟩, by rintro _ ⟨⟩; exact hr⟩

/-! Single runs. -/

theorem Triple.ok (h : Triple P m Q E) (hs : P s) (hr : m s = .ok a t) : Q a t := by
  have hre := h s hs
  rwa [hr] at hre

/-- A program that never throws returns. -/
theorem Triple.returns (h : Triple P m Q fun _ => False) (hs : P s) :
    ∃ a t, m s = .ok a t ∧ Q a t := by
  have hr := h s hs
  cases hru : m s with
  | ok a t =>
    rw [hru] at hr
    exact ⟨a, t, rfl, hr⟩
  | error e t =>
    rw [hru] at hr
    exact hr.elim

theorem run_bind_ok {r : EStateM.Result ε σ β} (hm : m s = .ok a t) (hf : f a t = r) :
    (m >>= f) s = r := by
  change EStateM.bind m f s = r
  unfold EStateM.bind
  rw [hm]
  exact hf

theorem run_attempt_ok (hm : m s = .ok a t) : attempt m s = .ok (.ok a) t := by
  unfold attempt
  rw [hm]

theorem run_attempt_error {e : ε} (hm : m s = .error e t) : attempt m s = .ok (.error e) t := by
  unfold attempt
  rw [hm]

/-- A property that no step of a program touches. -/
def Keeps (P : σ → Prop) (m : EStateM ε σ α) : Prop := Triple P m (fun _ => P) P

theorem keeps_pure (a : α) : Keeps P (pure a : EStateM ε σ α) := triple_pure fun _ h => h

theorem keeps_throw (e : ε) : Keeps P (throw e : EStateM ε σ α) := triple_throw fun _ h => h

theorem keeps_get : Keeps P (get : EStateM ε σ σ) := triple_get fun _ h => h

theorem keeps_bind (hm : Keeps P m) (hf : ∀ a, Keeps P (f a)) : Keeps P (m >>= f) :=
  triple_bind hm hf

theorem keeps_modify {f : σ → σ} (h : ∀ s, P s → P (f s)) :
    Keeps P (modify f : EStateM ε σ PUnit) := triple_modify h

end FocalDesk.Library
