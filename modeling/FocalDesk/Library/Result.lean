import Mathlib.Data.List.Basic

/-! Fallible computations with error texts, in the shape the source propagates them. -/
namespace FocalDesk.Library
open List

universe u v
variable {ε : Type u} {α β : Type v}

/-- An early return with an error when a check fails. -/
def bailIf (bad : Prop) [Decidable bad] (error : ε) : Except ε Unit :=
  if bad then .error error else .ok ()

/-- `Option::ok_or_else`. -/
def okOr (value : Option α) (error : ε) : Except ε α :=
  match value with
  | some a => .ok a
  | none => .error error

@[simp] theorem bailIf_eq_ok {bad : Prop} [Decidable bad] {err : ε} {u : Unit} :
    bailIf bad err = .ok u ↔ ¬ bad := by
  simp [bailIf]

@[simp] theorem okOr_eq_ok {v : Option α} {err : ε} {a : α} :
    okOr v err = .ok a ↔ v = some a := by
  cases v <;> simp [okOr]

@[simp] theorem bind_eq_ok {x : Except ε α} {f : α → Except ε β} {b : β} :
    (x >>= f) = .ok b ↔ ∃ a, x = .ok a ∧ f a = .ok b := by
  cases x <;> simp [bind, Except.bind]

theorem unit_bind_eq_ok {γ : Type} {x : Except ε Unit} {f : Unit → Except ε γ} {a : γ} :
    (x >>= f) = .ok a ↔ x = .ok () ∧ f () = .ok a := by
  cases x <;> simp [bind, Except.bind]

@[simp] theorem pure_eq_ok {a b : α} : (pure a : Except ε α) = .ok b ↔ a = b := by
  simp [pure, Except.pure]

theorem toOption_eq_some {α : Type*} {x : Except ε α} {a : α} :
    x.toOption = some a ↔ x = .ok a := by
  cases x <;> simp [Except.toOption]

/-- A computation that was evaluated to succeed. -/
theorem exists_of_toBool {α : Type*} {x : Except ε α} (h : x.toBool) : ∃ a, x = .ok a := by
  cases x with
  | error => cases h
  | ok a => exact ⟨a, rfl⟩

/-- A check over a list in order, stopping at the first failure. -/
def checkAll {α : Type*} (check : α → Except ε Unit) : List α → Except ε Unit
  | [] => .ok ()
  | a :: as => do
    check a
    checkAll check as

@[simp] theorem checkAll_eq_ok {α : Type*} {check : α → Except ε Unit} {as : List α} {u : Unit} :
    checkAll check as = .ok u ↔ ∀ a ∈ as, check a = .ok () := by
  induction as with
  | nil => simp [checkAll]
  | cons a as ih =>
    simp only [checkAll, unit_bind_eq_ok, ih, forall_mem_cons]

/-- A list is mapped when each of its elements is. -/
theorem exists_mapM_eq_ok {α : Type*} {f : α → Except ε β} {as : List α} :
    (∃ bs, as.mapM f = .ok bs) ↔ ∀ a ∈ as, ∃ b, f a = .ok b := by
  induction as with
  | nil => simp [pure, Except.pure]
  | cons a as ih =>
    rw [forall_mem_cons, ← ih]
    simp only [mapM_cons, bind_eq_ok, pure_eq_ok]
    constructor
    · rintro ⟨_, b, hb, bs, hbs, -⟩
      exact ⟨⟨b, hb⟩, bs, hbs⟩
    · rintro ⟨⟨b, hb⟩, bs, hbs⟩
      exact ⟨b :: bs, b, hb, bs, hbs, rfl⟩

theorem mapM_ok {α : Type*} {f : α → Except ε β} {g : α → β} {as : List α}
    (h : ∀ a ∈ as, f a = .ok (g a)) : as.mapM f = .ok (as.map g) := by
  induction as with
  | nil => rfl
  | cons a as ih =>
    rw [mapM_cons, h a mem_cons_self, ih fun b hb => h b (mem_cons_of_mem _ hb)]
    rfl

theorem mapM_mem {α : Type*} {f : α → Except ε β} {as : List α} {bs : List β}
    (h : as.mapM f = .ok bs) : ∀ b ∈ bs, ∃ a ∈ as, f a = .ok b := by
  induction as generalizing bs with
  | nil =>
    cases h
    simp
  | cons a as ih =>
    simp only [mapM_cons, bind_eq_ok, pure_eq_ok] at h
    obtain ⟨b, hb, bs, hbs, rfl⟩ := h
    rintro c (_ | ⟨_, hc⟩)
    · exact ⟨a, mem_cons_self, hb⟩
    · obtain ⟨d, hd, hf⟩ := ih hbs c hc
      exact ⟨d, mem_cons_of_mem _ hd, hf⟩

end FocalDesk.Library
