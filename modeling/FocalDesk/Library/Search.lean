import FocalDesk.Library.BTreeMap
import Mathlib.Data.Set.Insert
import Mathlib.Logic.Relation

/-! Searching a graph from a root, with what was visited and what is still pending. -/
namespace FocalDesk.Library
open Relation List

variable {α : Type*} {Edge : α → α → Prop} {root a b : α} {visited : Set α} {pend next : List α}

/-- Whatever was met can be reached, and the edges out of what was visited lead to what was met. -/
structure Searching (Edge : α → α → Prop) (root : α) (visited : Set α) (pending : List α) :
    Prop where
  reached : ∀ a, a ∈ visited ∨ a ∈ pending → ReflTransGen Edge root a
  closed : ∀ a ∈ visited, ∀ b, Edge a b → b ∈ visited ∨ b ∈ pending
  met : root ∈ visited ∨ root ∈ pending

theorem Searching.start : Searching Edge root ∅ [root] where
  reached := by
    rintro a (ha | ha)
    · cases ha
    · obtain rfl := mem_singleton.mp ha
      exact ReflTransGen.refl
  closed := by
    intro a ha
    cases ha
  met := .inr (mem_singleton.mpr rfl)

theorem Searching.reaches (h : Searching Edge root visited (a :: pend)) :
    ReflTransGen Edge root a :=
  h.reached a (.inr (mem_cons_self ..))

/-- What was visited before is not visited again. -/
theorem Searching.skip (h : Searching Edge root visited (a :: pend)) (ha : a ∈ visited) :
    Searching Edge root visited pend := by
  have hk : ∀ b, b ∈ visited ∨ b ∈ a :: pend → b ∈ visited ∨ b ∈ pend := by
    rintro b (hb | hb)
    · exact .inl hb
    · rcases mem_cons.mp hb with rfl | hb
      · exact .inl ha
      · exact .inr hb
  refine ⟨fun b hb => h.reached b ?_, fun b hb c he => hk c (h.closed b hb c he), hk root h.met⟩
  exact hb.imp_right (mem_cons_of_mem _)

/-- A visit makes the neighbours pending. -/
theorem Searching.visit (h : Searching Edge root visited (a :: pend))
    (hn : ∀ b, b ∈ next ↔ Edge a b) :
    Searching Edge root (insert a visited) (next ++ pend) := by
  have hk : ∀ b, b ∈ visited ∨ b ∈ a :: pend →
      b ∈ insert a visited ∨ b ∈ next ++ pend := by
    rintro b (hb | hb)
    · exact .inl (Set.mem_insert_of_mem a hb)
    · rcases mem_cons.mp hb with rfl | hb
      · exact .inl (Set.mem_insert ..)
      · exact .inr (mem_append_right _ hb)
  refine ⟨?_, ?_, hk root h.met⟩
  · rintro b (hb | hb)
    · rcases Set.mem_insert_iff.mp hb with rfl | hb
      · exact h.reaches
      · exact h.reached b (.inl hb)
    · rcases mem_append.mp hb with hb | hb
      · exact h.reaches.tail ((hn b).mp hb)
      · exact h.reached b (.inr (mem_cons_of_mem _ hb))
  · intro b hb c he
    rcases Set.mem_insert_iff.mp hb with rfl | hb
    · exact .inr (mem_append_left _ ((hn c).mpr he))
    · exact hk c (h.closed b hb c he)

/-- When nothing is pending, exactly the reachable nodes were visited. -/
theorem Searching.mem_iff (h : Searching Edge root visited []) :
    a ∈ visited ↔ ReflTransGen Edge root a := by
  refine ⟨fun ha => h.reached a (.inl ha), fun ha => ?_⟩
  induction ha with
  | refl => exact h.met.resolve_right (not_mem_nil)
  | tail _ he ih => exact (h.closed _ ih _ he).resolve_right (not_mem_nil)

/-! An index of a list whose elements have distinct keys. -/

section Index
variable {β κ ν : Type} [Ord κ] [Std.TransOrd κ] [Std.LawfulEqOrd κ] {key : β → κ} {value : β → ν}
  {bs : List β} {k : κ} {v : ν}

def indexBy (key : β → κ) (value : β → ν) (bs : List β) : BTreeMap κ ν :=
  bs.foldl (fun index b => index.insert (key b) (value b)) ∅

theorem getElem?_indexBy (hd : (bs.map key).Nodup) :
    (indexBy key value bs)[k]? = some v ↔ ∃ b ∈ bs, key b = k ∧ value b = v := by
  constructor
  · intro h
    exact (getElem?_foldl_insert h).resolve_left (by simp)
  · rintro ⟨b, hb, rfl, rfl⟩
    have hm : key b ∈ indexBy key value bs := mem_foldl_insert.mpr (.inr (mem_map_of_mem hb))
    obtain ⟨u, hu⟩ := exists_getElem?_of_mem hm
    obtain ⟨c, hc, hk, rfl⟩ := (getElem?_foldl_insert hu).resolve_left (by simp)
    obtain rfl := inj_on_of_nodup_map hd hc hb hk
    exact hu

end Index

end FocalDesk.Library
