import Mathlib.Data.List.Sort

/-! The first entries of a list by rank, the highest first and entries of one rank as they came. -/
namespace FocalDesk.Library
open List
variable {α β : Type*} [LinearOrder β] {score : α → β} {entries entries' : List α} {a b : α} {k : ℕ}

def ranked (score : α → β) (entries : List α) : List α :=
  entries.insertionSort fun a b => score b ≤ score a

theorem ranked_perm (score : α → β) (entries : List α) : (ranked score entries).Perm entries :=
  perm_insertionSort _ _

theorem pairwise_ranked (score : α → β) (entries : List α) :
    (ranked score entries).Pairwise fun a b => score b ≤ score a := by
  have : Std.Total fun a b : α => score b ≤ score a := ⟨fun a b => le_total (score b) (score a)⟩
  have : IsTrans α fun a b : α => score b ≤ score a := ⟨fun _ _ _ h h' => h'.trans h⟩
  exact pairwise_insertionSort _ _

/-- What is not among the first ones ranks no higher than they do. -/
theorem score_le_of_not_mem_take (hb : b ∈ entries) (ho : b ∉ (ranked score entries).take k)
    (ha : a ∈ (ranked score entries).take k) : score b ≤ score a := by
  have h := pairwise_ranked score entries
  rw [← take_append_drop k (ranked score entries)] at h
  have hm : b ∈ (ranked score entries).take k ++ (ranked score entries).drop k := by
    rw [take_append_drop]
    exact (ranked_perm score entries).mem_iff.mpr hb
  exact (pairwise_append.mp h).2.2 a ha b ((mem_append.mp hm).resolve_left ho)

/-- Entries of one rank are the same, or enough others rank higher. -/
def TiesBelow (score : α → β) (k : ℕ) (entries : List α) : Prop :=
  ∀ a ∈ entries, ∀ b ∈ entries, score a = score b → a = b ∨ k ≤ entries.countP (score a < score ·)

theorem tiesBelow_congr {score' : α → β} (h : ∀ a ∈ entries, score a = score' a) :
    TiesBelow score k entries ↔ TiesBelow score' k entries := by
  refine forall₂_congr fun a ha => forall₂_congr fun b hb => ?_
  rw [h a ha, h b hb, countP_congr fun c hc => by rw [h c hc]]

theorem take_eq_of_tiesBelow (h : entries.Pairwise fun a b => score b ≤ score a)
    (h' : entries'.Pairwise fun a b => score b ≤ score a) (hp : entries.Perm entries')
    (ht : TiesBelow score k entries) : entries.take k = entries'.take k := by
  induction k generalizing entries entries' with
  | zero => rfl
  | succ k ih =>
    cases h with
    | nil => rw [hp.nil_eq]
    | @cons a rest hf hr =>
      cases h' with
      | nil => exact absurd hp.symm.nil_eq (cons_ne_nil _ _).symm
      | @cons b rest' hf' hr' =>
        have hle : ∀ c ∈ a :: rest, score c ≤ score a := by simpa using hf
        have hle' : ∀ c ∈ b :: rest', score c ≤ score b := by simpa using hf'
        have hb : b ∈ a :: rest := hp.mem_iff.mpr mem_cons_self
        have hs : score a = score b :=
          (hle' a (hp.mem_iff.mp mem_cons_self)).antisymm (hle b hb)
        obtain rfl : a = b := by
          refine (ht a mem_cons_self b hb hs).resolve_right fun hk => ?_
          have hn : (a :: rest).countP (score a < score ·) = 0 :=
            countP_eq_zero.mpr fun c hc => by simpa using hle c hc
          omega
        rw [take_succ_cons, take_succ_cons]
        refine congrArg (a :: ·) (ih hr hr' hp.cons_inv fun x hx y hy hxy => ?_)
        refine (ht x (by simp [hx]) y (by simp [hy]) hxy).imp_right fun hk => ?_
        have hco : (a :: rest).countP (score x < score ·) ≤
            rest.countP (score x < score ·) + 1 := by
          rw [countP_cons]
          split <;> omega
        omega

/-- The first of the entries of one rank comes right after those that rank higher. -/
theorem ranked_cons_getElem? (score : α → β) (a : α) (entries : List α) :
    (ranked score (a :: entries))[entries.countP (score a < score ·)]? = some a := by
  have hl : ∀ sorted : List α, sorted.Pairwise (fun a b => score b ≤ score a) →
      (sorted.takeWhile (score a < score ·)).length = sorted.countP (score a < score ·) := by
    intro sorted h
    induction h with
    | nil => rfl
    | @cons b rest hf _ ih =>
      rw [takeWhile_cons, countP_cons]
      split
      · rw [length_cons, ih]
      · rename_i hle
        have hn : rest.countP (score a < score ·) = 0 := countP_eq_zero.mpr fun c hc => by
          simpa using (hf c hc).trans (by simpa using hle)
        simp [hn]
  have hco := hl _ (pairwise_ranked score entries)
  rw [(ranked_perm score entries).countP_eq] at hco
  have hi : ranked score (a :: entries) =
      (ranked score entries).takeWhile (score a < score ·) ++
        a :: (ranked score entries).dropWhile (score a < score ·) := by
    simpa [ranked] using orderedInsert_eq_take_drop (fun a b => score b ≤ score a) a _
  rw [hi, ← hco, getElem?_append_right le_rfl]
  simp

/-- The first entries do not depend on the order of the list exactly if ties are below them. -/
theorem forall_take_ranked_eq_iff : (∀ order order', order.Perm entries → order'.Perm entries →
      (ranked score order).take k = (ranked score order').take k) ↔
    TiesBelow score k entries := by
  constructor
  · intro h a ha b hb hs
    by_contra hn
    obtain ⟨hne, hk⟩ := not_or.mp hn
    obtain ⟨rest, hp⟩ : ∃ rest, (a :: b :: rest).Perm entries := by
      obtain ⟨front, back, rfl⟩ := append_of_mem ha
      have hm : b ∈ front ++ back := by simpa [Ne.symm hne] using hb
      obtain ⟨front', back', heq⟩ := append_of_mem hm
      refine ⟨front' ++ back', (Perm.cons a ?_).trans perm_middle.symm⟩
      rw [heq]
      exact perm_middle.symm
    have ht := h _ _ hp ((Perm.swap a b rest).trans hp)
    -- With either of the two first in the list, it is found at the same place.
    have hf := ranked_cons_getElem? score a (b :: rest)
    have hse := ranked_cons_getElem? score b (a :: rest)
    have hc := hp.countP_eq (score a < score ·)
    simp only [countP_cons, hs, lt_irrefl, decide_false, Bool.false_eq_true, if_false,
      Nat.add_zero] at hf hse hc hk
    have hpl := congrArg (·[rest.countP (score b < score ·)]?) ht
    simp only [getElem?_take_of_lt (by omega : rest.countP (score b < score ·) < k)] at hpl
    exact hne (Option.some.inj (hf.symm.trans (hpl.trans hse)))
  · intro hti order order' hp hp'
    have hbo := (ranked_perm score order).trans (hp.trans
      (hp'.symm.trans (ranked_perm score order').symm))
    refine take_eq_of_tiesBelow (pairwise_ranked _ _) (pairwise_ranked _ _) hbo ?_
    have hs := (ranked_perm score order).trans hp
    intro a ha b hb hab
    rw [hs.countP_eq]
    exact hti a (hs.mem_iff.mp ha) b (hs.mem_iff.mp hb) hab

end FocalDesk.Library
