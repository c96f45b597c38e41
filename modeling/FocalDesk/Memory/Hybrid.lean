import FocalDesk.Library.Keyed
import FocalDesk.Library.Ranking
import FocalDesk.Memory.Store
import Mathlib.Algebra.Order.Ring.Rat
import Mathlib.Tactic.Ring

/-! Recall by embedding and by words together: two ranked lists become one. -/
namespace FocalDesk.Memory
open Library List

structure MemoryRecord where
  id : MemoryId
  text : String
  metadata : Value
  createdAtUnix : ℤ

structure SearchHit (D : Type) where
  record : MemoryRecord
  distance : D

/-- `char::is_alphanumeric` and `str::to_lowercase`. -/
structure Unicode where
  isAlphanumeric : Char → Bool
  toLowercase : String → String

/-- The words of a text, each once. -/
def terms (unicode : Unicode) (text : String) : List String :=
  (((text.toList.splitOnP fun ch => !unicode.isAlphanumeric ch && ch != '_').map fun part =>
    unicode.toLowercase (String.ofList part)).filter fun term => 2 ≤ term.length).dedup

/-- What the hash map holds for an id. -/
structure Fused (D : Type) where
  record : MemoryRecord
  score : ℚ
  distance : Option D

/-- The two searches of one store, and the conversion of the distances of its backend. -/
structure Searches (D : Type) where
  dense : ℕ → List (SearchHit D)
  lexical : List String → ℕ → List (SearchHit D)
  semantic : D → D
  infinity : D

section Fusion
variable {D : Type}

def fuseHit (distance : D → Option D → Option D) (fused : List (MemoryId × Fused D))
    (hit : SearchHit D × ℕ) : List (MemoryId × Fused D) :=
  let entry := (getKey hit.1.record.id fused).getD ⟨hit.1.record, 0, none⟩
  putKey hit.1.record.id
    { entry with
      score := entry.score + 1 / (60 + hit.2 + 1)
      distance := distance hit.1.distance entry.distance } fused

def fuse (semantic : D → D) (dense lexical : List (SearchHit D)) : List (MemoryId × Fused D) :=
  lexical.zipIdx.foldl (fuseHit fun _ distance => distance)
    (dense.zipIdx.foldl (fuseHit fun distance _ => some (semantic distance)) [])

/-- The share of the query's words that the text has counts too. -/
def rerank (unicode : Unicode) (queryTerms : List String) (entry : Fused D) : Fused D :=
  if queryTerms = [] then entry
  else
    let common := queryTerms.filter (· ∈ terms unicode entry.record.text)
    { entry with score := entry.score + common.length / queryTerms.length * (2 / 100) }

def candidateCount (topK : ℕ) : ℕ := max (min (topK * 4) (2 ^ 64 - 1)) topK

/-- The search by words, unless the query has none. -/
def lexicalHits (searches : Searches D) (queryTerms : List String) (topK : ℕ) :
    List (SearchHit D) :=
  if queryTerms = [] then [] else searches.lexical queryTerms (candidateCount topK)

/-- The values of the hash map, in some order. -/
def candidates (unicode : Unicode) (searches : Searches D) (query : String) (topK : ℕ) :
    List (Fused D) :=
  let queryTerms := terms unicode query
  (fuse searches.semantic (searches.dense (candidateCount topK))
    (lexicalHits searches queryTerms topK)).map fun entry => rerank unicode queryTerms entry.2

/-- `recall_hybrid`, with the candidates as the iteration over the hash map gives them. -/
def recallHybrid (infinity : D) (topK : ℕ) (order : List (Fused D)) : List (SearchHit D) :=
  if topK = 0 then []
  else ((ranked Fused.score order).take topK).map fun entry =>
    ⟨entry.record, entry.distance.getD infinity⟩

/-- The reciprocal ranks of an id in the result of one search. -/
def reciprocalRanks (hits : List (SearchHit D)) (id : MemoryId) : ℚ :=
  ((hits.zipIdx.filter fun hit => hit.1.record.id = id).map fun hit => 1 / (61 + hit.2 : ℚ)).sum

/-- What a record scores: its reciprocal ranks, and 0.02 for the share of the query's words. -/
def fusedScore (unicode : Unicode) (searches : Searches D) (query : String) (topK : ℕ)
    (record : MemoryRecord) : ℚ :=
  let queryTerms := terms unicode query
  reciprocalRanks (searches.dense (candidateCount topK)) record.id +
    reciprocalRanks (lexicalHits searches queryTerms topK) record.id +
      (queryTerms.filter (· ∈ terms unicode record.text)).length / queryTerms.length * (2 / 100)

theorem score_foldl (distance : D → Option D → Option D) (hits : List (SearchHit D × ℕ))
    (fused : List (MemoryId × Fused D)) (id : MemoryId) :
    (getKey id (hits.foldl (fuseHit distance) fused)).elim 0 Fused.score =
      (getKey id fused).elim 0 Fused.score +
        ((hits.filter fun hit => hit.1.record.id = id).map fun hit => 1 / (61 + hit.2 : ℚ)).sum := by
  induction hits generalizing fused with
  | nil => simp
  | cons hit hits ih =>
    rw [foldl_cons, ih]
    by_cases hid : hit.1.record.id = id
    · subst hid
      have hr : (60 + hit.2 + 1 : ℚ) = 61 + hit.2 := by ring
      rw [fuseHit, getKey_putKey_self, filter_cons_of_pos (by simp), map_cons,
        sum_cons, ← add_assoc, hr]
      cases getKey hit.1.record.id fused <;> rfl
    · rw [fuseHit, getKey_putKey_of_ne (Ne.symm hid)]
      simp [hid]

/-- The hash map holds each record under its id. -/
def KeyedById (fused : List (MemoryId × Fused D)) : Prop :=
  (fused.map Prod.fst).Nodup ∧ ∀ entry ∈ fused, entry.2.record.id = entry.1

theorem KeyedById.fuseHit {distance : D → Option D → Option D} {fused : List (MemoryId × Fused D)}
    (h : KeyedById fused) (hit : SearchHit D × ℕ) : KeyedById (fuseHit distance fused hit) := by
  refine ⟨nodup_keys_putKey h.1, fun e he => ?_⟩
  obtain rfl | hold := mem_of_mem_putKey he
  case inr => exact h.2 e hold
  case inl =>
    cases hg : getKey hit.1.record.id fused with
    | none => rfl
    | some found => exact h.2 (_, found) (mem_of_getKey hg)

theorem keyedById_fuse (semantic : D → D) (dense lexical : List (SearchHit D)) :
    KeyedById (fuse semantic dense lexical) := by
  have hf : ∀ (distance : D → Option D → Option D) (hits : List (SearchHit D × ℕ))
      (fused : List (MemoryId × Fused D)), KeyedById fused →
        KeyedById (hits.foldl (Memory.fuseHit distance) fused) :=
    fun _ _ _ h => foldl_invariant KeyedById (fun _ => True) (fun _ hit h _ => h.fuseHit hit) h
      fun _ _ => trivial
  exact hf _ _ _ (hf _ _ _ ⟨nodup_nil, nofun⟩)

section Candidates
variable {unicode : Unicode} {searches : Searches D} {query : String} {topK : ℕ}

theorem score_eq {e : Fused D} (h : e ∈ candidates unicode searches query topK) :
    e.score = fusedScore unicode searches query topK e.record := by
  obtain ⟨⟨id, fused⟩, hf, rfl⟩ := mem_map.mp h
  obtain ⟨hn, hid⟩ := keyedById_fuse searches.semantic (searches.dense (candidateCount topK))
    (lexicalHits searches (terms unicode query) topK)
  have hs : fused.score = reciprocalRanks (searches.dense (candidateCount topK)) id +
      reciprocalRanks (lexicalHits searches (terms unicode query) topK) id := by
    have hg := congrArg (Option.elim · 0 Fused.score) (getKey_of_mem hn hf)
    simp only [fuse, score_foldl] at hg
    simpa [reciprocalRanks, getKey] using hg.symm
  have hsa : fused.record.id = id := hid _ hf
  subst hsa
  unfold rerank fusedScore
  split
  · rename_i he
    simp [hs, he]
  · simp [hs]

theorem nodup_candidates :
    ((candidates unicode searches query topK).map (·.record.id)).Nodup := by
  obtain ⟨hn, hid⟩ := keyedById_fuse searches.semantic (searches.dense (candidateCount topK))
    (lexicalHits searches (terms unicode query) topK)
  rw [candidates, map_map]
  refine (map_congr_left fun e he => ?_) ▸ hn
  rw [← hid e he]
  simp only [Function.comp, rerank]
  split <;> rfl

/-- What is wanted of a recall: one answer whatever the order of the hash map is, without
repetitions, not too long, and of the best candidates. -/
structure RecallsBest (score : MemoryRecord → ℚ) (infinity : D) (topK : ℕ) (found : List (Fused D))
    : Prop where
  same : ∀ order order', order.Perm found → order'.Perm found →
    recallHybrid infinity topK order = recallHybrid infinity topK order'
  length : ∀ order, order.Perm found → (recallHybrid infinity topK order).length ≤ topK
  distinct : ∀ order, order.Perm found →
    ((recallHybrid infinity topK order).map (·.record.id)).Nodup
  best : ∀ order, order.Perm found → ∀ hit ∈ recallHybrid infinity topK order, ∀ entry ∈ found,
    entry.record.id ∉ (recallHybrid infinity topK order).map (·.record.id) →
      score entry.record ≤ score hit.record

theorem recallHybrid_eq (infinity : D) (topK : ℕ) (order : List (Fused D)) :
    recallHybrid infinity topK order = ((ranked Fused.score order).take topK).map fun e =>
      ⟨e.record, e.distance.getD infinity⟩ := by
  unfold recallHybrid
  split
  · rename_i hz
    simp [hz]
  · rfl

theorem eq_of_ids {found ents entries' : List (Fused D)} (hi : (found.map (·.record.id)).Nodup)
    (hs : ents ⊆ found) (hs' : entries' ⊆ found)
    (h : ents.map (·.record.id) = entries'.map (·.record.id)) : ents = entries' := by
  induction ents generalizing entries' with
  | nil => exact (map_eq_nil_iff.mp h.symm).symm
  | cons e ents ih =>
    cases entries' with
    | nil => cases h
    | cons e' entries' =>
      obtain ⟨hid, hr⟩ := List.cons.inj h
      obtain ⟨he, hs⟩ := cons_subset.mp hs
      obtain ⟨he', hs'⟩ := cons_subset.mp hs'
      rw [inj_on_of_nodup_map hi he he' hid, ih hs hs' hr]

/-- A recall is what is wanted exactly if no two candidates that may be returned have one score:
where two have, as many others as are asked for score higher. -/
theorem recall_hybrid_iff (unicode : Unicode) (searches : Searches D) (query : String) (topK : ℕ) :
    RecallsBest (fusedScore unicode searches query topK) searches.infinity topK
        (candidates unicode searches query topK) ↔
      TiesBelow (fun entry : Fused D => fusedScore unicode searches query topK entry.record) topK
        (candidates unicode searches query topK) := by
  rw [← tiesBelow_congr fun entry he => score_eq he, ← forall_take_ranked_eq_iff]
  have hm : ∀ {order : List (Fused D)} {entry : Fused D},
      order.Perm (candidates unicode searches query topK) →
        entry ∈ (ranked Fused.score order).take topK →
          entry ∈ candidates unicode searches query topK := fun hp he =>
    hp.mem_iff.mp ((ranked_perm _ _).mem_iff.mp (mem_of_mem_take he))
  constructor
  · intro h order order' hp hp'
    have hi := congrArg (List.map (·.record.id)) (h.same order order' hp hp')
    rw [recallHybrid_eq, recallHybrid_eq, map_map, map_map] at hi
    exact eq_of_ids nodup_candidates (fun _ => hm hp) (fun _ => hm hp') hi
  · intro h
    refine ⟨fun order order' hp hp' => ?_, fun order _ => ?_, fun order hp => ?_,
      fun order hp hit hh entry he hou => ?_⟩
    · rw [recallHybrid_eq, recallHybrid_eq, h order order' hp hp']
    · rw [recallHybrid_eq, length_map]
      exact length_take_le _ _
    · rw [recallHybrid_eq, map_map]
      have hn := (((ranked_perm Fused.score order).trans hp).map _).nodup_iff.mpr nodup_candidates
      exact hn.sublist ((take_sublist _ _).map _)
    · rw [recallHybrid_eq] at hh hou
      obtain ⟨other, ho, rfl⟩ := mem_map.mp hh
      have hle := score_le_of_not_mem_take (hp.mem_iff.mpr he) (fun hin => hou ?_) ho
      · rwa [score_eq he, score_eq (hm hp ho)] at hle
      · rw [map_map]
        exact mem_map_of_mem hin

end Candidates
end Fusion

/-- Two memories whose ranks in the two searches are swapped. -/
def swappedSearches : Searches Unit :=
  let hit (id : MemoryId) : SearchHit Unit := ⟨⟨id, "a", .null, 0⟩, ()⟩
  { dense := fun _ => [hit 1, hit 2], lexical := fun _ _ => [hit 2, hit 1]
    semantic := id, infinity := () }

/-- Which of two memories of one score comes first is up to the hash map. -/
theorem recall_of_tie_arbitrary : ¬ ∀ (unicode : Unicode) (searches : Searches Unit)
    (query : String) (topK : ℕ),
    RecallsBest (fusedScore unicode searches query topK) searches.infinity topK
      (candidates unicode searches query topK) := by
  intro h
  have hs := (h ⟨fun _ => true, id⟩ swappedSearches "ab" 1).same _ _ (.refl _)
    (reverse_perm _)
  have hi := congrArg (List.map (·.record.id)) hs
  revert hi
  decide +kernel

end FocalDesk.Memory
