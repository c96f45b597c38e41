import FocalDesk.Library.AssocList
import Mathlib.Data.List.Induction

/-! A file system, and what it takes to put it back after an extraction. -/
namespace FocalDesk.Archive
open Library List

/-- The bytes of a name. -/
abbrev Name := List UInt8

/-- An absolute path, by the names from the root. -/
abbrev Path := List Name

inductive Node where
  | dir
  | file (data : List UInt8)
  /-- A link, which may lead somewhere. -/
  | link (leads : Bool)
  | special
deriving DecidableEq

abbrev FileSystem := List (Path × Node)

namespace Node

/-- A directory or a regular file. -/
def plain : Node → Bool
  | .dir => true
  | .file _ => true
  | .link _ => false
  | .special => false

end Node

variable {fs before : FileSystem} {created : List Path} {p q : Path} {name : Name}
  {node node' : Node}

/-- What there is, is in a directory. -/
def WellFormed (fs : FileSystem) : Prop :=
  ∀ p name node, getKey (p ++ [name]) fs = some node → getKey p fs = some .dir

/-- `exists`: a link leads somewhere or not. -/
def leadsSomewhere (fs : FileSystem) (p : Path) : Bool :=
  match getKey p fs with
  | some (.link leads) => leads
  | some _ => true
  | none => false

def hasChildren (fs : FileSystem) (p : Path) : Bool :=
  fs.any fun entry => p.isPrefixOf entry.1 && entry.1 != p

/-- `remove_dir` or `remove_file`, with their errors ignored. -/
def removePath (fs : FileSystem) (p : Path) : FileSystem :=
  match getKey p fs with
  | some .dir => if hasChildren fs p then fs else removeKey p fs
  | some _ => removeKey p fs
  | none => fs

/-- `cleanup_created_paths` -/
def cleanupCreatedPaths (paths : List Path) (fs : FileSystem) : FileSystem :=
  paths.reverse.foldl removePath fs

/-- The created paths are the difference to an earlier file system, and can be removed from the
last to the first. -/
structure Rollback (before fs : FileSystem) (created : List Path) : Prop where
  fresh : ∀ p ∈ created, getKey p before = none
  nodes : ∀ p ∈ created, ∃ node, getKey p fs = some node ∧ node.plain = true
  others : ∀ p, p ∉ created → getKey p fs = getKey p before
  nodup : created.Nodup
  order : created.Pairwise fun earlier later => ¬ later <+: earlier

/-- Directories lead to everything there is. -/
theorem WellFormed.ancestor (h : WellFormed fs) {rest : List Name} (hr : rest ≠ [])
    (hl : getKey (p ++ rest) fs = some node) : getKey p fs = some .dir := by
  induction rest using List.reverseRecOn generalizing node with
  | nil => exact absurd rfl hr
  | append_singleton rest name ih =>
    rw [← append_assoc] at hl
    have hd := h (p ++ rest) name node hl
    by_cases he : rest = []
    · subst he
      rwa [append_nil] at hd
    · exact ih he hd

theorem WellFormed.above (h : WellFormed fs) (hl : getKey q fs = some node) (hpq : p <+: q)
    (hne : p ≠ q) : getKey p fs = some .dir := by
  obtain ⟨rest, rfl⟩ := hpq
  refine h.ancestor ?_ hl
  rintro rfl
  exact hne (append_nil p).symm

theorem WellFormed.put_new (h : WellFormed fs) (hpa : getKey p fs = some .dir)
    (hn : getKey (p ++ [name]) fs = none) (node : Node) :
    WellFormed (putKey (p ++ [name]) node fs) := by
  have hp : p ≠ p ++ [name] := by simp
  intro q other found hf
  by_cases hs : q ++ [other] = p ++ [name]
  · obtain ⟨rfl, -⟩ := append_inj' hs rfl
    rw [getKey_putKey_of_ne hp]
    exact hpa
  · rw [getKey_putKey_of_ne hs] at hf
    have hd := h q other found hf
    have hq : q ≠ p ++ [name] := by
      rintro rfl
      rw [hn] at hd
      cases hd
    rw [getKey_putKey_of_ne hq]
    exact hd

/-- Writing to a file changes no directory. -/
theorem WellFormed.put_file (h : WellFormed fs) {old data : List UInt8}
    (hold : getKey p fs = some (.file old)) : WellFormed (putKey p (.file data) fs) := by
  intro q name found hf
  have hd : getKey q fs = some .dir := by
    by_cases hs : q ++ [name] = p
    · subst hs
      exact h q name (.file old) hold
    · rw [getKey_putKey_of_ne hs] at hf
      exact h q name found hf
  have hq : q ≠ p := by
    rintro rfl
    rw [hold] at hd
    cases hd
  rw [getKey_putKey_of_ne hq]
  exact hd

namespace Rollback

theorem refl (fs : FileSystem) : Rollback fs fs [] where
  fresh _ hp := absurd hp not_mem_nil
  nodes _ hp := absurd hp not_mem_nil
  others _ _ := rfl
  nodup := nodup_nil
  order := List.Pairwise.nil

/-- One more directory or file is created. -/
theorem create (h : Rollback before fs created) (hfo : WellFormed fs) (hn : getKey p fs = none)
    (hpl : node.plain) :
    Rollback before (putKey p node fs) (created ++ [p]) := by
  have hp : p ∉ created := by
    intro hm
    obtain ⟨found, hf, -⟩ := h.nodes p hm
    rw [hn] at hf
    cases hf
  refine ⟨?_, ?_, ?_, ?_, ?_⟩
  · intro q hq
    rcases mem_append.mp hq with hq | hq
    · exact h.fresh q hq
    · obtain rfl := mem_singleton.mp hq
      rw [← h.others q hp]
      exact hn
  · intro q hq
    by_cases hs : q = p
    · subst hs
      exact ⟨node, getKey_putKey_self, hpl⟩
    · rw [getKey_putKey_of_ne hs]
      rcases mem_append.mp hq with hq | hq
      · exact h.nodes q hq
      · exact absurd (mem_singleton.mp hq) hs
  · intro q hq
    have hq : q ∉ created ∧ q ≠ p := by simpa using hq
    rw [getKey_putKey_of_ne hq.2]
    exact h.others q hq.1
  · rw [nodup_append]
    refine ⟨h.nodup, by simp, ?_⟩
    rintro q hq _ ho rfl
    obtain rfl := mem_singleton.mp ho
    exact hp hq
  · rw [pairwise_append]
    refine ⟨h.order, pairwise_singleton _ _, ?_⟩
    intro q hq other ho hb
    obtain rfl := mem_singleton.mp ho
    -- Something below a path that is not there would be in no directory.
    obtain ⟨found, hf, -⟩ := h.nodes q hq
    have hne : other ≠ q := by
      rintro rfl
      exact hp hq
    have hd := hfo.above hf hb hne
    rw [hn] at hd
    cases hd

/-- A created file is written. -/
theorem write (h : Rollback before fs created) (hp : p ∈ created) (data : List UInt8) :
    Rollback before (putKey p (.file data) fs) created := by
  refine ⟨h.fresh, ?_, ?_, h.nodup, h.order⟩
  · intro q hq
    by_cases hs : q = p
    · subst hs
      exact ⟨.file data, getKey_putKey_self, rfl⟩
    · rw [getKey_putKey_of_ne hs]
      exact h.nodes q hq
  · intro q hq
    have hne : q ≠ p := by
      rintro rfl
      exact hq hp
    rw [getKey_putKey_of_ne hne]
    exact h.others q hq

/-- The path that was created last has nothing below it. -/
theorem childless (h : Rollback before fs (created ++ [p])) (hp : WellFormed before) :
    hasChildren fs p = false := by
  rw [Bool.eq_false_iff]
  intro hc
  obtain ⟨⟨q, node⟩, hm, he⟩ := any_eq_true.mp hc
  rw [Bool.and_eq_true, isPrefixOf_iff_prefix, bne_iff_ne] at he
  obtain ⟨hu, hne⟩ := he
  obtain ⟨found, hf⟩ := exists_getKey_of_mem hm
  by_cases hq : q ∈ created
  · have ho := (pairwise_append.mp h.order).2.2 q hq p (mem_singleton_self p)
    exact ho hu
  · have hot : q ∉ created ++ [p] := by
      simp [hq, hne]
    rw [h.others q hot] at hf
    have hd := hp.above hf hu hne.symm
    rw [h.fresh p (mem_append_right _ (mem_singleton_self p))] at hd
    cases hd

theorem lookup_removePath (h : Rollback before fs (created ++ [p])) (hp : WellFormed before) :
    removePath fs p = removeKey p fs := by
  obtain ⟨node, hn, -⟩ := h.nodes p (mem_append_right _ (mem_singleton_self p))
  unfold removePath
  rw [hn, h.childless hp]
  cases node <;> rfl

theorem remove (h : Rollback before fs (created ++ [p])) (hpr : WellFormed before) :
    Rollback before (removePath fs p) created := by
  rw [h.lookup_removePath hpr]
  have hp : p ∉ created := by
    intro hm
    have hn := nodup_append.mp h.nodup
    exact hn.2.2 p hm p (mem_singleton_self p) rfl
  refine ⟨fun q hq => h.fresh q (mem_append_left _ hq), ?_, ?_,
    (nodup_append.mp h.nodup).1, (pairwise_append.mp h.order).1⟩
  · intro q hq
    have hne : q ≠ p := by
      rintro rfl
      exact hp hq
    rw [getKey_removeKey_of_ne hne]
    exact h.nodes q (mem_append_left _ hq)
  · intro q hq
    by_cases hs : q = p
    · subst hs
      rw [getKey_removeKey_self, h.fresh q (mem_append_right _ (mem_singleton_self q))]
    · rw [getKey_removeKey_of_ne hs]
      exact h.others q (by simp [hq, hs])

end Rollback

/-- The cleanup puts everything back. -/
theorem cleanup_restores (hp : WellFormed before) (h : Rollback before fs created) (q : Path) :
    getKey q (cleanupCreatedPaths created fs) = getKey q before := by
  induction created using List.reverseRecOn generalizing fs with
  | nil => exact h.others q not_mem_nil
  | append_singleton created p ih =>
    have hc : cleanupCreatedPaths (created ++ [p]) fs =
        cleanupCreatedPaths created (removePath fs p) := by
      simp [cleanupCreatedPaths]
    rw [hc]
    exact ih (h.remove hp)

end FocalDesk.Archive
