import FocalDesk.Transfer.Rules
import FocalDesk.Transfer.Outcome

/-! Renames, removals and copies: what they leave of the files. -/
namespace FocalDesk.Transfer
open Library Archive List

variable {fs g : FileSystem} {P : FileSystem → Prop} {x t src dst path p q : Path}
  {data : List UInt8} {d : Disk} {node : Node} {ps : List Path} {m : M Unit}

/-- Something was moved from one of these file systems. -/
def MovedFrom (P : FileSystem → Prop) (x y : Path) (d : Disk) : Prop :=
  ∃ fs, P fs ∧ Moved x y fs d.fs

theorem rename_spec {y : Path} (hP : ∀ fs, P fs → WellFormed fs ∧ getKey y fs = none) :
    Runs (fun d => P d.fs) (rename x y) (fun _ => MovedFrom P x y) fun d => P d.fs := by
  apply runs_bind (quiet_systemCall _)
  intro _
  apply runs_get_bind
  intro w
  rcases hr : renamePath w.disk.fs x y with err | fs
  · exact runs_throw fun d hd => hd.2 ▸ hd.1
  · change Runs _ (modifyDisk fun disk => { disk with fs }) _ _
    apply runs_modifyDisk
    rintro d ⟨hfs, rfl⟩
    obtain ⟨hf, ha⟩ := hP _ hfs
    exact ⟨_, hfs, renamePath_absent hf ha hr⟩

theorem putBack_spec {y : Path} {E : Disk → Prop}
    (hP : ∀ fs, P fs → WellFormed fs ∧ getKey y fs = none) :
    Runs (fun d => P d.fs) (putBack x y) (fun _ => MovedFrom P x y) E := by
  apply runs_attempt_bind (rename_spec hP)
  · exact fun _ => runs_pure fun d hd => hd
  · exact fun _ => runs_bind slip_spec fun _ => runs_pure fun d hd => hd

/-! Removals. -/

/-- Something under a path was removed from one of these file systems. -/
def RemovedFrom (P : FileSystem → Prop) (p : Path) (d : Disk) : Prop :=
  ∃ fs, P fs ∧ Within p fs d.fs

/-- And these paths are gone. -/
def ClearedFrom (P : FileSystem → Prop) (p : Path) (gone : List Path) (d : Disk) : Prop :=
  RemovedFrom P p d ∧ ∀ q ∈ gone, getKey q d.fs = none

theorem removeOne_spec (hu : p <+: q) (gone : List Path) :
    Runs (ClearedFrom P p gone) (removeOne q) (fun _ => ClearedFrom P p (gone ++ [q]))
      (RemovedFrom P p) := by
  apply runs_bind (quiet_systemCall.runs fun d hd => hd.1)
  intro _
  apply runs_get_bind
  intro w
  apply runs_ite
  · exact fun _ => runs_throw fun d hd => hd.2 ▸ hd.1.1
  · intro _
    apply runs_ite
    · exact fun _ => runs_throw fun d hd => hd.2 ▸ hd.1.1
    · intro hc
      apply runs_modifyDisk
      rintro d ⟨⟨⟨fs, hfs, hw⟩, hg⟩, rfl⟩
      refine ⟨⟨fs, hfs, hw.remove (Bool.eq_false_iff.mpr hc) hu⟩, ?_⟩
      intro r hr
      change getKey r (removeKey q w.disk.fs) = none
      by_cases hs : r = q
      · rw [hs, getKey_removeKey_self]
      · rw [getKey_removeKey_of_ne hs]
        exact hg r ((mem_append.mp hr).resolve_right (by simpa using hs))

theorem removeAll_spec (hu : ∀ q ∈ ps, p <+: q) (gone : List Path) :
    Runs (ClearedFrom P p gone) (removeAll ps) (fun _ => ClearedFrom P p (gone ++ ps))
      (RemovedFrom P p) := by
  induction ps generalizing gone with
  | nil => exact runs_pure fun d hd => (append_nil gone).symm ▸ hd
  | cons q ps ih =>
    apply runs_bind (removeOne_spec (hu q mem_cons_self) gone)
    intro _
    have hr := ih (fun other ho => hu other (mem_cons_of_mem _ ho)) (gone ++ [q])
    rwa [append_assoc, singleton_append] at hr

theorem under_of_mem_subtree (h : q ∈ subtree fs p) : p <+: q := by
  have hm := (mem_mergeSort.mp h)
  exact of_decide_eq_true (mem_filter.mp hm).2

theorem mem_subtree_self (h : getKey p fs = some node) : p ∈ subtree fs p := by
  apply mem_mergeSort.mpr
  apply mem_filter.mpr
  refine ⟨mem_dedup.mpr (mem_map.mpr ⟨_, mem_of_lookup h, rfl⟩), ?_⟩
  exact decide_eq_true (prefix_refl p)

/-- What a look at a path found, or that nothing is there. -/
structure Looked (path : Path) (result : Except IoError Node) (fs : FileSystem) : Prop where
  found : ∀ node, result = .ok node → getKey path fs = some node
  absent : ∀ error, result = .error error → error.kind = .notFound → getKey path fs = none

variable (path : Path)

theorem looked_lookupNode (fs : FileSystem) : Looked path (lookupNode fs path) fs := by
  unfold lookupNode
  rcases hn : getKey path fs with _ | node
  · constructor
    · rintro _ ⟨⟩
    · exact fun _ _ _ => hn
  · constructor
    · rintro _ ⟨⟩
      exact hn
    · rintro _ ⟨⟩

/-- A failed call says nothing. -/
theorem looked_failed (fs : FileSystem) : Looked path (.error ⟨.other, .system⟩) fs := by
  constructor
  · rintro _ ⟨⟩
  · rintro _ ⟨⟩ hk
    cases hk

/-- The look itself, once the call has not failed. -/
theorem attempt_lookupNode (w : World) :
    attempt (do
      let w ← (get : M World)
      (liftExcept (lookupNode w.disk.fs path) : M Node)) w = .ok (lookupNode w.disk.fs path) w := by
  cases hn : lookupNode w.disk.fs path with
  | error error =>
    apply run_attempt_error
    apply run_bind_ok (a := w) (t := w) rfl
    rw [hn]
    rfl
  | ok node =>
    apply run_attempt_ok
    apply run_bind_ok (a := w) (t := w) rfl
    rw [hn]
    rfl

theorem attempt_symlinkMetadata (w : World) :
    ∃ faults, attempt (symlinkMetadata path) w = .ok (.error ⟨.other, .system⟩) { w with faults } ∨
      attempt (symlinkMetadata path) w = .ok (lookupNode w.disk.fs path) { w with faults } := by
  obtain ⟨disk, report, entryCount, faults, checksLeft, sizes, stamps, slipped⟩ := w
  rcases faults with _ | ⟨_ | _, faults⟩
  · exact ⟨[], .inr (attempt_lookupNode path _)⟩
  · exact ⟨faults, .inr (attempt_lookupNode path _)⟩
  · exact ⟨faults, .inl rfl⟩

theorem attempt_symlinkMetadata_spec {R E : Disk → Prop} :
    Runs R (attempt (symlinkMetadata path)) (fun res d => R d ∧ Looked path res d.fs) E := by
  constructor
  · intro U w hw
    obtain ⟨faults, hr | hr⟩ := attempt_symlinkMetadata path w
    · rw [hr]
      exact hw.imp_right fun h => ⟨⟨h.1, looked_failed path _⟩, h.2⟩
    · rw [hr]
      exact hw.imp_right fun h => ⟨⟨h.1, looked_lookupNode path _⟩, h.2⟩
  · intro w hw
    obtain ⟨faults, hr | hr⟩ := attempt_symlinkMetadata path w
    · rw [hr]
      exact hw
    · rw [hr]
      exact hw

/-- Once a path is removed there is nothing left under it. -/
theorem removePath_spec (hP : ∀ fs, P fs → WellFormed fs) :
    Runs (fun d => P d.fs) (removePath p) (fun _ d => RemovedFrom P p d ∧ getKey p d.fs = none)
      (RemovedFrom P p) := by
  have hs : ∀ d : Disk, P d.fs → RemovedFrom P p d := fun d hd => ⟨d.fs, hd, Within.refl (hP _ hd)⟩
  have ho : Runs (RemovedFrom P p) (removeOne p)
      (fun _ d => RemovedFrom P p d ∧ getKey p d.fs = none) (RemovedFrom P p) := by
    apply runs_consequence (removeOne_spec (P := P) (prefix_refl p) [])
    · exact fun d hd => ⟨hd, fun q hq => absurd hq not_mem_nil⟩
    · exact fun _ d hd => ⟨hd.1, hd.2 p (by simp)⟩
    · exact fun _ h => h
  apply runs_consequence (R := RemovedFrom P p) _ hs (fun _ _ h => h) (fun _ h => h)
  apply runs_bind (attempt_symlinkMetadata_spec p)
  rintro (err | node)
  · apply runs_ite
    · intro hk
      exact runs_pure fun d hd => ⟨hd.1, hd.2.absent err rfl hk⟩
    · exact fun _ => runs_throw fun d hd => hd.1
  · rcases node with _ | data | leads | _
    · apply runs_get_bind
      intro w
      apply runs_consequence (runs_frame (getKey p w.disk.fs = some .dir)
        (removeAll_spec (P := P) (fun q => under_of_mem_subtree) []))
      · rintro d ⟨⟨hd, hl⟩, rfl⟩
        exact ⟨hl.found .dir rfl, hd, fun q hq => absurd hq not_mem_nil⟩
      · rintro _ d ⟨hdi, hr, hg⟩
        exact ⟨hr, hg p (mem_subtree_self hdi)⟩
      · exact fun _ h => h.2
    · exact runs_consequence ho (fun d hd => hd.1) (fun _ _ h => h) fun _ h => h
    · exact runs_consequence ho (fun d hd => hd.1) (fun _ _ h => h) fun _ h => h
    · exact runs_consequence ho (fun d hd => hd.1) (fun _ _ h => h) fun _ h => h

end FocalDesk.Transfer
