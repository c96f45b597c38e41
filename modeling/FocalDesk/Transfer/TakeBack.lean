import FocalDesk.Transfer.Copies
import FocalDesk.Transfer.Restore
import Mathlib.Data.List.MinMax

/-! The undo of a move to another device copies back what it can copy: folders and files. -/
namespace FocalDesk.Transfer
open Library Archive List Option

variable {fs fs' g fs₀ out : FileSystem} {x d p q source dest : Path} {desk : Desktop}
  {done ps : List Path} {name : Name} {fuel : ℕ}

theorem nodup_readDir : (readDir fs p).Nodup :=
  (mergeSort_perm _ _).nodup_iff.mpr (Nodup.filter _ (nodup_dedup _))

theorem present_of_mem_readDir (h : q ∈ readDir fs p) : getKey q fs ≠ none := by
  have hm := mem_dedup.mp (mem_filter.mp (mem_mergeSort.mp h)).1
  obtain ⟨e, he, rfl⟩ := mem_map.mp hm
  obtain ⟨node, hn⟩ := exists_getKey_of_mem he
  rw [hn]
  exact nofun

theorem length_le_deepest (h : getKey p fs ≠ none) : p.length ≤ deepest fs := by
  obtain ⟨node, hn⟩ := ne_none_iff_exists'.mp h
  have hm : p.length ∈ fs.map fun e => e.1.length := mem_map.mpr ⟨_, mem_of_lookup hn, rfl⟩
  exact le_max_of_le hm (Nat.le_refl _)

/-! Copies of entries. -/

/-- Another entry has come, and it is a copy. -/
structure Came (g fs : FileSystem) (source destination : Path) (fs' : FileSystem) : Prop where
  formed : WellFormed fs'
  outside : ∀ q, ¬ destination <+: q → getKey q fs' = getKey q fs
  mirrors : Mirrored g source destination fs'

/-- How far a copy is: nothing but what is under a path has changed. -/
structure Returning (x : Path) (g fs : FileSystem) : Prop where
  formed : WellFormed fs
  other : ∀ q, ¬ x <+: q → getKey q fs = getKey q g

theorem Returning.came (h : Returning x g fs) (hu : x <+: dest)
    (hc : Came g fs source dest fs') : Returning x g fs' :=
  ⟨hc.formed, fun q hq =>
    (hc.outside q fun hd => hq (hu.trans hd)).trans (h.other q hq)⟩

/-- The entries of a folder, one after the other. -/
theorem copyEach_ok {copy : Path → UndoM Unit} (hu : x <+: dest)
    (hco : ∀ name fs, getKey (source ++ [name]) g ≠ none → Returning x g fs →
      getKey (dest ++ [name]) fs = none → getKey dest fs = some .dir →
        ∃ fs', copy (source ++ [name]) fs = .ok () fs' ∧
          Came g fs (source ++ [name]) (dest ++ [name]) fs')
    (hp : ∀ q ∈ ps, ∃ name, q = source ++ [name] ∧ getKey q g ≠ none)
    (hn : ps.Nodup) (hne : ∀ q ∈ ps, q ∉ done)
    (hfs : Returning x g fs) (hc : Children g fs₀ source dest done fs) :
    ∃ fs', copyEach copy ps fs = .ok () fs' ∧ Returning x g fs' ∧
      Children g fs₀ source dest (done ++ ps) fs' := by
  induction ps generalizing done fs with
  | nil => exact ⟨fs, rfl, hfs, (append_nil done).symm ▸ hc⟩
  | cons q ps ih =>
    obtain ⟨name, rfl, ht⟩ := hp q mem_cons_self
    obtain ⟨hf, hr⟩ := nodup_cons.mp hn
    obtain ⟨next, hrn, hca⟩ := hco name fs ht hfs
      (hc.missing name (hne _ mem_cons_self)) hc.here
    have hl : ∀ q ∈ ps, q ∉ done ++ [source ++ [name]] := by
      intro q hq hm
      rcases mem_append.mp hm with hd | hs
      · exact hne q (mem_cons_of_mem _ hq) hd
      · rw [mem_singleton] at hs
        exact hf (hs ▸ hq)
    obtain ⟨fs', hru, hre, ha⟩ := ih (fun q hq => hp q (mem_cons_of_mem _ hq))
      hr hl (hfs.came (hu.trans (prefix_append _ _)) hca)
      (hc.step hca.outside hca.mirrors)
    rw [append_assoc, singleton_append] at ha
    exact ⟨fs', run_bind_ok hrn hru, hre, ha⟩

/-- A path that is put to where nothing was. -/
theorem came_put {node : Node} (hg : WellFormed g) (hfs : WellFormed fs)
    (hn : getKey source g = some node) (hd : node ≠ .dir) (ha : getKey dest fs = none)
    (hpa : getKey dest.dropLast fs = some .dir) :
    Came g fs source dest (putKey dest node fs) := by
  have hp := (Within.refl (p := dest) hfs).put ha hpa (prefix_refl _) node
  exact ⟨hp.formed, hp.other, mirrored_leaf hg hp.formed hn getKey_putKey_self hd⟩

theorem children_createDir (hfs : WellFormed fs) (ha : getKey dest fs = none) :
    Children g fs source dest [] (putKey dest .dir fs) :=
  Children.start hfs ha getKey_putKey_self fun _ hq => getKey_putKey_of_ne hq

/-- Folders and files are copied, down to the last level. -/
theorem copyPathRecursively_ok (hg : WellFormed g) (ha : ¬ d <+: x) (hb : ¬ x <+: d)
    (hpl : ∀ s node, getKey (d ++ s) g = some node → node.plain) (hsr : d <+: source)
    (hu : x <+: dest) (ht : getKey source g ≠ none)
    (hf : ∀ s, getKey (source ++ s) g ≠ none → s.length < fuel) (hfs : Returning x g fs)
    (hab : getKey dest fs = none) (hp : getKey dest.dropLast fs = some .dir) :
    ∃ fs', copyPathRecursively desk fuel source dest fs = .ok () fs' ∧
      Came g fs source dest fs' := by
  induction fuel generalizing source dest fs with
  | zero =>
    have hno := hf [] (by rwa [append_nil])
    exact absurd hno (Nat.not_lt_zero _)
  | succ fuel ih =>
    obtain ⟨node, hn⟩ := ne_none_iff_exists'.mp ht
    obtain ⟨rest, hr⟩ := hsr
    have hse : getKey source fs = some node := by
      rw [hfs.other source (hr ▸ not_under_append hb ha), hn]
    have hk := hpl rest node (by rw [hr, hn])
    unfold copyPathRecursively
    rcases node with _ | data | leads | _
    · -- The folder is created, and its entries are listed and copied into it.
      have hpu := (Within.refl (p := dest) hfs.formed).put hab hp (prefix_refl _) .dir
      have hm : Returning x g (putKey dest .dir fs) :=
        ⟨hpu.formed, fun q hq =>
          (hpu.other q fun hd => hq (hu.trans hd)).trans (hfs.other q hq)⟩
      have hcr : change (createDir dest) fs = .ok () (putKey dest .dir fs) := by
        apply change_ok
        unfold createDir
        rw [if_neg (not_not.mpr hab), if_neg (not_not.mpr hp)]
      have hl : ∀ name, getKey (source ++ [name]) (putKey dest .dir fs) =
          getKey (source ++ [name]) g := by
        intro name
        apply hm.other
        rw [← hr, append_assoc]
        exact not_under_append hb ha
      have hc : ∀ name now, getKey (source ++ [name]) g ≠ none → Returning x g now →
          getKey (dest ++ [name]) now = none → getKey dest now = some .dir →
            ∃ next, copyPathRecursively desk fuel (source ++ [name])
                (dest ++ [(source ++ [name]).getLastD []]) now = .ok () next ∧
              Came g now (source ++ [name]) (dest ++ [name]) next := by
        intro name now hna hnw hfr hfo
        have hla : (source ++ [name]).getLastD [] = name := by simp
        rw [hla]
        apply ih ⟨rest ++ [name], by rw [← hr, append_assoc]⟩
          (hu.trans (prefix_append _ _)) hna ?_ hnw hfr
        · rwa [dropLast_concat]
        · intro s hs
          have hle := hf (name :: s) (by simpa using hs)
          rw [length_cons] at hle
          omega
      have hpa : ∀ q ∈ readDir (putKey dest .dir fs) source,
          ∃ name, q = source ++ [name] ∧ getKey q g ≠ none := by
        intro q hq
        obtain ⟨name, rfl⟩ := name_of_mem_readDir hq
        exact ⟨name, rfl, hl name ▸ present_of_mem_readDir hq⟩
      have he : ∃ fs', copyEach (fun path => copyPathRecursively desk fuel path
            (dest ++ [path.getLastD []])) (readDir (putKey dest .dir fs) source)
              (putKey dest .dir fs) = .ok () fs' ∧ Returning x g fs' ∧
          Children g fs source dest
            ([] ++ readDir (putKey dest .dir fs) source) fs' :=
        copyEach_ok hu hc hpa nodup_readDir (fun q _ => not_mem_nil) hm
          (children_createDir hfs.formed hab)
      obtain ⟨fs', hru, hre, hal⟩ := he
      refine ⟨fs', ?_, hre.formed, hal.outside, ?_⟩
      · apply run_bind_ok (a := fs) (t := fs) rfl
        rw [hse]
        exact run_bind_ok hcr (run_bind_ok rfl hru)
      · apply hal.mirrored hg hre.formed hn
        intro name hna
        obtain ⟨child, hc⟩ := ne_none_iff_exists'.mp (hl name ▸ hna)
        exact mem_readDir hc
    · refine ⟨_, ?_, came_put hg hfs.formed hn nofun hab hp⟩
      apply run_bind_ok (a := fs) (t := fs) rfl
      rw [hse]
      apply change_ok
      unfold copyContents
      rw [hab, if_neg (not_not.mpr hp)]
    · cases hk
    · cases hk

/-! A move to another device. -/

theorem moveBack_across (h : Moved x d g fs) (hg : WellFormed g) (hx : x ≠ [])
    (hp : ∀ s node, getKey (d ++ s) fs = some node → node.plain) (hd : desk.sameDevice x = false)
    (hq : desk.queryExists fs x = false) :
    ∃ out, moveBack desk d x fs = .ok () out ∧ Same g out := by
  obtain ⟨hf, hpa, ha⟩ := h.source_free hg hx
  have he : existsPath desk fs d := by
    obtain ⟨node, hn⟩ := ne_none_iff_exists'.mp h.placed
    have hk := hp [] node (by rwa [append_nil])
    unfold existsPath
    rw [hn]
    rcases node with _ | data | leads | _
    · rfl
    · rfl
    · cases hk
    · rfl
  have hfu : ∀ s, getKey (d ++ s) fs ≠ none → s.length < deepest fs + 1 := by
    intro s hs
    have hl := length_le_deepest hs
    rw [length_append] at hl
    omega
  have hco : ∃ copied, copyPathRecursively desk (deepest fs + 1) d x fs = .ok () copied ∧
      Came fs fs d x copied :=
    copyPathRecursively_ok h.formed ha h.apart hp (prefix_refl d) (prefix_refl x)
      h.placed hfu ⟨h.formed, fun _ _ => rfl⟩ hf hpa
  obtain ⟨copied, hcp, hc⟩ := hco
  have ht : getKey d copied ≠ none := by
    rw [hc.outside d h.apart]
    exact h.placed
  obtain ⟨out, hr, hcl⟩ := removePathRecursively_ok hc.formed ht
  refine ⟨out, ?_, hcl.formed, ?_⟩
  · apply run_bind_ok (a := fs) (t := fs) rfl
    rw [if_neg (by rw [he]; exact Bool.noConfusion), if_neg (by rw [hq]; exact nofun), hd]
    have hcr : renameOn false d x fs = .error ⟨.other, .system⟩ fs := rfl
    exact run_bind_ok (run_attempt_error hcr) (run_bind_ok hcp hr)
  · intro q
    rw [hcl.lookup]
    by_cases hqd : d <+: q
    · rw [if_pos hqd, absent_under hg h.absent hqd]
    · rw [if_neg hqd]
      by_cases hqx : x <+: q
      · obtain ⟨s, rfl⟩ := hqx
        rw [hc.mirrors, h.under]
      · rw [hc.outside q hqx, h.other q hqd, if_neg hqx]

end FocalDesk.Transfer

/-! What the records of a transfer stand for is taken back, the last record first. -/
namespace FocalDesk.Transfer
open Library Archive

variable {fs fs' g before : FileSystem} {x d b p : Path} {desk : Desktop} {stamp : ℕ}
  {undo : TransferUndo} {U : List TransferUndo}

/-- A regular file or a link. -/
def singleNode : Node → Bool
  | .dir => false
  | .file _ => true
  | .link _ => true
  | .special => false

/-- What the desktop library and the system are known to do: nothing is under a path that is not
there, a link leads where it leads as long as the files are the same, and a file or a link can be
moved to a free name on any device. -/
structure Documented (desk : Desktop) : Prop where
  queries : ∀ fs path, getKey path fs = none → desk.queryExists fs path = false
  leads : ∀ fs fs' path, (∀ q, getKey q fs' = getKey q fs) →
    desk.leads fs' path = desk.leads fs path
  moves : ∀ fs x y node, WellFormed fs → getKey x fs = some node → singleNode node = true →
    getKey y fs = none → getKey y.dropLast fs = some .dir →
      ∃ fs', desk.moveFile fs x y = .ok fs' ∧ Moved x y fs fs'

/-- Folders and files are all there is under a path. -/
def PlainUnder (p : Path) (fs : FileSystem) : Prop :=
  ∀ s node, getKey (p ++ s) fs = some node → node.plain = true

/-- What a record stands for, if its step can take it back. -/
def Stands (desk : Desktop) (g fs : FileSystem) : TransferUndo → Prop
  | .created d => Added d g fs ∧ existsPath desk fs d = true
  | .moved x d => x ≠ [] ∧ Moved x d g fs ∧
      if desk.sameDevice x then existsPath desk fs d = true else PlainUnder d fs
  | .replacedCopy d b => Replaced d b g fs
  | .replacedMove x d b => x ≠ [] ∧ ReplacedBy x d b g fs ∧
      (desk.sameDevice x = true ∨ (getKey x g).any singleNode = true)

theorem existsPath_congr (hd : Documented desk) (hs : Same fs fs') (p : Path) :
    existsPath desk fs' p = existsPath desk fs p := by
  unfold existsPath
  rw [hs.lookup p, hd.leads fs fs' p hs.lookup]

theorem Stands.congr (h : Stands desk g fs undo) (hde : Documented desk) (hs : Same fs fs') :
    Stands desk g fs' undo := by
  cases undo with
  | created d =>
    obtain ⟨ha, he⟩ := h
    exact ⟨ha.congr hs, (existsPath_congr hde hs d).trans he⟩
  | moved x d =>
    obtain ⟨hx, hm, ht⟩ := h
    refine ⟨hx, hm.congr_same hs, ?_⟩
    by_cases hd : desk.sameDevice x
    · rw [if_pos hd] at ht ⊢
      exact (existsPath_congr hde hs d).trans ht
    · rw [if_neg hd] at ht ⊢
      exact fun s node hn => ht s node ((hs.lookup _).symm.trans hn)
  | replacedCopy d b => exact Replaced.congr h hs
  | replacedMove x d b =>
    obtain ⟨hx, hr, hd⟩ := h
    exact ⟨hx, hr.congr hs, hd⟩

/-- A move to where nothing is, by the desktop library if it crosses devices. -/
theorem movePathExact_ok (hde : Documented desk) {device : Bool} (hfs : WellFormed fs)
    (hs : getKey d fs ≠ none) (ha : getKey x fs = none) (hp : getKey x.dropLast fs = some .dir)
    (hap : ¬ d <+: x) (hd : device ∨ (getKey d fs).any singleNode) :
    ∃ back, movePathExact desk device d x fs = .ok () back ∧ Moved d x fs back := by
  have hl : pathLexists fs x = false := by rw [pathLexists, ha]; rfl
  cases device with
  | true =>
    obtain ⟨back, hr, hm⟩ := renameOn_ok hfs hs ha hp hap
    refine ⟨back, ?_, hm⟩
    apply run_bind_ok (a := fs) (t := fs) rfl
    rw [if_neg (by rw [hl]; exact Bool.false_ne_true)]
    exact run_bind_ok (run_attempt_ok hr) rfl
  | false =>
    obtain ⟨node, hn⟩ := Option.ne_none_iff_exists'.mp hs
    have ho : singleNode node := by
      have han := hd.resolve_left Bool.false_ne_true
      rwa [hn] at han
    obtain ⟨back, hmo, hm⟩ := hde.moves fs d x node hfs hn ho ha hp
    refine ⟨back, ?_, hm⟩
    apply run_bind_ok (a := fs) (t := fs) rfl
    rw [if_neg (by rw [hl]; exact Bool.false_ne_true)]
    have hc : renameOn false d x fs = .error ⟨.other, .system⟩ fs := rfl
    exact run_bind_ok (run_attempt_error hc) (change_ok hmo)

/-- The staging name that a step needs is free. -/
def stagingLeft (desk : Desktop) (stamp : ℕ) (fs : FileSystem) : UndoStep → Bool
  | .restoreReplacedCopy destination _ => stagingFree desk stamp destination fs
  | _ => true

/-- A step takes back what its record stands for. -/
theorem executeUndoStep_same (h : Stands desk g fs undo) (hde : Documented desk) (hg : WellFormed g)
    (hs : stagingLeft desk stamp fs (transferUndoStep undo)) :
    ∃ out, executeUndoStep desk stamp (transferUndoStep undo) fs = .ok () out ∧ Same g out := by
  cases undo with
  | created d => exact removeCreated_same h.1 hg h.2
  | moved x d =>
    obtain ⟨hx, hm, ht⟩ := h
    have hq := hde.queries fs x (hm.source_free hg hx).1
    by_cases hd : desk.sameDevice x
    · rw [if_pos hd] at ht
      exact moveBack_same hm hg hx ht hd hq
    · rw [if_neg hd] at ht
      exact moveBack_across hm hg hx ht (Bool.not_eq_true _ ▸ hd) hq
  | replacedCopy d b => exact restoreReplacedCopy_same h hs
  | replacedMove x d b =>
    obtain ⟨hx, hr, hd⟩ := h
    apply restoreReplacedMove_same hr hx
    intro fs hfs hsr hf hp
    apply movePathExact_ok hde hfs (hsr ▸ hr.source) hf hp hr.above
    rwa [hsr]

/-! All records. -/

/-- The staging names that the steps need are free when their turn comes. -/
def stagingsLeft (desk : Desktop) : List ℕ → List UndoStep → FileSystem → Bool
  | _, [], _ => true
  | stamps, step :: steps, fs =>
    stagingLeft desk (stamps.headD 0) fs step &&
      followed (executeUndoStep desk (stamps.headD 0) step)
        (fun _ => stagingsLeft desk stamps.tail steps) (fun _ => true) fs

/-- From these files the undo of the records leads back. -/
def Reversible (desk : Desktop) (before : FileSystem) (U : List TransferUndo) (fs : FileSystem) :
    Prop :=
  ∀ now stamps, Same fs now → stagingsLeft desk stamps (rememberUndo U) now = true →
    ∃ out, executeUndoSteps desk stamps (rememberUndo U) now = .ok () out ∧ Same before out

theorem reversible_nil (fs : FileSystem) : Reversible desk fs [] fs :=
  fun now _ hs _ => ⟨now, rfl, hs⟩

theorem Reversible.congr (h : Reversible desk before U g) (hs : Same g fs) :
    Reversible desk before U fs :=
  fun now stamps hn => h now stamps (hs.trans hn)

theorem rememberUndo_concat (U : List TransferUndo) (undo : TransferUndo) :
    rememberUndo (U ++ [undo]) = transferUndoStep undo :: rememberUndo U := by
  simp [rememberUndo]

/-- The last record is the first to be taken back. -/
theorem Reversible.record (h : Reversible desk before U g) (hst : Stands desk g fs undo)
    (hd : Documented desk) (hg : WellFormed g) :
    Reversible desk before (U ++ [undo]) fs := by
  intro now stamps hsa hs
  rw [rememberUndo_concat] at hs ⊢
  rw [stagingsLeft, Bool.and_eq_true] at hs
  obtain ⟨hf, hr⟩ := hs
  obtain ⟨next, hru, hb⟩ := executeUndoStep_same (hst.congr hd hsa) hd hg hf
  rw [followed, hru] at hr
  obtain ⟨out, hrn, ho⟩ := h next stamps.tail hb hr
  exact ⟨out, run_bind_ok hru hrn, ho⟩

end FocalDesk.Transfer
