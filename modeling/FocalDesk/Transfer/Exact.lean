import FocalDesk.Transfer.Checks

/-! A transfer that passes its checks can be undone exactly. -/
namespace FocalDesk.Transfer
open Library Archive Option List

variable {fs fs' g before mid committed : FileSystem} {desk : Desktop}
  {request : TransferRequest} {op : TransferOperation} {sameDeviceMove : Bool}
  {dir x t d requested p : Path} {backup : Option Path} {U : List TransferUndo} {w : World}
  {R : Disk → Prop}

/-! What a commit leaves. -/

/-- A source that is not in the target is not above anything in it. -/
theorem not_under_sibling (hs : x ≠ dir ++ [x.getLastD []]) (ht : ¬ x <+: dir) (name : Name)
    : ¬ x <+: dir ++ [name] := by
  intro hu
  rcases prefix_concat_iff.mp hu with heq | hle
  · apply hs
    rw [heq]
    simp
  · exact ht hle

theorem StagedIn.placed (h : StagedIn sameDeviceMove dir x t g mid) : getKey t mid ≠ none := by
  have hs := h.staged
  unfold Staged at hs
  cases sameDeviceMove with
  | true => exact hs.2.placed
  | false => exact hs.placed

theorem siblings_of_commit {b : Path} {cleared : FileSystem}
    (hs : StagedIn sameDeviceMove dir x t g mid) (hd : ∃ name, d = dir ++ [name])
    (hb : ∃ name, b = dir ++ [name]) (ha : Moved d b mid cleared)
    (hc : Moved t d cleared fs) : Siblings dir d t b where
  destination := hd
  stage := hs.beside
  backup := hb
  stage_ne := by
    rintro rfl
    exact hc.apart (prefix_refl _)
  backup_ne := by
    rintro rfl
    exact ha.apart (prefix_refl _)
  ne := by
    rintro rfl
    exact hs.placed ha.absent

theorem plainUnder_of_plainTree (h : plainTree p fs) : PlainUnder p fs := by
  intro s node hn
  have hm : p ++ s ∈ subtree fs p := by
    apply mem_mergeSort.mpr
    apply mem_filter.mpr
    refine ⟨mem_dedup.mpr (mem_map.mpr ⟨_, mem_of_lookup hn, rfl⟩), ?_⟩
    exact decide_eq_true (prefix_append p s)
  have hp := all_eq_true.mp h _ hm
  rwa [hn] at hp

theorem movesBack_iff :
    movesBack sameDeviceMove x d fs ↔
      ¬ d <+: x ∧ (sameDeviceMove ∨ (getKey x fs).any singleNode) := by
  simp [movesBack, ← isPrefixOf_iff_prefix]

/-- What the commit of a copy leaves. -/
theorem stands_copy (hr : ∃ name, requested = dir ++ [name]) (hs : StagedIn false dir x t g mid)
    (hc : Committed dir t requested mid (some (d, backup)) fs)
    (he : backup = none → existsPath desk fs d) :
    Stands desk g fs (copyUndo d backup) := by
  have hco : Copied x t g mid := hs.staged
  cases backup with
  | none => exact ⟨hco.added hc.2, he rfl⟩
  | some b =>
    obtain ⟨rfl, hb, cleared, ha, hl⟩ := hc
    exact hco.replaced (siblings_of_commit hs hr hb ha hl) ha hl

/-- What a move on one device leaves. -/
theorem stands_move (hr : ∃ name, requested = dir ++ [name]) (hx : x ≠ [])
    (hse : x ≠ dir ++ [x.getLastD []]) (hd : desk.sameDevice x) (hs : StagedIn true dir x t g mid)
    (hc : Committed dir t requested mid (some (d, backup)) fs)
    (he : backup = none → existsPath desk fs d) (hab : backup ≠ none → ¬ d <+: x) :
    Stands desk g fs (finishUndo .move x d backup) := by
  obtain ⟨hg, hm⟩ : WellFormed g ∧ Moved x t g mid := hs.staged
  cases backup with
  | none =>
    obtain ⟨⟨name, rfl⟩, hl⟩ := hc
    refine ⟨hx, hm.trans hl hg (not_under_sibling hse hs.target name), ?_⟩
    rw [if_pos hd]
    exact he rfl
  | some b =>
    obtain ⟨rfl, hb, cleared, ha, hl⟩ := hc
    have hn := siblings_of_commit hs hr hb ha hl
    obtain ⟨name, rfl⟩ := hr
    obtain ⟨backupName, rfl⟩ := hb
    exact ⟨hx, hm.replacedBy hg hn ha hl (hab nofun)
      (not_under_sibling hse hs.target name)
      (not_under_sibling hse hs.target backupName), .inl hd⟩

/-- What a move to another device leaves, once the source is removed. -/
theorem stands_removed (hre : ∃ name, requested = dir ++ [name]) (hx : x ≠ [])
    (hse : x ≠ dir ++ [x.getLastD []]) (hd : desk.sameDevice x = false)
    (hs : StagedIn false dir x t g mid)
    (hco : Committed dir t requested mid (some (d, backup)) committed) (hrm : Within x committed fs)
    (hg : getKey x fs = none) (hp : backup = none → plainTree x committed)
    (hba : backup ≠ none → movesBack false x d committed) :
    Stands desk g fs (finishUndo .move x d backup) := by
  have hc : Copied x t g mid := hs.staged
  cases backup with
  | none =>
    obtain ⟨⟨name, rfl⟩, hl⟩ := hco
    have hbe := not_under_sibling hse hs.target name
    have had := hc.added hl
    have hm := hc.moved hl hrm hg hbe
    have ha : ¬ dir ++ [name] <+: x := free_apart hc.formed hc.source had.absent
    refine ⟨hx, hm, ?_⟩
    rw [if_neg (by rw [hd]; exact Bool.false_ne_true)]
    intro s node hno
    rw [hm.under, ← had.within.other _ (not_under_append ha hbe)] at hno
    exact plainUnder_of_plainTree (hp rfl) s node hno
  | some b =>
    obtain ⟨rfl, hb, cleared, has, hl⟩ := hco
    have hn := siblings_of_commit hs hre hb has hl
    obtain ⟨name, rfl⟩ := hre
    obtain ⟨backupName, rfl⟩ := hb
    obtain ⟨ha, ho⟩ := (movesBack_iff).mp (hba nofun)
    have hr := hc.replaced hn has hl
    have hsr := hr.other x ha (free_apart hc.formed hc.source hr.free)
    refine ⟨hx, hc.replacedBy hn has hl hrm hg ha
      (not_under_sibling hse hs.target name)
      (not_under_sibling hse hs.target backupName), .inr ?_⟩
    rw [← hsr]
    exact ho.resolve_left Bool.false_ne_true

/-! One item. -/

/-- What is known of an item when its commit has been made. -/
structure Item (desk : Desktop) (request : TransferRequest) (sameDeviceMove : Bool)
    (requested : Path) (root : ScannedRoot) : Prop where
  named : requested = request.targetDir ++ [root.path.getLastD []]
  path : root.path ≠ []
  apart : requested ≠ root.path
  device : sameDeviceMove = (request.operation = .move && desk.sameDevice root.path)

namespace Item

variable {root : ScannedRoot} (h : Item desk request sameDeviceMove requested root)
include h

theorem beside : ∃ name, requested = request.targetDir ++ [name] := ⟨_, h.named⟩

theorem self_ne : root.path ≠ request.targetDir ++ [root.path.getLastD []] :=
  fun heq => h.apart (h.named.trans heq.symm)

/-- A source that was removed, and one that could not be. -/
theorem removal_tracks (hop : request.operation = .move) (hsa : sameDeviceMove = false) :
    Tracks desk
      (fun disk => CommittedFrom (StagedIn false request.targetDir root.path t g) request.targetDir
        t requested (some (d, backup)) disk.fs)
      (fun w => removalStands desk root.path d backup w.disk.fs w)
      (finishRoot request.operation sameDeviceMove root d backup) g := by
  have hd : desk.sameDevice root.path = false := by
    have hd := h.device
    rw [hop, hsa] at hd
    simpa using hd.symm
  unfold finishRoot
  rw [if_pos ⟨hop, hsa⟩, hop]
  apply tracks_snapshot (removalStands desk root.path d backup)
  intro now
  have hf : ∀ fs, CommittedFrom (StagedIn false request.targetDir root.path t g)
      request.targetDir t requested (some (d, backup)) fs ∧ fs = now → WellFormed fs := by
    rintro fs ⟨⟨mid, hs, hc⟩, -⟩
    exact hc.formed hs.formed
  have hr := removePath_spec (p := root.path) hf
  apply tracks_attempt_bind (runs_consequence hr ?_ (fun _ _ h => h) fun _ h => h)
  · intro _
    apply tracks_known (complete_tracks _ _)
    rintro w ⟨⟨committed, ⟨⟨mid, hs, hc⟩, rfl⟩, hw⟩, hg⟩ hch
    apply stands_removed h.beside h.path h.self_ne hd hs hc hw hg
    · rintro rfl
      exact hch
    · intro hb
      obtain ⟨b, rfl⟩ := ne_none_iff_exists'.mp hb
      exact hch
  · intro err
    have hre : Tracks desk (fun disk => Stands desk g disk.fs (copyUndo d backup))
        (fun _ => true) (do
          pushError (.notRemoved root.path err)
          complete (copyUndo d backup) root.bytes) g :=
      tracks_bind_true (pushError_spec _) fun _ => complete_tracks _ _
    apply tracks_known hre
    rintro w ⟨committed, ⟨⟨mid, hs, hc⟩, rfl⟩, -⟩ hch
    rw [Bool.and_eq_true, decide_eq_true_eq] at hch
    obtain ⟨hu, he⟩ := hch
    rw [hu]
    apply stands_copy h.beside hs hc
    rintro rfl
    exact he
  · exact fun _ h => h

theorem finishRoot_tracks :
    Tracks desk
      (fun disk => CommittedFrom (StagedIn sameDeviceMove request.targetDir root.path t g)
        request.targetDir t requested (some (d, backup)) disk.fs)
      (recordStands desk request.operation sameDeviceMove root.path d backup)
      (finishRoot request.operation sameDeviceMove root d backup) g := by
  by_cases hcr : request.operation = .move ∧ sameDeviceMove = false
  · obtain ⟨hop, hs⟩ := hcr
    subst hs
    intro U
    apply triple_consequence (h.removal_tracks (t := t) hop rfl U) _ (fun _ _ h => h) fun _ h => h
    rintro w ⟨hw, hc⟩
    unfold recordStands at hc
    rw [if_pos ⟨hop, rfl⟩] at hc
    exact ⟨hw, hc⟩
  · unfold finishRoot
    rw [if_neg hcr]
    apply tracks_known (complete_tracks _ _)
    rintro w ⟨mid, hst, hco⟩ hc
    unfold recordStands at hc
    rw [if_neg hcr] at hc
    cases hop : request.operation with
    | copy =>
      have hs : sameDeviceMove = false := by
        rw [h.device, hop]
        rfl
      subst hs
      have hsa : Stands desk g w.disk.fs (copyUndo d backup) := by
        apply stands_copy h.beside hst hco
        rintro rfl
        exact hc
      cases backup with
      | none => exact hsa
      | some b => exact hsa
    | move =>
      have hs : sameDeviceMove := by
        rw [← Bool.not_eq_false]
        exact fun hf => hcr ⟨hop, hf⟩
      have hd : desk.sameDevice root.path := by
        have hd := h.device
        rw [hop, hs] at hd
        simpa using hd.symm
      subst hs
      apply stands_move h.beside h.path h.self_ne hd hst hco
      · rintro rfl
        exact hc
      · intro hb
        obtain ⟨b, rfl⟩ := ne_none_iff_exists'.mp hb
        rw [hop] at hc
        exact ((movesBack_iff).mp hc).1

theorem commitRoot_tracks :
    Tracks desk (fun disk => StagedIn sameDeviceMove request.targetDir root.path t g disk.fs)
      (commitStands desk request sameDeviceMove t requested root)
      (commitRoot desk.toSurroundings request sameDeviceMove t requested root) g := by
  apply tracks_bind isCancelled_spec
  intro cancelled
  apply tracks_ite
  · exact fun _ => unstage_tracks _ (fun _ => markCancelled_spec) false
  · intro _
    apply tracks_attempt_bind (commitStage_spec (fun fs hfs => StagedIn.formed hfs)
      (fun fs fs' hfs => StagedIn.congr hfs) h.beside request.conflictPolicy)
    · rintro (_ | ⟨final, backup⟩)
      · apply tracks_consequence (unstage_tracks _ (fun _ => skipRoot_spec) true)
        rintro disk ⟨fs, hs, hc⟩
        have heq : disk.fs = fs := hc
        rwa [heq]
      · exact tracks_pure h.finishRoot_tracks true
    · exact fun err => unstage_tracks _ (fun _ => pushError_spec _) true

end Item

theorem transferStaged_tracks {root : ScannedRoot}
    (hn : requested = request.targetDir ++ [root.path.getLastD []]) (hp : root.path ≠ [])
    (ha : requested ≠ root.path) :
    Tracks desk (fun disk => Untouched request.targetDir root.path g disk ∧
        FreeIn request.targetDir disk.fs t)
      (stagedStands desk request t requested root)
      (transferStaged desk.toSurroundings request t requested root) g := by
  apply tracks_attempt_bind (symlinkMetadata_spec root.path)
  · intro node
    apply tracks_attempt_bind
    · refine runs_consequence (stageRoot_spec (g := g) request.targetDir) ?_
        (fun _ _ h => h) fun _ h => h
      rintro disk ⟨⟨⟨ht, hg, rfl, hl⟩, hf⟩, hno⟩
      exact ⟨ht, hg, rfl, hl, by rw [hno]; exact nofun, hf⟩
    · exact fun _ => Item.commitRoot_tracks ⟨hn, hp, ha, rfl⟩
    · intro err
      have hr : Tidies (fun disk : Disk => Partial root.path t g disk.fs) (removable t)
          (attempt (removePath t)) fun disk => Same g disk.fs := by
        apply removePath_tidies fun fs hfs => hfs.within.formed
        rintro disk ⟨fs, hb, hw⟩ hgo
        exact (hb.within.trans hw).same hb.formed hb.absent hgo
      apply tracks_tidies hr
      intro _
      apply runs_ite
      · exact fun _ => runs_bind markCancelled_spec fun _ => runs_pure fun _ h => h
      · exact fun _ => runs_bind (pushError_spec _) fun _ => runs_pure fun _ h => h
  · intro err
    apply tracks_runs
    apply runs_bind (pushError_spec _)
    intro _
    apply runs_pure
    rintro disk ⟨⟨-, hg, rfl, -⟩, -⟩
    exact Same.refl hg

theorem transferNamed_tracks {root : ScannedRoot}
    (hn : requested = request.targetDir ++ [root.path.getLastD []]) (hp : root.path ≠ [])
    (ha : requested ≠ root.path) :
    Tracks desk (Untouched request.targetDir root.path g)
      (namedStands desk request requested root)
      (transferNamed desk.toSurroundings request requested root) g := by
  have hpa : requested.dropLast = request.targetDir := by
    rw [hn, dropLast_concat]
  have hna := stageName_spec (R := Untouched request.targetDir root.path g)
    (E := fun _ => False) desk.toSurroundings requested
  rw [hpa] at hna
  exact tracks_bind hna fun t => transferStaged_tracks hn hp ha

theorem transferRoot_tracks (root : ScannedRoot) :
    Tracks desk (fun disk => ¬ root.path <+: request.targetDir ∧ WellFormed g ∧ disk.fs = g)
      (rootStands desk request root) (transferRoot desk.toSurroundings request root) g := by
  have hr : ∀ (report : M Unit) (b : Bool), (∀ R, Runs R report (fun _ => R) fun _ => False) →
      Tracks desk (Untouched request.targetDir root.path g) (fun _ => true)
        (do report; pure b) g := by
    intro report b hq
    apply tracks_runs
    apply runs_bind (hq _)
    intro _
    apply runs_pure
    rintro disk ⟨-, hg, rfl, -⟩
    exact Same.refl hg
  apply tracks_bind (Q := fun _ => Untouched request.targetDir root.path g)
  · apply runs_modifyDisk
    rintro disk ⟨ht, hg, hfs⟩
    exact ⟨ht, hg, hfs, rfl⟩
  intro _
  apply tracks_bind isCancelled_spec
  intro cancelled
  apply tracks_ite
  · exact fun _ => hr markCancelled false fun _ => markCancelled_spec
  intro _
  apply tracks_ite
  · exact fun _ => hr _ true fun _ => pushError_spec _
  intro hp
  apply tracks_ite
  · exact fun _ => hr skipRoot true fun _ => skipRoot_spec
  intro ha
  have hn : Tracks desk (Untouched request.targetDir root.path g)
      (namedStands desk request (request.targetDir ++ [root.path.getLastD []]) root)
      (transferNamed desk.toSurroundings request
        (request.targetDir ++ [root.path.getLastD []]) root) g :=
    transferNamed_tracks rfl hp ha
  apply tracks_ite
  · intro _
    apply tracks_bind (pathExists_spec _)
    intro tk
    apply tracks_ite
    · intro _
      exact tracks_consequence (hr skipRoot true fun _ => skipRoot_spec) fun _ h => h.1
    · exact fun _ => tracks_consequence hn fun _ h => h.1
  · exact fun _ => hn

/-! The whole transfer. -/

/-- What is recorded so far leads back to the files there were. -/
def Undoable (desk : Desktop) (before : FileSystem) (w : World) : Prop :=
  WellFormed w.disk.fs ∧ Reversible desk before w.report.undo w.disk.fs

theorem Stands.formed {undo : TransferUndo} (h : Stands desk g fs undo) : WellFormed fs := by
  cases undo with
  | created d => exact h.1.within.formed
  | moved x d => exact h.2.1.formed
  | replacedCopy d b => exact Replaced.formed h
  | replacedMove x d b => exact h.2.1.formed

theorem Tracked.undoable (h : Tracked desk g U w) (hd : Documented desk) (hg : WellFormed g)
    (hb : Reversible desk before U g) : Slipped w ∨ Undoable desk before w := by
  refine h.imp_right ?_
  rintro (⟨hu, hsa⟩ | ⟨undo, hu, hs⟩)
  · refine ⟨hsa.formed, ?_⟩
    rw [hu]
    exact hb.congr hsa
  · refine ⟨hs.formed, ?_⟩
    rw [hu]
    exact hb.record hs hd hg

theorem transferRoots_exact (hd : Documented desk) (roots : List ScannedRoot)
    (ht : ∀ root ∈ roots, ¬ root.path <+: request.targetDir) :
    Triple (fun w => (Slipped w ∨ Undoable desk before w) ∧ rootsStand desk request roots w)
      (transferRoots desk.toSurroundings request roots)
      (fun _ w => Slipped w ∨ Undoable desk before w) Slipped := by
  induction roots with
  | nil => exact triple_pure fun _ h => h.1
  | cons root roots ih =>
    have hr : Triple
        (fun w => (Slipped w ∨ Undoable desk before w) ∧ rootStands desk request root w)
        (transferRoot desk.toSurroundings request root)
        (fun _ w => Slipped w ∨ Undoable desk before w) Slipped := by
      rintro w ⟨hs | ⟨hf, hb⟩, hc⟩
      · exact triple_consequence (transferRoot_ends (g := []) root).steady (fun _ h => h)
          (fun _ _ h => .inl h) (fun _ h => h) w hs
      · have hi : Tracks desk (fun disk => ¬ root.path <+: request.targetDir ∧
              WellFormed w.disk.fs ∧ disk.fs = w.disk.fs) (rootStands desk request root)
            (transferRoot desk.toSurroundings request root) w.disk.fs := transferRoot_tracks root
        exact triple_consequence (hi w.report.undo) (fun _ h => h)
          (fun _ _ h => h.undoable hd hf hb) (fun _ h => h) w
          ⟨.inr ⟨⟨ht root mem_cons_self, hf, rfl⟩, rfl⟩, hc⟩
    have hn : Triple
        (fun w => (Slipped w ∨ Undoable desk before w) ∧ rootsStand desk request (root :: roots) w)
        (transferRoot desk.toSurroundings request root)
        (fun more w => (Slipped w ∨ Undoable desk before w) ∧
          (if more then rootsStand desk request roots else fun _ => true) w) Slipped := by
      apply triple_consequence (triple_followed _ (fun _ => true) hr) _ (fun _ _ h => h)
        fun _ h => h.1
      rintro w ⟨hw, hc⟩
      unfold rootsStand at hc
      rw [Bool.and_eq_true] at hc
      exact ⟨⟨hw, hc.1⟩, hc.2⟩
    apply triple_bind hn
    intro more
    cases more with
    | true => exact ih fun other ho => ht other (mem_cons_of_mem _ ho)
    | false => exact triple_pure fun _ h => h.1

theorem runTransfer_exact (hd : Documented desk) :
    Triple (fun w => Unless (fun disk => WellFormed before ∧ disk.fs = before) [] w ∧
        transferStands desk request w)
      (runTransfer desk.toSurroundings request)
      (fun report w => Slipped w ∨
        WellFormed w.disk.fs ∧ Reversible desk before report.undo w.disk.fs)
      fun _ => True := by
  apply triple_bind (triple_consequence (triple_followed _ _ (checkTarget_spec.triple []))
    (fun _ h => h) (fun _ _ h => h) fun _ _ => trivial)
  intro _
  apply triple_bind
  · apply triple_consequence (triple_followed _ _ ((scanRoots_spec (R := fun disk =>
        (WellFormed before ∧ disk.fs = before) ∧ getKey request.targetDir disk.fs = some .dir)
        request.sources 0 ?_).triple [])) (fun _ h => h) (fun _ _ h => h) fun _ _ => trivial
    rintro disk ⟨⟨hf, hfs⟩, ht⟩
    exact ⟨hfs ▸ hf, ht⟩
  intro roots
  apply triple_bind (Q := fun _ w => Slipped w ∨ Undoable desk before w)
  · rintro w ⟨hsl | ⟨⟨⟨⟨hf, hfs⟩, -⟩, ht⟩, hu⟩, hc⟩
    · exact triple_consequence (transferRoots_steady roots) (fun _ h => h)
        (fun _ _ h => .inl h) (fun _ _ => trivial) w hsl
    · have hs : Undoable desk before w := by
        rw [Undoable, hu, hfs]
        exact ⟨hf, reversible_nil before⟩
      exact triple_consequence (transferRoots_exact hd roots ht)
        (fun _ h => h) (fun _ _ h => h) (fun _ _ => trivial) w ⟨.inr hs, hc⟩
  intro _
  apply triple_get_bind
  intro w
  apply triple_pure
  rintro _ ⟨rfl, hw⟩
  exact hw

/-- A desktop on one device. A link is what it says of itself. -/
def oneDesktop : Desktop where
  toSurroundings := oneDevice
  queryExists := pathLexists
  leads fs path := decide (getKey path fs = some (.link true))
  copyLink _ _ _ := .error ⟨.other, .system⟩
  moveFile fs source destination :=
    if (getKey source fs).any singleNode then renamePath fs source destination
    else .error ⟨.other, .system⟩

theorem documented_oneDesktop : Documented oneDesktop where
  queries fs path hnone := by
    change pathLexists fs path = false
    rw [pathLexists, hnone]
    rfl
  leads fs fs' path hsame := by
    change decide (getKey path fs' = some (.link true)) =
      decide (getKey path fs = some (.link true))
    rw [hsame]
  moves fs x y node hfs hn ho hab hparent := by
    have hs : getKey x fs ≠ none := by
      rw [hn]
      exact some_ne_none node
    have ha : ¬ x <+: y := by
      intro hu
      have hd : getKey x fs = some .dir := by
        rcases eq_nil_or_concat' y with rfl | ⟨dir, name, rfl⟩
        · rw [prefix_nil.mp hu]
          rwa [dropLast_nil] at hparent
        · rw [dropLast_concat] at hparent
          rcases prefix_concat_iff.mp hu with heq | hle
          · rw [heq, hab] at hs
            exact absurd rfl hs
          · by_cases hsame : x = dir
            · rwa [hsame]
            · exact hfs.above hparent hle hsame
      rw [hn] at hd
      cases hd
      cases ho
    obtain ⟨fs', hr, hm⟩ := renamePath_ok hfs hs hab hparent ha
    refine ⟨fs', ?_, hm⟩
    change (if (getKey x fs).any singleNode then renamePath fs x y else _) = _
    rw [hn, if_pos (show (some node).any singleNode from ho), hr]

def finishes : Outcome → Bool
  | .ok _ _ => true
  | .error _ _ => false

theorem exists_of_finishes {out : Outcome} (h : finishes out) :
    ∃ report w, out = .ok report w := by
  cases out with
  | ok report w => exact ⟨report, w, rfl⟩
  | error error w => cases h

def linkFolders : FileSystem :=
  [([], .dir), ([[97]], .dir), ([[97], [108]], .link false), ([[98]], .dir)]

def moveLink : TransferRequest := ⟨[[[97], [108]]], [[98]], .move, .keepBoth⟩

def succeeds : EStateM.Result IoError FileSystem Unit → Bool
  | .ok _ _ => true
  | .error _ _ => false

end FocalDesk.Transfer
