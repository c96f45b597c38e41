import FocalDesk.Transfer.Roots

/-! A transfer loses nothing as long as nothing slips. -/
namespace FocalDesk.Transfer
open Library Archive

variable {fs g before : FileSystem} {around : Surroundings} {request : TransferRequest}
  {folder x t d req : Path} {U : List TransferUndo} {w : World} {R : Disk → Prop}
  {E : Disk → Prop}

/-- Before a source the files are known, and the target is not below it. -/
def Untouched (folder x : Path) (g : FileSystem) (disk : Disk) : Prop :=
  ¬ x <+: folder ∧ WellFormed g ∧ disk.fs = g ∧ disk.hardLinks = []

theorem Untouched.settled {disk : Disk} (h : Untouched folder x g disk) : Settled g [] disk.fs := by
  obtain ⟨-, hg, rfl, -⟩ := h
  exact ⟨hg, kept_of_eq fun _ => rfl⟩

theorem stageName_spec (around : Surroundings) (dst : Path) :
    Runs R (stageName around dst) (fun t disk => R disk ∧ FreeIn dst.dropLast disk.fs t) E := by
  apply runs_attempt_bind (uniqueSibling_spec around dst "partial")
  · exact fun t => runs_pure fun disk hd => hd
  · exact fun err => runs_bind slip_spec fun _ => runs_throw fun disk hd => hd

theorem transferNamed_ends (hr : ∃ name, req = request.targetDir ++ [name]) (root : ScannedRoot)
    (hne : root.path ≠ req) :
    Ends (Untouched request.targetDir root.path g) (transferNamed around request req root)
      g := by
  have hp : req.dropLast = request.targetDir := by
    obtain ⟨name, rfl⟩ := hr
    exact List.dropLast_concat
  have hn := stageName_spec (R := Untouched request.targetDir root.path g)
    (E := fun _ => False) around req
  rw [hp] at hn
  exact ends_bind hn fun t => transferStaged_ends hr root hne

theorem transferRoot_ends (root : ScannedRoot) :
    Ends (fun disk => ¬ root.path <+: request.targetDir ∧ WellFormed g ∧ disk.fs = g)
      (transferRoot around request root) g := by
  have hr : ∀ (report : M Unit) (b : Bool), (∀ R, Runs R report (fun _ => R) fun _ => False) →
      Ends (Untouched request.targetDir root.path g) (do report; pure b) g :=
    fun report b hq => (runs_bind (hq _) fun _ => runs_pure fun _ h => h.settled).ends
  apply ends_bind (Q := fun _ => Untouched request.targetDir root.path g)
  · apply runs_modifyDisk
    rintro disk ⟨ht, hg, hfs⟩
    exact ⟨ht, hg, hfs, rfl⟩
  intro _
  apply ends_bind isCancelled_spec
  intro cancelled
  apply ends_ite
  · exact fun _ => hr markCancelled false fun _ => markCancelled_spec
  intro _
  apply ends_ite
  · exact fun _ => hr _ true fun _ => pushError_spec _
  intro _
  apply ends_ite
  · exact fun _ => hr skipRoot true fun _ => skipRoot_spec
  intro hne
  have hn : Ends (Untouched request.targetDir root.path g)
      (transferNamed around request (request.targetDir ++ [root.path.getLastD []]) root) g :=
    transferNamed_ends ⟨root.path.getLastD [], rfl⟩ root (Ne.symm hne)
  apply ends_ite
  · intro _
    apply ends_bind (pathExists_spec _)
    intro tk
    apply ends_ite
    · exact fun _ => ends_consequence (hr skipRoot true fun _ => skipRoot_spec) fun _ h => h.1
    · exact fun _ => ends_consequence hn fun _ h => h.1
  · exact fun _ => hn

/-- Everything is where it was at first, or where the records say. -/
def Sound (before : FileSystem) (w : World) : Prop :=
  Settled before (w.report.undo.flatMap TransferUndo.places) w.disk.fs

theorem Recorded.sound (h : Recorded g U w) (hk : Kept before g (U.flatMap TransferUndo.places))
    : Slipped w ∨ Sound before w := by
  refine h.imp_right ?_
  rintro ⟨rs, hu, hf, hs⟩
  refine ⟨hf, ?_⟩
  rw [hu, List.flatMap_append]
  exact hk.trans hs

theorem transferRoots_spec (roots : List ScannedRoot)
    (ht : ∀ root ∈ roots, ¬ root.path <+: request.targetDir) :
    Triple (fun w => Slipped w ∨ Sound before w) (transferRoots around request roots)
      (fun _ w => Slipped w ∨ Sound before w) Slipped := by
  induction roots with
  | nil => exact triple_pure fun _ h => h
  | cons root roots ih =>
    apply triple_bind (Q := fun _ w => Slipped w ∨ Sound before w)
    · rintro w (hsl | hs)
      · exact triple_consequence (transferRoot_ends (g := before) root).steady (fun _ h => h)
          (fun _ _ h => .inl h) (fun _ h => h) w hsl
      · have hr : Ends (fun disk => ¬ root.path <+: request.targetDir ∧
            WellFormed w.disk.fs ∧ disk.fs = w.disk.fs) (transferRoot around request root)
              w.disk.fs := transferRoot_ends root
        exact triple_consequence (hr.triple w.report.undo) (fun _ h => h)
          (fun _ _ h => h.sound hs.kept) (fun _ h => h) w
          (.inr ⟨⟨ht root List.mem_cons_self, hs.formed, rfl⟩, rfl⟩)
    · intro more
      apply triple_ite
      · exact fun _ => ih fun other ho => ht other (List.mem_cons_of_mem _ ho)
      · exact fun _ => triple_pure fun _ h => h

theorem transferRoots_steady (roots : List ScannedRoot) :
    Keeps Slipped (transferRoots around request roots) := by
  induction roots with
  | nil => exact keeps_pure _
  | cons root roots ih =>
    apply keeps_bind (transferRoot_ends (g := []) root).steady
    intro more
    exact triple_ite (fun _ => ih) fun _ => keeps_pure _

/-! Before the first source. -/

theorem checkTarget_spec :
    Runs R (checkTarget request)
      (fun _ disk => R disk ∧ getKey request.targetDir disk.fs = some .dir) R := by
  apply runs_ite
  · exact fun _ => runs_throw fun _ h => h
  intro _
  apply runs_attempt_bind (symlinkMetadata_spec request.targetDir)
  · intro node
    rcases node with _ | data | leads | _
    · exact runs_bind (quiet_systemCall.runs fun _ h => h.1) fun _ =>
        quiet_systemCall.runs fun _ h => h.1
    · exact runs_throw fun _ h => h.1
    · exact runs_throw fun _ h => h.1
    · exact runs_throw fun _ h => h.1
  · exact fun err => runs_throw fun _ h => h

/-- The target is not below a source: a folder is asked, and nothing else has anything below. -/
theorem scanRoot_spec (src : Path)
    (hR : ∀ disk, R disk → WellFormed disk.fs ∧ getKey folder disk.fs = some .dir) :
    Runs R (scanRoot folder src) (fun _ disk => R disk ∧ ¬ src <+: folder) R := by
  apply runs_bind (quiet_checkCancelled R)
  intro _
  apply runs_bind (symlinkMetadata_spec src)
  intro node
  have hsc : ¬ src <+: folder → Runs (fun disk => R disk ∧ getKey src disk.fs = some node)
      (scanEntry (maxTransferDepth + 1) src) (fun _ disk => R disk ∧ ¬ src <+: folder) R := by
    intro ha
    apply runs_consequence (quiet_scanEntry _ src _) (fun _ h => h)
    · exact fun _ disk hd => ⟨hd.1, ha⟩
    · exact fun disk hd => hd.1
  apply runs_ite
  · intro _
    apply runs_bind (quiet_systemCall.runs fun _ h => h.1)
    intro _
    apply runs_ite
    · exact fun _ => runs_throw fun _ h => h.1
    · exact hsc
  · intro hn
    apply runs_consequence (quiet_scanEntry _ src _) (fun _ h => h)
    · rintro _ disk ⟨hd, hs⟩
      refine ⟨hd, ?_⟩
      intro hu
      obtain ⟨hf, hfo⟩ := hR disk hd
      by_cases hsa : src = folder
      · rw [hsa, hfo] at hs
        cases hs
        exact hn rfl
      · rw [hf.above hfo hu hsa] at hs
        cases hs
        exact hn rfl
    · exact fun disk hd => hd.1

theorem scanRoots_spec (sources : List Path) (total : ℕ)
    (hR : ∀ disk, R disk → WellFormed disk.fs ∧ getKey folder disk.fs = some .dir) :
    Runs R (scanRoots folder sources total)
      (fun roots disk => R disk ∧ ∀ root ∈ roots, ¬ root.path <+: folder) R := by
  induction sources generalizing total with
  | nil => exact runs_pure fun disk hd => ⟨hd, fun root hr => absurd hr List.not_mem_nil⟩
  | cons src sources ih =>
    apply runs_bind (scanRoot_spec src hR)
    intro bytes
    apply runs_ite
    · exact fun _ => runs_throw fun disk hd => hd.1
    intro _
    apply runs_bind
    · apply runs_snapshot
      intro d₀
      apply runs_consequence (runs_frame (R d₀ ∧ ¬ src <+: folder) (ih (total + bytes)))
      · rintro disk ⟨hk, rfl⟩
        exact ⟨hk, hk.1⟩
      · exact fun roots disk hd => (⟨hd.2.1, hd.1.2, hd.2.2⟩ :
          R disk ∧ ¬ src <+: folder ∧ ∀ root ∈ roots, ¬ root.path <+: folder)
      · exact fun disk hd => hd.2
    · intro roots
      apply runs_pure
      rintro disk ⟨hd, hs, hro⟩
      refine ⟨hd, fun root hr => ?_⟩
      rcases List.mem_cons.mp hr with rfl | hr
      · exact hs
      · exact hro root hr

/-! The whole transfer. -/

/-- A transfer before its first call. -/
def start (fs : FileSystem) (faults : List Bool) (checksLeft : Option ℕ) (sizes stamps : List ℕ) :
    World where
  disk := ⟨fs, []⟩
  report := ⟨0, 0, 0, false, [], []⟩
  entryCount := 0
  faults := faults
  checksLeft := checksLeft
  sizes := sizes
  stamps := stamps
  slipped := false

abbrev Outcome := EStateM.Result IoError World TransferReport

/-- The records the caller gets, if it gets a report. -/
def records : Outcome → List TransferUndo
  | .ok report _ => report.undo
  | .error _ _ => []

def after : Outcome → World
  | .ok _ w => w
  | .error _ w => w

theorem runTransfer_spec :
    Triple (Unless (fun disk => WellFormed before ∧ disk.fs = before) [])
      (runTransfer around request)
      (fun report w => Slipped w ∨ Kept before w.disk.fs (report.undo.flatMap TransferUndo.places))
      (fun w => Slipped w ∨ Kept before w.disk.fs []) := by
  have hs : ∀ w, Unless (fun disk => WellFormed before ∧ disk.fs = before) [] w →
      Slipped w ∨ Kept before w.disk.fs [] := by
    intro w hw
    refine hw.imp_right ?_
    rintro ⟨⟨-, hfs⟩, -⟩
    exact kept_of_eq fun q => by rw [hfs]
  apply triple_bind (triple_consequence ((checkTarget_spec).triple []) (fun _ h => h)
    (fun _ _ h => h) hs)
  intro _
  apply triple_bind
  · apply triple_consequence ((scanRoots_spec (R := fun disk => (WellFormed before ∧
        disk.fs = before) ∧ getKey request.targetDir disk.fs = some .dir) request.sources 0
        ?_).triple []) (fun _ h => h) (fun _ _ h => h)
    · exact fun w hw => hs w (hw.mono fun _ h => h.1)
    · rintro disk ⟨⟨hf, hfs⟩, ht⟩
      exact ⟨hfs ▸ hf, ht⟩
  intro roots
  apply triple_bind (Q := fun _ w => Slipped w ∨ Sound before w)
  · rintro w (hsl | ⟨⟨⟨⟨hf, hfs⟩, -⟩, ht⟩, hu⟩)
    · exact triple_consequence (transferRoots_steady roots) (fun _ h => h)
        (fun _ _ h => .inl h) (fun _ h => .inl h) w hsl
    · have hst : Sound before w := by
        rw [Sound, hu, hfs]
        exact ⟨hf, kept_of_eq fun _ => rfl⟩
      exact triple_consequence (transferRoots_spec roots ht)
        (fun _ h => h) (fun _ _ h => h) (fun _ h => .inl h) w (.inr hst)
  intro _
  apply triple_get_bind
  intro w
  apply triple_pure
  rintro _ ⟨rfl, hw⟩
  exact hw.imp_right fun hso => hso.kept

def twoFolders : FileSystem :=
  [([], .dir), ([[97]], .dir), ([[97], [120]], .file [1]), ([[98]], .dir), ([[98], [120]], .file [2])]

def oneDevice : Surroundings := ⟨1, fun _ _ => none, fun _ => true⟩

def moveOver : TransferRequest := ⟨[[[97], [120]]], [[98]], .move, .replace⟩

theorem wellFormed_of_parents (h : ∀ e ∈ fs, e.1 = [] ∨ getKey e.1.dropLast fs = some .dir)
    : WellFormed fs := by
  intro p name node hn
  have hp := (h _ (mem_of_lookup hn)).resolve_left (List.concat_ne_nil _ _)
  rwa [List.dropLast_concat] at hp

theorem wellFormed_twoFolders : WellFormed twoFolders :=
  wellFormed_of_parents (by decide)

end FocalDesk.Transfer
