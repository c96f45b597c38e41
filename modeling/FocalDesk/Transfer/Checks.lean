import FocalDesk.Transfer.Conservation
import FocalDesk.Transfer.TakeBack

/-! Checks of a run for the branches that cannot be undone, and the rules for them. -/
namespace FocalDesk.Transfer
open Library Archive

variable {α β : Type} {fs fs' g pre mid committed : FileSystem} {desk : Desktop}
  {request : TransferRequest} {op : TransferOperation} {sameDeviceMove : Bool}
  {dir x t d req : Path} {backup : Option Path} {U : List TransferUndo} {w : World}
  {R R' Q' : Disk → Prop} {Q : α → Disk → Prop} {E : Disk → Prop} {m : M α} {f : α → M β}
  {check check' : World → Bool} {ok : α → World → Bool} {failed : World → Bool}

/-! The checks, as the transfer goes. -/

/-- A removal leaves nothing. -/
def removable (path : Path) : World → Bool :=
  followed (removePath path) (fun _ _ => true) fun w => (getKey path w.disk.fs).isNone

/-- What was staged can be taken back. -/
def unstageable (sameDeviceMove : Bool) (stage : Path) (w : World) : Bool :=
  sameDeviceMove || removable stage w

/-- Links are not copied back. -/
def plainTree (path : Path) (fs : FileSystem) : Bool :=
  (subtree fs path).all fun q => (getKey q fs).all Node.plain

/-- What can be moved back over a backup: no folder to another device, and nothing into itself. -/
def movesBack (sameDeviceMove : Bool) (source destination : Path) (fs : FileSystem) : Bool :=
  !destination.isPrefixOf source && (sameDeviceMove || (getKey source fs).any singleNode)

/-- From these files a source is removed whole or not at all, and what its record needs is there. -/
def removalStands (desk : Desktop) (source destination : Path) (backup : Option Path)
    (fs : FileSystem) : World → Bool :=
  followed (removePath source)
    (fun _ _ => match backup with
      | none => plainTree source fs
      | some _ => movesBack false source destination fs)
    fun after => decide (after.disk.fs = fs) && match backup with
      | none => existsPath desk fs destination
      | some _ => true

/-- What the record needs is there. -/
def recordStands (desk : Desktop) (operation : TransferOperation) (sameDeviceMove : Bool)
    (source destination : Path) (backup : Option Path) (w : World) : Bool :=
  if operation = .move ∧ sameDeviceMove = false then
    removalStands desk source destination backup w.disk.fs w
  else match backup with
    | none => existsPath desk w.disk.fs destination
    | some _ => match operation with
      | .copy => true
      | .move => movesBack true source destination w.disk.fs

def commitStands (desk : Desktop) (request : TransferRequest) (sameDeviceMove : Bool)
    (stage destination : Path) (root : ScannedRoot) : World → Bool :=
  followed isCancelled (fun cancelled =>
    if cancelled then unstageable sameDeviceMove stage
    else followed (commitStage desk.toSurroundings stage destination request.conflictPolicy)
      (fun result => match result with
        | some (final, backup) =>
          recordStands desk request.operation sameDeviceMove root.path final backup
        | none => unstageable sameDeviceMove stage)
      (unstageable sameDeviceMove stage)) fun _ => true

def stagedStands (desk : Desktop) (request : TransferRequest) (stage destination : Path)
    (root : ScannedRoot) : World → Bool :=
  let sameDeviceMove := request.operation = .move && desk.sameDevice root.path
  followed (symlinkMetadata root.path) (fun _ =>
    followed (stageRoot desk.toSurroundings sameDeviceMove root.path stage)
      (fun _ => commitStands desk request sameDeviceMove stage destination root)
      (removable stage)) fun _ => true

def namedStands (desk : Desktop) (request : TransferRequest) (destination : Path)
    (root : ScannedRoot) : World → Bool :=
  followed (stageName desk.toSurroundings destination)
    (fun stage => stagedStands desk request stage destination root) fun _ => true

/-- One source after the other, as the transfer goes. -/
def rootStands (desk : Desktop) (request : TransferRequest) (root : ScannedRoot) : World → Bool :=
  followed (modifyDisk fun disk => { disk with hardLinks := [] }) (fun _ =>
    followed isCancelled (fun cancelled =>
      if cancelled then fun _ => true
      else if root.path = [] then fun _ => true
      else
        let destination := request.targetDir ++ [root.path.getLastD []]
        if destination = root.path then fun _ => true
        else if request.conflictPolicy = .skip then
          followed (pathExists destination) (fun taken =>
            if taken then fun _ => true
            else namedStands desk request destination root) fun _ => true
        else namedStands desk request destination root) fun _ => true) fun _ => true

def rootsStand (desk : Desktop) (request : TransferRequest) : List ScannedRoot → World → Bool
  | [] => fun _ => true
  | root :: roots => fun w =>
    rootStands desk request root w &&
      followed (transferRoot desk.toSurroundings request root)
        (fun more => if more then rootsStand desk request roots else fun _ => true)
        (fun _ => true) w

def transferStands (desk : Desktop) (request : TransferRequest) : World → Bool :=
  followed (checkTarget request) (fun _ =>
    followed (scanRoots request.targetDir request.sources 0)
      (fun roots => rootsStand desk request roots) fun _ => true) fun _ => true

/-! What an item ends with if its check passes. -/

/-- Nothing happened, or what did is recorded. -/
def Tracked (desk : Desktop) (g : FileSystem) (U : List TransferUndo) (w : World) : Prop :=
  Slipped w ∨ (w.report.undo = U ∧ Same g w.disk.fs) ∨
    ∃ undo, w.report.undo = U ++ [undo] ∧ Stands desk g w.disk.fs undo

/-- From files in order, and if the check passes. -/
def Checked (R : Disk → Prop) (check : World → Bool) (U : List TransferUndo) (w : World) : Prop :=
  Unless R U w ∧ check w = true

def Tracks (desk : Desktop) (R : Disk → Prop) (check : World → Bool) (m : M α) (g : FileSystem) :
    Prop :=
  ∀ U, Triple (Checked R check U) m (fun _ => Tracked desk g U) Slipped

/-- Part of an item: nothing was recorded yet. -/
def Tidies (R : Disk → Prop) (check : World → Bool) (m : M α) (Q : Disk → Prop) : Prop :=
  ∀ U, Triple (Checked R check U) m (fun _ => Unless Q U) Slipped

theorem Unless.slipped (h : Unless (fun _ => False) U w) : Slipped w :=
  h.elim id fun h => h.1.elim

theorem tracks_runs (h : Runs R m (fun _ disk => Same g disk.fs) fun _ => False) :
    Tracks desk R check m g := by
  intro U
  apply triple_consequence (h.triple U) (fun _ h => h.1) _ fun _ h => h.slipped
  rintro a w (hs | ⟨hsa, hu⟩)
  · exact .inl hs
  · exact .inr (.inl ⟨hu, hsa⟩)

theorem tracks_bind (hm : Runs R m Q fun _ => False) (hf : ∀ a, Tracks desk (Q a) (ok a) (f a) g) :
    Tracks desk R (followed m ok failed) (m >>= f) g := by
  intro U
  apply triple_bind (triple_consequence (triple_followed _ _ (hm.triple U)) (fun _ h => h)
    (fun _ _ h => h) fun _ h => h.1.slipped)
  exact fun a => hf a U

/-- There is nothing left to check. -/
theorem tracks_bind_true (hm : Runs R m Q fun _ => False)
    (hf : ∀ a, Tracks desk (Q a) (fun _ => true) (f a) g) :
    Tracks desk R (fun _ => true) (m >>= f) g := by
  intro U
  apply triple_bind (triple_consequence (hm.triple U) (fun _ h => h.1) (fun _ _ h => h)
    fun _ h => h.slipped)
  intro a
  exact triple_consequence (hf a U) (fun _ h => ⟨h, rfl⟩) (fun _ _ h => h) fun _ h => h

theorem tracks_attempt_bind {f : Except IoError α → M β} (hm : Runs R m Q E)
    (hok : ∀ a, Tracks desk (Q a) (ok a) (f (.ok a)) g)
    (he : ∀ err, Tracks desk E failed (f (.error err)) g) :
    Tracks desk R (followed m ok failed) (attempt m >>= f) g := by
  intro U
  apply triple_bind (triple_attempt (triple_followed _ _ (hm.triple U)))
  rintro (err | a) w ⟨hv, hf⟩
  · exact he err U w (hf err rfl)
  · exact hok a U w (hv a rfl)

theorem tracks_ite {c : Prop} [Decidable c] {n : M α} (hm : c → Tracks desk R check m g)
    (hn : ¬ c → Tracks desk R check' n g) :
    Tracks desk R (if c then check else check') (if c then m else n) g := by
  by_cases hc : c
  · rw [if_pos hc, if_pos hc]
    exact hm hc
  · rw [if_neg hc, if_neg hc]
    exact hn hc

theorem tracks_pure (hm : Tracks desk R check m g) (b : β) :
    Tracks desk R check (m >>= fun _ => pure b) g :=
  fun U => triple_bind (hm U) fun _ => triple_pure fun _ h => h

/-- What the check says is known from then on. -/
theorem tracks_known (hm : Tracks desk R' (fun _ => true) m g)
    (hR : ∀ w, R w.disk → check w → R' w.disk) : Tracks desk R check m g := by
  intro U
  apply triple_consequence (hm U) _ (fun _ _ h => h) fun _ h => h
  rintro w ⟨hs | ⟨hd, hu⟩, hc⟩
  · exact ⟨.inl hs, rfl⟩
  · exact ⟨.inr ⟨hR w hd hc, hu⟩, rfl⟩

theorem tracks_consequence (hm : Tracks desk R' check m g) (hR : ∀ disk, R disk → R' disk) :
    Tracks desk R check m g :=
  fun U => triple_consequence (hm U) (fun _ h => ⟨h.1.mono hR, h.2⟩) (fun _ _ h => h) fun _ h => h

/-- The check may look at the files as they are now. -/
theorem tracks_snapshot (check : FileSystem → World → Bool)
    (h : ∀ now, Tracks desk (fun disk => R disk ∧ disk.fs = now) (check now) m g) :
    Tracks desk R (fun w => check w.disk.fs w) m g := by
  rintro U w ⟨hs | ⟨hd, hu⟩, hc⟩
  · exact h w.disk.fs U w ⟨.inl hs, hc⟩
  · exact h w.disk.fs U w ⟨.inr ⟨⟨hd, rfl⟩, hu⟩, hc⟩

theorem tracks_tidies (hm : Tidies R check m Q')
    (hf : ∀ a, Runs Q' (f a) (fun _ disk => Same g disk.fs) fun _ => False) :
    Tracks desk R check (m >>= f) g := by
  intro U
  apply triple_bind (hm U)
  intro a
  have hr : Tracks desk Q' (fun _ => true) (f a) g := tracks_runs (hf a)
  exact triple_consequence (hr U) (fun _ h => ⟨h, rfl⟩) (fun _ _ h => h) fun _ h => h

theorem complete_tracks (undo : TransferUndo) (bytes : ℕ) :
    Tracks desk (fun disk => Stands desk g disk.fs undo) check (complete undo bytes) g := by
  intro U
  apply triple_modify
  rintro w ⟨hsl | ⟨hs, hu⟩, -⟩
  · exact .inl hsl
  · refine .inr (.inr ⟨undo, ?_, hs⟩)
    change w.report.undo ++ [undo] = U ++ [undo]
    rw [hu]

/-! What was staged. -/

theorem removePath_tidies {P : FileSystem → Prop} (hP : ∀ fs, P fs → WellFormed fs)
    (hQ : ∀ disk, RemovedFrom P t disk → getKey t disk.fs = none → Q' disk) :
    Tidies (fun disk => P disk.fs) (removable t) (attempt (removePath t)) Q' := by
  intro U
  apply triple_consequence (triple_attempt (triple_followed _ _ ((removePath_spec hP).triple U)))
    (fun _ h => h) _ (fun _ h => h)
  rintro (err | a) w ⟨hv, hf⟩
  · obtain ⟨hs | ⟨hr, hu⟩, hg⟩ := hf err rfl
    · exact .inl hs
    · exact .inr ⟨hQ _ hr (Option.isNone_iff_eq_none.mp hg), hu⟩
  · obtain ⟨hs | ⟨⟨hr, hg⟩, hu⟩, -⟩ := hv a rfl
    · exact .inl hs
    · exact .inr ⟨hQ _ hr hg, hu⟩

/-- Nothing but what is under a path has changed, and nothing is there again. -/
theorem Within.same (h : Within t g fs) (hg : WellFormed g) (ha : getKey t g = none)
    (hgo : getKey t fs = none) : Same g fs := by
  refine ⟨h.formed, fun q => ?_⟩
  by_cases ht : t <+: q
  · rw [absent_under h.formed hgo ht, absent_under hg ha ht]
  · exact h.other q ht

theorem unstage_tidies :
    Tidies (fun disk => StagedIn sameDeviceMove dir x t g disk.fs)
      (unstageable sameDeviceMove t) (unstage sameDeviceMove t x) fun disk => Same g disk.fs := by
  intro U
  cases sameDeviceMove with
  | true =>
    have hb : Runs (fun disk : Disk => StagedIn true dir x t g disk.fs) (putBack t x)
        (fun _ disk => Same g disk.fs) fun _ => False := by
      apply runs_consequence (putBack_spec (P := StagedIn true dir x t g) ?_) (fun _ h => h)
      · rintro _ disk ⟨fs, ⟨-, -, hg, ha⟩, hr⟩
        exact ⟨hr.formed, ha.back hr hg⟩
      · exact fun _ h => h
      · rintro fs ⟨-, -, hg, ha⟩
        exact ⟨ha.formed, ha.free hg⟩
    apply triple_bind (triple_consequence (hb.triple U) (fun _ h => h.1) (fun _ _ h => h)
      fun _ h => h.slipped)
    exact fun _ => triple_pure fun _ h => h
  | false =>
    have hre : Tidies (fun disk : Disk => StagedIn false dir x t g disk.fs) (removable t)
        (attempt (removePath t)) fun disk => Same g disk.fs := by
      apply removePath_tidies fun fs hfs => StagedIn.formed hfs
      rintro disk ⟨fs, hs, hw⟩ hgo
      have hc : Copied x t g fs := hs.staged
      exact (hc.within.trans hw).same hc.formed hc.absent hgo
    exact triple_bind (hre U) fun _ => triple_pure fun _ h => h

theorem unstage_tracks (report : M Unit) (hr : ∀ R, Runs R report (fun _ => R) fun _ => False)
    (b : Bool) :
    Tracks desk (fun disk => StagedIn sameDeviceMove dir x t g disk.fs)
      (unstageable sameDeviceMove t) (do unstage sameDeviceMove t x; report; pure b) g :=
  tracks_tidies unstage_tidies fun _ => runs_bind (hr _) fun _ => runs_pure fun _ h => h

end FocalDesk.Transfer
