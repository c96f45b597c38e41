import FocalDesk.Transfer.Copies

/-! From the source to the stage, and from the stage to the destination or back. -/
namespace FocalDesk.Transfer
open Library Archive List

variable {fs fs' g mid : FileSystem} {P : FileSystem → Prop} {env : Surroundings}
  {sameDeviceMove : Bool} {folder x t d requested p q : Path} {bak : Option Path}
  {result : CommitResult} {places : List Path}

theorem Within.trans (h : Within p g mid) (h' : Within p mid fs) : Within p g fs :=
  ⟨h'.formed, fun q hq => (h'.other q hq).trans (h.other q hq)⟩

theorem Moved.congr (h : Moved x t g fs) (hf : WellFormed fs')
    (hs : ∀ q, getKey q fs' = getKey q fs) : Moved x t g fs' :=
  { h with
    formed := hf
    under := fun s => (hs _).trans (h.under s)
    other := fun q hq => (hs q).trans (h.other q hq) }

theorem Copied.congr (h : Copied x t g fs) (hf : WellFormed fs')
    (hs : ∀ q, getKey q fs' = getKey q fs) : Copied x t g fs' :=
  { h with
    within := ⟨hf, fun q hq => (hs q).trans (h.within.other q hq)⟩
    placed := by rw [hs]; exact h.placed
    mirrors := fun s => (hs _).trans (h.mirrors s) }

/-- What a source is at its stage: moved there, or copied. -/
def Staged (sameDeviceMove : Bool) (x t : Path) (g fs : FileSystem) : Prop :=
  if sameDeviceMove then WellFormed g ∧ Moved x t g fs else Copied x t g fs

/-- A stage beside the destination, which is not below the source. -/
structure StagedIn (sameDeviceMove : Bool) (folder x t : Path) (g fs : FileSystem) : Prop where
  target : ¬ x <+: folder
  beside : ∃ name, t = folder ++ [name]
  staged : Staged sameDeviceMove x t g fs

theorem StagedIn.formed (h : StagedIn sameDeviceMove folder x t g fs) : WellFormed fs := by
  have hs := h.staged
  unfold Staged at hs
  cases sameDeviceMove with
  | true => exact hs.2.formed
  | false => exact hs.within.formed

theorem StagedIn.congr (h : StagedIn sameDeviceMove folder x t g fs) (hf : WellFormed fs')
    (hsa : ∀ q, getKey q fs' = getKey q fs) : StagedIn sameDeviceMove folder x t g fs' := by
  refine ⟨h.target, h.beside, ?_⟩
  have hs := h.staged
  unfold Staged at hs ⊢
  cases sameDeviceMove with
  | true => exact ⟨hs.1, hs.2.congr hf hsa⟩
  | false => exact hs.congr hf hsa

/-- What a commit did. -/
def Committed (folder t requested : Path) (fs : FileSystem) : CommitResult → FileSystem → Prop
  | none, fs' => fs' = fs
  | some (d, none), fs' => (∃ name, d = folder ++ [name]) ∧ Moved t d fs fs'
  | some (d, some b), fs' => d = requested ∧ (∃ name, b = folder ++ [name]) ∧
      ∃ mid, Moved d b fs mid ∧ Moved t d mid fs'

/-- A commit from one of these file systems. -/
def CommittedFrom (P : FileSystem → Prop) (folder t requested : Path) (result : CommitResult)
    (fs' : FileSystem) : Prop :=
  ∃ fs, P fs ∧ Committed folder t requested fs result fs'

/-- Another path in the way has been put aside. -/
theorem Moved.free (h : Moved x t g fs) (hg : WellFormed g) : getKey x fs = none := by
  rw [h.other x (free_apart hg h.source h.absent), if_pos (prefix_refl x)]

theorem replaceDestination_spec (hP : ∀ fs, P fs → WellFormed fs)
    (hs : ∀ fs fs', P fs → WellFormed fs' → (∀ q, getKey q fs' = getKey q fs) → P fs') {b : Path} :
    Runs (fun disk => P disk.fs ∧ FreeIn folder disk.fs b) (replaceDestination t requested b)
      (fun result disk => CommittedFrom P folder t requested result disk.fs)
      fun disk => P disk.fs := by
  apply runs_bind
  · apply runs_consequence (rename_spec (P := fun fs => P fs ∧ FreeIn folder fs b) ?_)
      (fun _ h => h) (fun _ _ h => h)
    · exact fun disk hd => hd.1
    · exact fun fs hfs => ⟨hP fs hfs.1, hfs.2.2⟩
  intro _
  have ha : ∀ mid, (∃ fs, (P fs ∧ FreeIn folder fs b) ∧ Moved requested b fs mid) →
      WellFormed mid ∧ getKey requested mid = none := by
    rintro mid ⟨fs, ⟨hfs, -⟩, hm⟩
    exact ⟨hm.formed, hm.free (hP fs hfs)⟩
  apply runs_attempt_bind (rename_spec ha)
  · intro _
    apply runs_pure
    rintro disk ⟨mid, ⟨fs, ⟨hfs, hb, -⟩, hba⟩, hc⟩
    exact ⟨fs, hfs, rfl, hb, mid, hba, hc⟩
  · intro err
    apply runs_bind (putBack_spec ha)
    intro rollback
    have hbc : ∀ disk : Disk, MovedFrom (fun mid => ∃ fs, (P fs ∧ FreeIn folder fs b) ∧
        Moved requested b fs mid) b requested disk → P disk.fs := by
      rintro disk ⟨mid, ⟨fs, ⟨hfs, -⟩, haw⟩, hr⟩
      exact hs fs disk.fs hfs hr.formed (haw.back hr (hP fs hfs))
    rcases rollback with _ | _
    · exact runs_throw hbc
    · exact runs_throw hbc

theorem commitStage_spec (hP : ∀ fs, P fs → WellFormed fs)
    (hsa : ∀ fs fs', P fs → WellFormed fs' → (∀ q, getKey q fs' = getKey q fs) → P fs')
    (hr : ∃ name, requested = folder ++ [name]) (pol : ConflictPolicy) :
    Runs (fun disk => P disk.fs) (commitStage env t requested pol)
      (fun result disk => CommittedFrom P folder t requested result disk.fs)
      fun disk => P disk.fs := by
  have hp : requested.dropLast = folder := by
    obtain ⟨name, rfl⟩ := hr
    exact dropLast_concat
  apply runs_bind (pathExists_spec requested)
  intro tk
  apply runs_ite
  · intro _
    cases pol with
    | replace =>
      have hs := uniqueSibling_spec (R := fun disk => P disk.fs) env requested "replaced"
      rw [hp] at hs
      apply runs_bind (runs_consequence hs (fun _ h => h.1) (fun _ _ h => h) fun _ h => h)
      exact fun b => replaceDestination_spec hP hsa
    | skip =>
      apply runs_pure
      exact fun disk hd => ⟨disk.fs, hd.1, rfl⟩
    | keepBoth =>
      have ha := availableDestination_spec (R := fun disk => P disk.fs) requested
      rw [hp] at ha
      apply runs_bind (runs_consequence ha (fun _ h => h.1) (fun _ _ h => h) fun _ h => h)
      intro free
      apply runs_bind
      · apply runs_consequence (rename_spec (P := fun fs => P fs ∧ FreeIn folder fs free) ?_)
          (fun _ h => h) (fun _ _ h => h)
        · exact fun disk hd => hd.1
        · exact fun fs hfs => ⟨hP fs hfs.1, hfs.2.2⟩
      intro _
      apply runs_pure
      rintro disk ⟨fs, ⟨hfs, hb, -⟩, hm⟩
      exact ⟨fs, hfs, hb, hm⟩
  · intro ht
    apply runs_bind
    · apply runs_consequence
        (rename_spec (P := fun fs => P fs ∧ (tk ↔ getKey requested fs ≠ none)) ?_)
        (fun _ h => h) (fun _ _ h => h)
      · exact fun disk hd => hd.1
      · exact fun fs hfs => ⟨hP fs hfs.1, not_not.mp (mt hfs.2.mpr ht)⟩
    intro _
    apply runs_pure
    rintro disk ⟨fs, ⟨hfs, -⟩, hm⟩
    exact ⟨fs, hfs, hr, hm⟩

/-! The stage. -/

/-- The stage is free, and nothing was copied yet. -/
structure Ready (folder x t : Path) (g : FileSystem) (disk : Disk) : Prop where
  target : ¬ x <+: folder
  formed : WellFormed g
  unchanged : disk.fs = g
  unlinked : disk.hardLinks = []
  present : getKey x g ≠ none
  free : FreeIn folder g t

theorem Ready.copying {disk : Disk} (h : Ready folder x t g disk) : Copying x t g disk where
  formed := h.formed
  present := h.present
  absent := h.free.2
  apart := by
    obtain ⟨name, hn⟩ := h.free.1
    exact free_not_under hn h.present h.free.2 h.target
  within := h.unchanged.symm ▸ Within.refl h.formed
  links := by
    intro key path hk
    rw [h.unlinked] at hk
    cases hk

theorem stageRoot_spec (folder : Path) :
    Runs (Ready folder x t g) (stageRoot env sameDeviceMove x t)
      (fun _ disk => StagedIn sameDeviceMove folder x t g disk.fs)
      fun disk => Partial x t g disk.fs := by
  cases sameDeviceMove with
  | true =>
    apply runs_snapshot
    intro d₀
    apply runs_consequence (runs_frame (Ready folder x t g d₀)
      (rename_spec (P := fun fs => fs = d₀.fs ∧ WellFormed d₀.fs ∧ getKey t d₀.fs = none) ?_))
    · rintro disk ⟨hr, rfl⟩
      have hu := hr.unchanged
      exact ⟨hr, rfl, hu.symm ▸ hr.formed, hu.symm ▸ hr.free.2⟩
    · rintro _ disk ⟨hr, _, ⟨rfl, -⟩, hm⟩
      rw [hr.unchanged] at hm
      exact ⟨hr.target, hr.free.1, hr.formed, hm⟩
    · rintro disk ⟨hr, heq, -⟩
      rw [heq]
      exact hr.copying.toPartial
    · rintro fs ⟨rfl, hk⟩
      exact hk
  | false =>
    apply runs_get_bind
    intro w
    apply runs_consequence (runs_frame (Ready folder x t g w.disk)
      (copyEntry_spec (x := x) (t := t) (g := g) (w.disk.fs.length + 1) (prefix_refl x)
        (prefix_refl t) w.disk))
    · rintro _ ⟨hr, rfl⟩
      exact ⟨hr, hr.copying, rfl⟩
    · rintro _ disk ⟨hr, hc⟩
      exact ⟨hr.target, hr.free.1, hc.formed, hc.present, hc.absent,
        hc.within, hc.placed, hc.mirrors⟩
    · exact fun disk hd => hd.2

/-- Everything is where it was, or at one of these places. -/
structure Settled (g : FileSystem) (places : List Path) (fs : FileSystem) : Prop where
  formed : WellFormed fs
  kept : Kept g fs places

/-- What was begun is taken back. -/
theorem Partial.removed (h : Partial x t g mid) (h' : Within t mid fs) : Settled g places fs :=
  ⟨h'.formed, (h.within.trans h').kept h.formed h.absent⟩

theorem unstage_spec {E : Disk → Prop} :
    Runs (fun disk => StagedIn sameDeviceMove folder x t g disk.fs) (unstage sameDeviceMove t x)
      (fun _ disk => Settled g [] disk.fs) E := by
  cases sameDeviceMove with
  | true =>
    apply runs_bind (Q := fun _ disk => Settled g [] disk.fs)
    · apply runs_consequence (putBack_spec (P := StagedIn true folder x t g) ?_) (fun _ h => h)
      · rintro _ disk ⟨fs, ⟨-, -, hg, ha⟩, hr⟩
        exact ⟨hr.formed, kept_of_eq (ha.back hr hg)⟩
      · exact fun _ h => h
      · rintro fs ⟨-, -, hg, ha⟩
        exact ⟨ha.formed, ha.free hg⟩
    · exact fun _ => runs_pure fun disk hd => hd
  | false =>
    have hre : ∀ disk : Disk, RemovedFrom (StagedIn false folder x t g) t disk →
        Settled g [] disk.fs := by
      rintro disk ⟨fs, hs, hw⟩
      have hc : Copied x t g fs := hs.staged
      exact ⟨hw.formed, (hc.within.trans hw).kept hc.formed hc.absent⟩
    apply runs_attempt_bind (removePath_spec fun fs hfs => StagedIn.formed hfs)
    · exact fun _ => runs_pure fun disk hd => hre disk hd.1
    · exact fun _ => runs_pure hre

end FocalDesk.Transfer

/-! One source after the other. -/
namespace FocalDesk.Transfer
open Library Archive

variable {α β : Type} {fs fs' g pre : FileSystem} {env : Surroundings}
  {req : TransferRequest} {sameDeviceMove : Bool} {folder x t d requested : Path}
  {bak : Option Path} {places : List Path} {U : List TransferUndo} {w : World}
  {R R' : Disk → Prop} {Q : α → Disk → Prop} {E : Disk → Prop} {m : M α} {f : α → M β}

/-! What a commit leaves. -/

theorem settled_removed (hre : ∃ name, requested = folder ++ [name]) (hne : x ≠ requested)
    (hs : StagedIn false folder x t g fs) {committed : FileSystem}
    (hc : Committed folder t requested fs (some (d, bak)) committed) (hr : Within x committed fs')
    : Settled g (d :: bak.toList) fs' := by
  have hco : Copied x t g fs := hs.staged
  refine ⟨hr.formed, ?_⟩
  cases bak with
  | none =>
    obtain ⟨⟨name, hd⟩, hm⟩ := hc
    exact kept_created hd hs.target hco hm hr
  | some b =>
    obtain ⟨rfl, ⟨backupName, hb⟩, replaced, hba, hm⟩ := hc
    obtain ⟨name, hd⟩ := hre
    obtain ⟨stageName, ht⟩ := hs.beside
    exact kept_replacedCopy hd ht hb hs.target hne hco hba hm hr

theorem Committed.formed {result : CommitResult} (hfs : WellFormed fs)
    (h : Committed folder t requested fs result fs') : WellFormed fs' := by
  rcases result with _ | ⟨d, _ | b⟩
  · have heq : fs' = fs := h
    rwa [heq]
  · exact h.2.formed
  · obtain ⟨-, -, mid, -, hm⟩ := h
    exact hm.formed

theorem settled_committed (hr : ∃ name, requested = folder ++ [name]) (hne : x ≠ requested)
    (hs : StagedIn sameDeviceMove folder x t g fs)
    (hc : Committed folder t requested fs (some (d, bak)) fs') :
    Settled g (d :: bak.toList) fs' := by
  have hf := hc.formed hs.formed
  cases sameDeviceMove with
  | false => exact settled_removed hr hne hs hc (Within.refl hf)
  | true =>
    obtain ⟨hg, hm⟩ : WellFormed g ∧ Moved x t g fs := hs.staged
    refine ⟨hf, ?_⟩
    cases bak with
    | none => exact kept_moved hm hc.2 hg
    | some b =>
      obtain ⟨rfl, -, replaced, hb, hl⟩ := hc
      obtain ⟨name, hd⟩ := hr
      obtain ⟨stageName, ht⟩ := hs.beside
      exact kept_replaced hd ht hm hb hl hg

theorem finishUndo_places (op : TransferOperation) (src dst : Path) (bak : Option Path) :
    (finishUndo op src dst bak).places = dst :: bak.toList := by
  cases op with
  | copy => cases bak with
    | none => rfl
    | some b => rfl
  | move => cases bak with
    | none => rfl
    | some b => rfl

theorem copyUndo_places (dst : Path) (bak : Option Path) :
    (copyUndo dst bak).places = dst :: bak.toList := by
  cases bak with
  | none => rfl
  | some b => rfl

/-! Items with their records. -/

/-- Everything is where it was or where the new records say. -/
def Recorded (g : FileSystem) (U : List TransferUndo) (w : World) : Prop :=
  Slipped w ∨ ∃ records, w.report.undo = U ++ records ∧
    Settled g (records.flatMap TransferUndo.places) w.disk.fs

/-- What the transfer of an item ends with. It fails only if something slipped. -/
structure Ends (R : Disk → Prop) (m : M α) (g : FileSystem) : Prop where
  triple : ∀ U, Triple (Unless R U) m (fun _ => Recorded g U) Slipped
  steady : Keeps Slipped m

theorem Unless.recorded (h : Unless (fun disk => Settled g [] disk.fs) U w) : Recorded g U w := by
  rcases h with hs | ⟨hse, hu⟩
  · exact Or.inl hs
  · exact Or.inr ⟨[], by rw [List.append_nil, hu], hse⟩

theorem Runs.ends (h : Runs R m (fun _ disk => Settled g [] disk.fs) fun _ => False) :
    Ends R m g :=
  ⟨fun U => triple_consequence (h.triple U) (fun _ h => h) (fun _ _ h => h.recorded)
    fun _ h => h.elim id fun h => h.1.elim, h.steady⟩

theorem ends_bind (hm : Runs R m Q fun _ => False) (hf : ∀ a, Ends (Q a) (f a) g) :
    Ends R (m >>= f) g :=
  ⟨fun U => triple_bind (triple_consequence (hm.triple U) (fun _ h => h) (fun _ _ h => h)
    fun _ h => h.elim id fun h => h.1.elim) fun a => (hf a).triple U,
    keeps_bind hm.steady fun a => (hf a).steady⟩

theorem ends_attempt_bind {f : Except IoError α → M β} (hm : Runs R m Q E)
    (hok : ∀ a, Ends (Q a) (f (.ok a)) g) (he : ∀ err, Ends E (f (.error err)) g) :
    Ends R (attempt m >>= f) g := by
  constructor
  · intro U
    apply triple_bind (triple_attempt (hm.triple U))
    rintro (err | a) w ⟨hv, hf⟩
    · exact (he err).triple U w (hf err rfl)
    · exact (hok a).triple U w (hv a rfl)
  · apply triple_bind (triple_attempt hm.steady)
    rintro (err | a) w ⟨hv, hf⟩
    · exact (he err).steady w (hf err rfl)
    · exact (hok a).steady w (hv a rfl)

theorem ends_ite {c : Prop} [Decidable c] {n : M α} (hm : c → Ends R m g) (hn : ¬ c → Ends R n g) :
    Ends R (if c then m else n) g := by
  by_cases hc : c
  · rw [if_pos hc]
    exact hm hc
  · rw [if_neg hc]
    exact hn hc

theorem ends_pure (hm : Ends R m g) (b : β) : Ends R (m >>= fun _ => pure b) g :=
  ⟨fun U => triple_bind (hm.triple U) fun _ => triple_pure fun _ h => h,
    keeps_bind hm.steady fun _ => keeps_pure b⟩

theorem ends_consequence (hm : Ends R m g) (hR : ∀ disk, R' disk → R disk) : Ends R' m g :=
  ⟨fun U => triple_consequence (hm.triple U) (fun _ h => h.mono hR) (fun _ _ h => h) fun _ h => h,
    hm.steady⟩

theorem complete_ends (undo : TransferUndo) (bytes : ℕ) :
    Ends (fun disk => Settled g undo.places disk.fs) (complete undo bytes) g := by
  constructor
  · intro U
    apply triple_modify
    rintro w (hs | ⟨hse, hu⟩)
    · exact .inl hs
    · refine .inr ⟨[undo], ?_, ?_⟩
      · change w.report.undo ++ [undo] = U ++ [undo]
        rw [hu]
      · simpa using hse
  · exact keeps_modify fun _ h => h

theorem finishRoot_ends (hre : ∃ name, requested = folder ++ [name]) (op : TransferOperation)
    (root : ScannedRoot) (hne : root.path ≠ requested) :
    Ends (fun disk => CommittedFrom (StagedIn sameDeviceMove folder root.path t g) folder t requested
        (some (d, bak)) disk.fs)
      (finishRoot op sameDeviceMove root d bak) g := by
  apply ends_ite
  · rintro ⟨rfl, rfl⟩
    have hrm : ∀ disk : Disk, RemovedFrom (fun fs => CommittedFrom
        (StagedIn false folder root.path t g) folder t requested (some (d, bak)) fs) root.path
          disk → Settled g (d :: bak.toList) disk.fs := by
      rintro disk ⟨committed, ⟨fs, hs, hc⟩, hr⟩
      exact settled_removed hre hne hs hc hr
    apply ends_attempt_bind (removePath_spec ?_)
    · intro _
      apply ends_consequence (complete_ends _ _)
      rw [finishUndo_places]
      exact fun disk hd => hrm disk hd.1
    · intro err
      apply ends_bind (pushError_spec _)
      intro _
      apply ends_consequence (complete_ends _ _)
      rw [copyUndo_places]
      exact hrm
    · rintro fs ⟨staged, hs, hc⟩
      exact hc.formed hs.formed
  · intro _
    apply ends_consequence (complete_ends _ _)
    rw [finishUndo_places]
    rintro disk ⟨fs, hs, hc⟩
    exact settled_committed hre hne hs hc

/-- An item with which nothing happened, after all. -/
theorem ends_settled {n : M Unit} (hm : Runs R n (fun _ disk => Settled g [] disk.fs) fun _ => False)
    (report : M Unit) (hr : ∀ R, Runs R report (fun _ => R) fun _ => False) (b : Bool) :
    Ends R (do n; report; pure b) g :=
  (runs_bind hm fun _ => runs_bind (hr _) fun _ => runs_pure fun _ h => h).ends

theorem commitRoot_ends (hf : ∃ name, requested = req.targetDir ++ [name]) (root : ScannedRoot)
    (hne : root.path ≠ requested) :
    Ends (fun disk => StagedIn sameDeviceMove req.targetDir root.path t g disk.fs)
      (commitRoot env req sameDeviceMove t requested root) g := by
  apply ends_bind isCancelled_spec
  intro cancelled
  apply ends_ite
  · exact fun _ => ends_settled unstage_spec _ (fun _ => markCancelled_spec) false
  · intro _
    apply ends_attempt_bind (commitStage_spec (fun fs hfs => StagedIn.formed hfs)
      (fun fs fs' hfs => StagedIn.congr hfs) hf req.conflictPolicy)
    · intro result
      rcases result with _ | ⟨final, bak⟩
      · apply ends_consequence (ends_settled unstage_spec _ (fun _ => skipRoot_spec) true)
        rintro disk ⟨fs, hs, hc⟩
        have heq : disk.fs = fs := hc
        rwa [heq]
      · exact ends_pure (finishRoot_ends hf req.operation root hne) true
    · exact fun err => ends_settled unstage_spec _ (fun _ => pushError_spec _) true

theorem transferStaged_ends (hf : ∃ name, requested = req.targetDir ++ [name]) (root : ScannedRoot)
    (hne : root.path ≠ requested) :
    Ends (fun disk => (¬ root.path <+: req.targetDir ∧ WellFormed g ∧ disk.fs = g ∧
        disk.hardLinks = []) ∧ FreeIn req.targetDir disk.fs t)
      (transferStaged env req t requested root) g := by
  apply ends_attempt_bind (symlinkMetadata_spec root.path)
  · intro node
    apply ends_attempt_bind
    · refine runs_consequence (stageRoot_spec (g := g) req.targetDir) ?_
        (fun _ _ h => h) fun _ h => h
      rintro disk ⟨⟨⟨ht, hg, rfl, hl⟩, hfr⟩, hn⟩
      exact ⟨ht, hg, rfl, hl, by rw [hn]; exact nofun, hfr⟩
    · exact fun _ => commitRoot_ends hf root hne
    · intro err
      have hre : ∀ disk : Disk, RemovedFrom (Partial root.path t g) t disk →
          Settled g [] disk.fs := by
        rintro disk ⟨fs, hp, hw⟩
        exact hp.removed hw
      have hr : Runs (RemovedFrom (Partial root.path t g) t)
          (if err.kind = .interrupted then do
              markCancelled
              pure false
            else do
              pushError (.failed root.path err)
              pure true)
          (fun _ disk => Settled g [] disk.fs) fun _ => False := by
        apply runs_ite
        · exact fun _ => runs_bind markCancelled_spec fun _ => runs_pure hre
        · exact fun _ => runs_bind (pushError_spec _) fun _ => runs_pure hre
      apply Runs.ends
      apply runs_attempt_bind (removePath_spec fun fs hfs => hfs.within.formed)
      · exact fun _ => runs_consequence hr (fun _ h => h.1) (fun _ _ h => h) fun _ h => h
      · exact fun _ => hr
  · intro err
    apply Runs.ends
    apply runs_bind (pushError_spec _)
    intro _
    apply runs_pure
    rintro disk ⟨⟨-, hg, rfl, -⟩, -⟩
    exact ⟨hg, kept_of_eq fun _ => rfl⟩

end FocalDesk.Transfer
