import FocalDesk.Transfer.Outcome

/-! What each record of a transfer stands for: how the files differ from what they were before. -/
namespace FocalDesk.Transfer
open Library Archive List

variable {fs fs' g mid cleared committed : FileSystem} {x t d b p q folder : Path}
  {name stageName backupName : Name}

/-- The same files at the same paths. -/
structure Same (g fs : FileSystem) : Prop where
  formed : WellFormed fs
  lookup : ∀ q, getKey q fs = getKey q g

theorem Same.refl (h : WellFormed g) : Same g g := ⟨h, fun _ => rfl⟩

theorem Same.trans (h : Same g mid) (h' : Same mid fs) : Same g fs :=
  ⟨h'.formed, fun q => (h'.lookup q).trans (h.lookup q)⟩

/-- Something new is under a path. -/
structure Added (d : Path) (g fs : FileSystem) : Prop where
  absent : getKey d g = none
  within : Within d g fs

/-- What was under a path is at its backup, and something else has come. -/
structure Replaced (d b : Path) (g fs : FileSystem) : Prop where
  formed : WellFormed fs
  before : WellFormed g
  beside : b.dropLast = d.dropLast
  apart : ¬ d <+: b
  present : getKey d g ≠ none
  placed : getKey d fs ≠ none
  free : getKey b g = none
  backup : ∀ s, getKey (b ++ s) fs = getKey (d ++ s) g
  other : ∀ q, ¬ d <+: q → ¬ b <+: q → getKey q fs = getKey q g

/-- It has come from another path. -/
structure ReplacedBy (x d b : Path) (g fs : FileSystem) : Prop where
  formed : WellFormed fs
  before : WellFormed g
  apart : ¬ d <+: b
  source : getKey x g ≠ none
  present : getKey d g ≠ none
  free : getKey b g = none
  above : ¬ d <+: x
  below : ¬ x <+: d
  aside : ¬ x <+: b
  moved : ∀ s, getKey (d ++ s) fs = getKey (x ++ s) g
  backup : ∀ s, getKey (b ++ s) fs = getKey (d ++ s) g
  other : ∀ q, ¬ d <+: q → ¬ b <+: q → getKey q fs = if x <+: q then none else getKey q g

/-! The same files are as different. -/

theorem Added.congr (h : Added d g fs) (hs : Same fs fs') : Added d g fs' :=
  ⟨h.absent, hs.formed, fun q hq => (hs.lookup q).trans (h.within.other q hq)⟩

theorem Moved.congr_same (h : Moved x d g fs) (hs : Same fs fs') : Moved x d g fs' :=
  { h with
    formed := hs.formed
    under := fun s => (hs.lookup _).trans (h.under s)
    other := fun q hq => (hs.lookup q).trans (h.other q hq) }

theorem Replaced.congr (h : Replaced d b g fs) (hs : Same fs fs') : Replaced d b g fs' :=
  { h with
    formed := hs.formed
    placed := by rw [hs.lookup]; exact h.placed
    backup := fun s => (hs.lookup _).trans (h.backup s)
    other := fun q hd hb => (hs.lookup q).trans (h.other q hd hb) }

theorem ReplacedBy.congr (h : ReplacedBy x d b g fs) (hs : Same fs fs') :
    ReplacedBy x d b g fs' :=
  { h with
    formed := hs.formed
    moved := fun s => (hs.lookup _).trans (h.moved s)
    backup := fun s => (hs.lookup _).trans (h.backup s)
    other := fun q hd hb => (hs.lookup q).trans (h.other q hd hb) }

/-! Names of one folder. -/

theorem beside_apart (h : name ≠ stageName) (s : Path) :
    ¬ p ++ [name] <+: p ++ [stageName] ++ s := by
  rintro ⟨rest, hr⟩
  have hc : name :: rest = stageName :: s := by simpa using hr
  exact h (cons.inj hc).1

theorem name_ne_of_path_ne (h : p ++ [name] ≠ p ++ [stageName]) : name ≠ stageName := by
  rintro rfl
  exact h rfl

/-! Without a backup. -/

theorem Copied.added (h : Copied x t g mid) (hc : Moved t d mid fs) : Added d g fs := by
  refine ⟨?_, hc.formed, ?_⟩
  · rw [← h.within.other d hc.apart]
    exact hc.absent
  · intro q hq
    rw [hc.other q hq]
    by_cases ht : t <+: q
    · rw [if_pos ht, absent_under h.formed h.absent ht]
    · rw [if_neg ht, h.within.other q ht]

/-- By way of the stage. -/
theorem Moved.trans (h : Moved x t g mid) (hc : Moved t d mid fs) (hg : WellFormed g)
    (ha : ¬ x <+: d) : Moved x d g fs := by
  refine ⟨h.source, ?_, ha, hc.formed, ?_, ?_⟩
  · have hd := hc.absent
    rwa [h.other d hc.apart, if_neg ha] at hd
  · intro s
    rw [hc.under, h.under]
  · intro q hq
    rw [hc.other q hq]
    by_cases ht : t <+: q
    · rw [if_pos ht, absent_under hg h.absent ht]
      simp
    · rw [if_neg ht, h.other q ht]

/-- A copy whose source is gone was a move. -/
theorem Copied.moved (h : Copied x t g mid) (hc : Moved t d mid committed)
    (hr : Within x committed fs) (hg : getKey x fs = none) (hap : ¬ x <+: d) :
    Moved x d g fs := by
  have ha := h.added hc
  have hab : ¬ d <+: x := free_apart h.formed h.source ha.absent
  refine ⟨h.source, ha.absent, hap, hr.formed, ?_, ?_⟩
  · intro s
    rw [hr.other _ (not_under_append hap hab), hc.under, h.mirrors]
  · intro q hq
    by_cases hx : x <+: q
    · rw [if_pos hx, absent_under hr.formed hg hx]
    · rw [if_neg hx, hr.other q hx, ha.within.other q hq]

/-! With a backup. -/

/-- Where the three names of a replacement are. -/
structure Siblings (folder d t b : Path) : Prop where
  destination : ∃ name, d = folder ++ [name]
  stage : ∃ name, t = folder ++ [name]
  backup : ∃ name, b = folder ++ [name]
  stage_ne : t ≠ d
  backup_ne : b ≠ d
  ne : t ≠ b

namespace Siblings

variable (h : Siblings folder d t b)
include h

theorem parent : b.dropLast = d.dropLast := by
  obtain ⟨name, rfl⟩ := h.destination
  obtain ⟨other, rfl⟩ := h.backup
  rw [dropLast_concat, dropLast_concat]

variable (s : Path)

theorem destination_stage : ¬ d <+: t ++ s := by
  obtain ⟨name, rfl⟩ := h.destination
  obtain ⟨other, rfl⟩ := h.stage
  exact beside_apart (name_ne_of_path_ne h.stage_ne.symm) s

theorem destination_backup : ¬ d <+: b ++ s := by
  obtain ⟨name, rfl⟩ := h.destination
  obtain ⟨other, rfl⟩ := h.backup
  exact beside_apart (name_ne_of_path_ne h.backup_ne.symm) s

theorem stage_destination : ¬ t <+: d ++ s := by
  obtain ⟨name, rfl⟩ := h.destination
  obtain ⟨other, rfl⟩ := h.stage
  exact beside_apart (name_ne_of_path_ne h.stage_ne) s

theorem stage_backup : ¬ t <+: b ++ s := by
  obtain ⟨name, rfl⟩ := h.stage
  obtain ⟨other, rfl⟩ := h.backup
  exact beside_apart (name_ne_of_path_ne h.ne) s

theorem backup_stage : ¬ b <+: t ++ s := by
  obtain ⟨name, rfl⟩ := h.stage
  obtain ⟨other, rfl⟩ := h.backup
  exact beside_apart (name_ne_of_path_ne h.ne.symm) s

end Siblings

/-- The stage comes to a destination that was put aside. -/
structure Swapped (t d b : Path) (mid fs : FileSystem) : Prop where
  formed : WellFormed fs
  staged : ∀ s, getKey (d ++ s) fs = getKey (t ++ s) mid
  backup : ∀ s, getKey (b ++ s) fs = getKey (d ++ s) mid
  other : ∀ q, ¬ d <+: q → ¬ b <+: q → getKey q fs = if t <+: q then none else getKey q mid

theorem Siblings.swapped (h : Siblings folder d t b) (ha : Moved d b mid cleared)
    (hc : Moved t d cleared fs) : Swapped t d b mid fs := by
  refine ⟨hc.formed, ?_, ?_, ?_⟩
  · intro s
    rw [hc.under, ha.other _ (h.backup_stage s), if_neg (h.destination_stage s)]
  · intro s
    rw [hc.other _ (h.destination_backup s), if_neg (h.stage_backup s), ha.under]
  · intro q hd hb
    rw [hc.other q hd, ha.other q hb, if_neg hd]

theorem Copied.replaced (h : Copied x t g mid) (hn : Siblings folder d t b)
    (ha : Moved d b mid cleared) (hc : Moved t d cleared fs) : Replaced d b g fs := by
  have hs := hn.swapped ha hc
  have htd := hn.stage_destination []
  have htb := hn.stage_backup []
  have hdb := hn.destination_backup []
  rw [append_nil] at htd htb hdb
  refine ⟨hc.formed, h.formed, hn.parent, hdb, ?_, ?_, ?_, ?_, ?_⟩
  · rw [← h.within.other d htd]
    exact ha.source
  · have hp := hs.staged []
    rw [append_nil, append_nil] at hp
    rw [hp]
    exact h.placed
  · rw [← h.within.other b htb]
    exact ha.absent
  · intro s
    rw [hs.backup, h.within.other _ (hn.stage_destination s)]
  · intro q hd hb
    rw [hs.other q hd hb]
    by_cases ht : t <+: q
    · rw [if_pos ht, absent_under h.formed h.absent ht]
    · rw [if_neg ht, h.within.other q ht]

/-- A move on one device. The destination is not above the source. -/
theorem Moved.replacedBy (h : Moved x t g mid) (hg : WellFormed g) (hn : Siblings folder d t b)
    (ha : Moved d b mid cleared) (hc : Moved t d cleared fs) (hab : ¬ d <+: x) (hbe : ¬ x <+: d)
    (hxb : ¬ x <+: b) : ReplacedBy x d b g fs := by
  have hs := hn.swapped ha hc
  have htd := hn.stage_destination []
  have htb := hn.stage_backup []
  have hdb := hn.destination_backup []
  rw [append_nil] at htd htb hdb
  refine ⟨hc.formed, hg, hdb, h.source, ?_, ?_, hab, hbe, hxb, ?_, ?_, ?_⟩
  · have hsr := ha.source
    rwa [h.other d htd, if_neg hbe] at hsr
  · have has := ha.absent
    rwa [h.other b htb, if_neg hxb] at has
  · intro s
    rw [hs.staged, h.under]
  · intro s
    rw [hs.backup, h.other _ (hn.stage_destination s), if_neg (not_under_append hbe hab)]
  · intro q hd hb
    rw [hs.other q hd hb]
    by_cases ht : t <+: q
    · rw [if_pos ht, absent_under hg h.absent ht]
      simp
    · rw [if_neg ht, h.other q ht]

/-- A copy whose source is gone. -/
theorem Copied.replacedBy (h : Copied x t g mid) (hn : Siblings folder d t b)
    (ha : Moved d b mid cleared) (hc : Moved t d cleared committed) (hre : Within x committed fs)
    (hg : getKey x fs = none) (hab : ¬ d <+: x) (hbe : ¬ x <+: d) (hxb : ¬ x <+: b)
    : ReplacedBy x d b g fs := by
  have hs := hn.swapped ha hc
  have hr := h.replaced hn ha hc
  have hbx : ¬ b <+: x := free_apart h.formed h.source hr.free
  refine ⟨hre.formed, h.formed, hr.apart, h.source, hr.present, hr.free, hab, hbe, hxb, ?_, ?_, ?_⟩
  · intro s
    rw [hre.other _ (not_under_append hbe hab), hs.staged, h.mirrors]
  · intro s
    rw [hre.other _ (not_under_append hxb hbx), hr.backup]
  · intro q hd hb
    by_cases hx : x <+: q
    · rw [if_pos hx, absent_under hre.formed hg hx]
    · rw [if_neg hx, hre.other q hx, hr.other q hd hb]

end FocalDesk.Transfer
