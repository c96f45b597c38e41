import FocalDesk.Transfer.Calls

/-! A copy has everything that is under its source, and changes nothing else. -/
namespace FocalDesk.Transfer
open Library Archive List

variable {fs g : FileSystem} {env : Surroundings} {x t source dest path p q : Path}
  {data wr input : List UInt8} {d d₀ : Disk} {node : Node} {ps : List Path}

/-- What there is while something is copied to a path that was free. -/
structure Partial (x t : Path) (g fs : FileSystem) : Prop where
  formed : WellFormed g
  present : getKey x g ≠ none
  absent : getKey t g = none
  apart : ¬ x <+: t
  within : Within t g fs

/-- And the links to copies lead to their data. -/
structure Copying (x t : Path) (g : FileSystem) (d : Disk) : Prop extends Partial x t g d.fs where
  links : ∀ key path, getKey key d.hardLinks = some path → Holds d.fs path key.2

theorem Partial.not_under (h : Partial x t g fs) (hq : x <+: q) : ¬ t <+: q := by
  obtain ⟨s, rfl⟩ := hq
  exact not_under_append (free_apart h.formed h.present h.absent) h.apart

/-- The source is what it was. -/
theorem Partial.lookup (h : Partial x t g fs) (hq : x <+: q) : getKey q fs = getKey q g :=
  h.within.other q (h.not_under hq)

theorem create_spec (path : Path) (node : Node) (d₀ : Disk) :
    Runs (fun d => d = d₀) (create path node)
      (fun _ d => (getKey path d₀.fs = none ∧ getKey path.dropLast d₀.fs = some .dir) ∧
        d = { d₀ with fs := putKey path node d₀.fs })
      fun d => d = d₀ := by
  apply runs_bind (quiet_systemCall _)
  intro _
  apply runs_get_bind
  intro w
  apply runs_ite
  · exact fun _ => runs_throw fun d hd => hd.2.trans hd.1
  · intro hn
    apply runs_ite
    · exact fun _ => runs_throw fun d hd => hd.2.trans hd.1
    · intro hp
      apply runs_modifyDisk
      rintro d ⟨hw, rfl⟩
      rw [hw] at hn hp
      exact ⟨⟨not_not.mp hn, not_not.mp hp⟩, by rw [hw]⟩

theorem append_spec (path : Path) (c : List UInt8) (d₀ : Disk) :
    Runs (fun d => d = d₀) (append path c)
      (fun _ d => ∃ old, getKey path d₀.fs = some (.file old) ∧
        d = { d₀ with fs := putKey path (.file (old ++ c)) d₀.fs })
      fun d => d = d₀ := by
  apply runs_bind (quiet_systemCall _)
  intro _
  apply runs_get_bind
  intro w
  rcases hn : getKey path w.disk.fs with _ | node
  · exact runs_throw fun d hd => hd.2.trans hd.1
  · rcases node with _ | old | leads | _
    · exact runs_throw fun d hd => hd.2.trans hd.1
    · apply runs_modifyDisk
      rintro d ⟨hw, rfl⟩
      rw [hw] at hn ⊢
      exact ⟨old, hn, rfl⟩
    · exact runs_throw fun d hd => hd.2.trans hd.1
    · exact runs_throw fun d hd => hd.2.trans hd.1

/-- A path is new, and nothing else changed. -/
structure Created (x t : Path) (g fs : FileSystem) (path : Path) (node : Node) (d : Disk) : Prop
    extends Partial x t g d.fs where
  before : WellFormed fs
  new : getKey path fs = none
  here : getKey path d.fs = some node
  others : ∀ q, q ≠ path → getKey q d.fs = getKey q fs
  links : ∀ key path, getKey key d.hardLinks = some path → Holds fs path key.2

theorem Created.holds {other : Path} (h : Created x t g fs path node d) (ho : Holds fs other data)
    : Holds d.fs other data := by
  have hne : other ≠ path := by
    rintro rfl
    rw [Holds, h.new] at ho
    cases ho
  exact (h.others other hne).trans ho

theorem Created.copying (h : Created x t g fs path node d) : Copying x t g d :=
  { h.toPartial with links := fun key other hk => h.holds (h.links key other hk) }

theorem create_copying (hu : t <+: path) (node : Node) (d₀ : Disk) :
    Runs (fun d => Copying x t g d₀ ∧ d = d₀) (create path node)
      (fun _ d => Created x t g d₀.fs path node d) fun d => Partial x t g d.fs := by
  apply runs_consequence (runs_frame (Copying x t g d₀) (create_spec path node d₀))
  · exact fun d hd => hd
  · rintro _ _ ⟨hc, ⟨hn, hp⟩, rfl⟩
    exact { formed := hc.formed, present := hc.present, absent := hc.absent
            apart := hc.apart, within := hc.within.put hn hp hu node
            before := hc.within.formed, new := hn, here := getKey_putKey_self
            others := fun q hq => getKey_putKey_of_ne hq, links := hc.links }
  · rintro _ ⟨hc, rfl⟩
    exact hc.toPartial

theorem append_created (hu : t <+: path) (c : List UInt8) :
    Runs (Created x t g fs path (.file wr)) (append path c)
      (fun _ => Created x t g fs path (.file (wr ++ c))) fun d => Partial x t g d.fs := by
  apply runs_snapshot
  intro d₀
  apply runs_consequence (runs_frame (Created x t g fs path (.file wr) d₀) (append_spec path c d₀))
  · exact fun d hd => hd
  · rintro _ _ ⟨hc, old, hold, rfl⟩
    have heq := hc.here.symm.trans hold
    cases heq
    refine { formed := hc.formed, present := hc.present, absent := hc.absent
             apart := hc.apart, within := hc.within.write hold hu _
             before := hc.before, new := hc.new, here := getKey_putKey_self
             others := ?_
             links := hc.links }
    exact fun q hq => (getKey_putKey_of_ne hq).trans (hc.others q hq)
  · rintro _ ⟨hc, rfl⟩
    exact hc.toPartial

/-- Each round takes a byte at least, so all of the input is written. -/
theorem copyRounds_spec (hu : t <+: path) (fuel : ℕ) (hf : input.length < fuel) :
    Runs (Created x t g fs path (.file wr)) (copyRounds path fuel input)
      (fun _ => Created x t g fs path (.file (wr ++ input))) fun d => Partial x t g d.fs := by
  induction fuel generalizing wr input with
  | zero => exact absurd hf (Nat.not_lt_zero _)
  | succ fuel ih =>
    have hs : ∀ d, Created x t g fs path (.file wr) d → Partial x t g d.fs :=
      fun d hd => hd.toPartial
    apply runs_bind (quiet_checkCancelled.runs hs)
    intro _
    apply runs_bind (quiet_systemCall.runs hs)
    intro _
    apply runs_bind_value (quiet_readSize.runs hs) (fun _ _ _ => readSize_pos)
    intro size hsi
    apply runs_ite
    · rintro rfl
      exact runs_pure fun d hd => (append_nil wr).symm ▸ hd
    · intro hi
      apply runs_bind (append_created hu _)
      intro _
      have hsh : (input.drop size).length < fuel := by
        have hp := length_pos_iff.mpr hi
        rw [length_drop]
        omega
      have hr := @ih (wr ++ input.take size) (input.drop size) hsh
      rwa [append_assoc, take_append_drop] at hr

/-! Whole entries. -/

/-- What is there once an entry was copied, if the files were like this before. -/
structure EntryCopied (x t : Path) (g fs : FileSystem) (source destination : Path) (d : Disk) :
    Prop extends Copying x t g d where
  placed : getKey destination d.fs ≠ none
  outside : ∀ q, ¬ destination <+: q → getKey q d.fs = getKey q fs
  mirrors : Mirrored g source destination d.fs

theorem Created.outside (h : Created x t g fs path node d) (hq : ¬ path <+: q) :
    getKey q d.fs = getKey q fs := by
  apply h.others
  rintro rfl
  exact hq (prefix_refl q)

/-- A file or a link that was created is copied. -/
theorem Created.entryCopied (h : Created x t g fs dest node d)
    (hn : getKey source g = some node) (hd : node ≠ .dir) :
    EntryCopied x t g fs source dest d :=
  { h.copying with
    placed := by rw [h.here]; exact nofun
    outside := fun q hq => h.outside hq
    mirrors := mirrored_leaf h.formed h.within.formed hn h.here hd }

theorem copyFile_spec (hu : t <+: dest) (d₀ : Disk) :
    Runs (fun d => (Copying x t g d₀ ∧ getKey source g = some (.file data)) ∧ d = d₀)
      (copyFile env source dest data)
      (fun _ => EntryCopied x t g d₀.fs source dest) fun d => Partial x t g d.fs := by
  have hsa : ∀ d, (Copying x t g d₀ ∧ getKey source g = some (.file data)) ∧ d = d₀ →
      Partial x t g d.fs := by
    rintro _ ⟨⟨hco, -⟩, rfl⟩
    exact hco.toPartial
  apply runs_bind (quiet_systemCall.runs hsa)
  intro _
  apply runs_bind
  · apply runs_consequence (runs_frame (getKey source g = some (.file data))
      (create_copying hu (.file []) d₀))
    · exact fun d hd => ⟨hd.1.2, hd.1.1, hd.2⟩
    · exact fun _ d hd => hd
    · exact fun d hd => hd.2
  intro _
  apply runs_bind
  · have hr : Runs (Created x t g d₀.fs dest (.file []))
        (copyRounds dest (data.length + 1) data)
        (fun _ => Created x t g d₀.fs dest (.file ([] ++ data)))
        fun d => Partial x t g d.fs :=
      copyRounds_spec hu (data.length + 1) (Nat.lt_succ_self _)
    apply runs_consequence (runs_frame (getKey source g = some (.file data)) hr)
    · exact fun d hd => hd
    · exact fun _ d hd => hd
    · exact fun d hd => hd.2
  intro _
  rw [nil_append]
  have hst : ∀ d, getKey source g = some (.file data) ∧
      Created x t g d₀.fs dest (.file data) d → Partial x t g d.fs :=
    fun d hd => hd.2.toPartial
  apply runs_bind (quiet_systemCall.runs hst)
  intro _
  apply runs_bind (quiet_applyMetadata.runs hst)
  intro _
  rcases env.inode source data with _ | num
  · apply runs_pure
    rintro d ⟨hn, hcr⟩
    exact hcr.entryCopied hn nofun
  · apply runs_modifyDisk
    rintro d ⟨hn, hcr⟩
    have hc := hcr.entryCopied hn nofun
    refine { formed := hc.formed, present := hc.present, absent := hc.absent
             apart := hc.apart, within := hc.within, links := ?_
             placed := hc.placed, outside := hc.outside, mirrors := hc.mirrors }
    intro key other hk
    have hk : getKey key (((num, data), dest) :: d.hardLinks) = some other := hk
    rw [getKey_cons] at hk
    by_cases hs : key = (num, data)
    · rw [if_pos hs] at hk
      cases hk
      rw [hs]
      exact hcr.here
    · rw [if_neg hs] at hk
      exact hc.links key other hk

/-- The copy of a file with more than one link has the file's data. -/
theorem hardLinkOf_spec (source : Path) (data : List UInt8) (d₀ : Disk) :
    Runs (fun d => d = d₀) (hardLinkOf env source data)
      (fun old d => (∀ path, old = some path →
        ∃ num, getKey (num, data) d₀.hardLinks = some path) ∧ d = d₀) (fun d => d = d₀) := by
  apply runs_get_bind
  intro w
  apply runs_pure
  rintro d ⟨hw, rfl⟩
  refine ⟨?_, hw⟩
  intro path hp
  obtain ⟨num, -, hk⟩ := Option.bind_eq_some_iff.mp hp
  exact ⟨num, hw ▸ hk⟩

theorem hardLink_spec (data : List UInt8) (hu : t <+: dest) {old : Path}
    (d₀ : Disk) :
    Runs (fun d => (getKey source g = some (.file data) ∧ Holds d₀.fs old data ∧
        Copying x t g d₀) ∧ d = d₀)
      (hardLink old dest)
      (fun _ => EntryCopied x t g d₀.fs source dest) fun d => Partial x t g d.fs := by
  apply runs_get_bind
  intro w
  have hs : ∀ d, ((getKey source g = some (.file data) ∧ Holds d₀.fs old data ∧
      Copying x t g d₀) ∧ w.disk = d₀) ∧ d = w.disk → Partial x t g d.fs := by
    rintro _ ⟨⟨⟨-, -, hc⟩, hw⟩, rfl⟩
    exact hw ▸ hc.toPartial
  have hm : Runs (fun d => ((getKey source g = some (.file data) ∧
        Holds d₀.fs old data ∧ Copying x t g d₀) ∧ w.disk = d₀) ∧ d = w.disk)
      (systemCall >>= fun _ => throw (missing w.disk.fs old))
      (fun _ : Unit => EntryCopied x t g d₀.fs source dest) fun d => Partial x t g d.fs :=
    runs_bind (quiet_systemCall.runs hs) fun _ => runs_throw hs
  rcases hn : getKey old w.disk.fs with _ | node
  · exact hm
  · rcases node with _ | found | leads | _
    · exact hm
    · apply runs_consequence (runs_frame ((getKey source g = some (.file data) ∧
        Holds d₀.fs old data) ∧ w.disk = d₀) (create_copying hu (.file found) d₀))
      · rintro d ⟨⟨⟨hsr, hh, hc⟩, hw⟩, hd⟩
        exact ⟨⟨⟨hsr, hh⟩, hw⟩, hc, hd.trans hw⟩
      · rintro _ d ⟨⟨⟨hsr, hh⟩, hw⟩, hcr⟩
        rw [hw, hh] at hn
        cases hn
        exact hcr.entryCopied hsr nofun
      · exact fun d hd => hd.2
    · exact hm
    · exact hm

/-- A folder was created, and some of the entries of the source were copied into it. -/
structure ChildrenCopied (x t : Path) (g fs : FileSystem) (source destination : Path)
    (done : List Path) (d : Disk) : Prop extends Copying x t g d,
    Children g fs source destination done d.fs

theorem Created.childrenCopied (h : Created x t g fs dest .dir d) :
    ChildrenCopied x t g fs source dest [] d :=
  ⟨h.copying, Children.start h.before h.new h.here h.others⟩

theorem ChildrenCopied.step {done : List Path} {name : Name}
    (h : ChildrenCopied x t g fs source dest done d₀)
    (he : EntryCopied x t g d₀.fs (source ++ [name]) (dest ++ [name]) d) :
    ChildrenCopied x t g fs source dest (done ++ [source ++ [name]]) d :=
  ⟨he.toCopying, h.toChildren.step he.outside he.mirrors⟩

theorem copyAll_spec {copy : Path → M Unit} (hco : ∀ name d₀,
      Runs (fun d => Copying x t g d₀ ∧ d = d₀) (copy (source ++ [name]))
        (fun _ => EntryCopied x t g d₀.fs (source ++ [name]) (dest ++ [name]))
        fun d => Partial x t g d.fs)
    (ps done : List Path) (hp : ∀ q ∈ ps, ∃ name, q = source ++ [name]) :
    Runs (ChildrenCopied x t g fs source dest done) (copyAll copy ps)
      (fun _ => ChildrenCopied x t g fs source dest (done ++ ps))
      fun d => Partial x t g d.fs := by
  induction ps generalizing done with
  | nil => exact runs_pure fun d hd => (append_nil done).symm ▸ hd
  | cons q ps ih =>
    obtain ⟨name, rfl⟩ := hp q mem_cons_self
    apply runs_bind (Q := fun _ =>
      ChildrenCopied x t g fs source dest (done ++ [source ++ [name]]))
    · apply runs_snapshot
      intro d₀
      apply runs_consequence (runs_frame (ChildrenCopied x t g fs source dest done d₀)
        (hco name d₀))
      · rintro d ⟨hc, rfl⟩
        exact ⟨hc, hc.toCopying, rfl⟩
      · exact fun _ d hd => hd.1.step hd.2
      · exact fun d hd => hd.2
    · intro _
      have hr := ih (done ++ [source ++ [name]]) fun q hq => hp q (mem_cons_of_mem _ hq)
      rwa [append_assoc, singleton_append] at hr

theorem mem_readDir {name : Name} (h : getKey (source ++ [name]) fs = some node) :
    source ++ [name] ∈ readDir fs source := by
  apply mem_mergeSort.mpr
  apply mem_filter.mpr
  refine ⟨mem_dedup.mpr (mem_map.mpr ⟨_, mem_of_lookup h, rfl⟩), ?_⟩
  simp

theorem name_of_mem_readDir (h : q ∈ readDir fs source) : ∃ name, q = source ++ [name] := by
  have hm := (mem_filter.mp (mem_mergeSort.mp h)).2
  obtain ⟨hq, hp⟩ := of_decide_eq_true hm
  exact ⟨q.getLast hq, by rw [← hp, dropLast_append_getLast]⟩

/-- A folder is copied with all of its entries. -/
theorem ChildrenCopied.entryCopied (h : ChildrenCopied x t g fs source dest ps d)
    (hn : getKey source g = some .dir)
    (hpa : ∀ name, getKey (source ++ [name]) g ≠ none → source ++ [name] ∈ ps) :
    EntryCopied x t g fs source dest d := by
  have hp : getKey dest d.fs ≠ none := by
    rw [h.here]
    exact nofun
  exact { h.toCopying with
    placed := hp
    outside := h.outside
    mirrors := h.toChildren.mirrored h.formed h.within.formed hn hpa }

theorem copyEntry_spec (fuel : ℕ) (hsr : x <+: source) (hu : t <+: dest) (d₀ : Disk) :
    Runs (fun d => Copying x t g d₀ ∧ d = d₀) (copyEntry env fuel source dest)
      (fun _ => EntryCopied x t g d₀.fs source dest) fun d => Partial x t g d.fs := by
  induction fuel generalizing source dest d₀ with
  | zero =>
    apply runs_throw
    rintro _ ⟨hc, rfl⟩
    exact hc.toPartial
  | succ fuel ih =>
    have hs : ∀ d, Copying x t g d₀ ∧ d = d₀ → Partial x t g d.fs := by
      rintro _ ⟨hc, rfl⟩
      exact hc.toPartial
    apply runs_bind (quiet_checkCancelled.runs hs)
    intro _
    apply runs_bind (Q := fun node d => (getKey source g = some node ∧ Copying x t g d₀) ∧ d = d₀)
    · apply runs_consequence (symlinkMetadata_spec source) (fun d hd => hd)
      · rintro node _ ⟨⟨hc, rfl⟩, hn⟩
        exact ⟨⟨(hc.lookup hsr).symm.trans hn, hc⟩, rfl⟩
      · exact hs
    intro node
    have hk : ∀ d, (getKey source g = some node ∧ Copying x t g d₀) ∧ d = d₀ →
        Partial x t g d.fs := fun d hd => hs d ⟨hd.1.2, hd.2⟩
    rcases node with _ | data | leads | _
    · apply runs_bind
      · apply runs_consequence (runs_frame (getKey source g = some .dir)
          (create_copying hu .dir d₀))
        · exact fun d hd => ⟨hd.1.1, hd.1.2, hd.2⟩
        · exact fun _ d hd => hd
        · exact fun d hd => hd.2
      intro _
      have hm : ∀ d, getKey source g = some .dir ∧ Created x t g d₀.fs dest .dir d →
          Partial x t g d.fs := fun d hd => hd.2.toPartial
      apply runs_bind (quiet_systemCall.runs hm)
      intro _
      apply runs_get_bind
      intro w
      apply runs_bind
      · have hch : ∀ name d₁, Runs (fun d => Copying x t g d₁ ∧ d = d₁)
            (copyEntry env fuel (source ++ [name])
              (dest ++ [(source ++ [name]).getLastD []]))
            (fun _ => EntryCopied x t g d₁.fs (source ++ [name]) (dest ++ [name]))
            fun d => Partial x t g d.fs := by
          intro name d₁
          have hna : (source ++ [name]).getLastD [] = name := by simp
          rw [hna]
          exact ih (hsr.trans (prefix_append _ _)) (hu.trans (prefix_append _ _)) d₁
        apply runs_consequence (runs_frame (getKey source g = some .dir ∧
            Created x t g d₀.fs dest .dir w.disk)
          (copyAll_spec hch (readDir w.disk.fs source) [] fun q => name_of_mem_readDir))
        · rintro _ ⟨hf, rfl⟩
          exact ⟨hf, hf.2.childrenCopied⟩
        · exact fun _ d hd => hd
        · exact fun d hd => hd.2
      intro _
      rw [nil_append]
      have hdo : ∀ d, (getKey source g = some .dir ∧
            Created x t g d₀.fs dest .dir w.disk) ∧
          ChildrenCopied x t g d₀.fs source dest (readDir w.disk.fs source) d →
            Partial x t g d.fs := fun d hd => hd.2.toPartial
      apply runs_bind (quiet_systemCall.runs hdo)
      intro _
      apply runs_consequence (quiet_applyMetadata.runs hdo) (fun d hd => hd)
      · rintro _ d ⟨⟨hn, hcr⟩, hci⟩
        apply hci.entryCopied hn
        intro name ht
        rw [← hcr.lookup (hsr.trans (prefix_append _ _))] at ht
        obtain ⟨child, hch⟩ := Option.ne_none_iff_exists'.mp ht
        exact mem_readDir hch
      · exact fun d hd => hd
    · apply runs_bind
      · apply runs_consequence (runs_frame (getKey source g = some (.file data) ∧ Copying x t g d₀)
          (hardLinkOf_spec source data d₀))
        · exact fun d hd => hd
        · exact fun _ d hd => hd
        · exact hk
      intro old
      rcases old with _ | old
      · apply runs_consequence (copyFile_spec hu d₀)
        · rintro d ⟨⟨hn, hc⟩, -, hd⟩
          exact ⟨⟨hc, hn⟩, hd⟩
        · exact fun _ d hd => hd
        · exact fun d hd => hd
      · apply runs_consequence (hardLink_spec data hu d₀)
        · rintro d ⟨⟨hn, hc⟩, hfo, hd⟩
          obtain ⟨num, hke⟩ := hfo old rfl
          exact ⟨⟨hn, hc.links _ _ hke, hc⟩, hd⟩
        · exact fun _ d hd => hd
        · exact fun d hd => hd
    · apply runs_bind (quiet_systemCall.runs hk)
      intro _
      apply runs_consequence (runs_frame (getKey source g = some (.link leads))
        (create_copying hu (.link leads) d₀))
      · exact fun d hd => ⟨hd.1.1, hd.1.2, hd.2⟩
      · exact fun _ d hd => hd.2.entryCopied hd.1 nofun
      · exact fun d hd => hd.2
    · exact runs_throw hk

end FocalDesk.Transfer
