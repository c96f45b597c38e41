import FocalDesk.Transfer.Places

/-! What is kept by each way a transfer of one item may go. -/
namespace FocalDesk.Transfer
open Library Archive List

variable {fs fs' mid g : FileSystem} {x y t d b p q tgt source dest : Path}
  {data : List UInt8} {node : Node} {places places' : List Path}

/-- Only what is under a path was changed. -/
structure Within (p : Path) (g fs : FileSystem) : Prop where
  formed : WellFormed fs
  other : ∀ q, ¬ p <+: q → getKey q fs = getKey q g

theorem Within.refl (h : WellFormed g) : Within p g g := ⟨h, fun _ _ => rfl⟩

/-- A path that is there. -/
theorem Within.keeps (h : Within p g fs) (hg : WellFormed g) (ha : getKey p g = none)
    (hq : getKey q g ≠ none) : getKey q fs = getKey q g :=
  h.other q fun hu => hq (absent_under hg ha hu)

theorem Within.put (h : Within p g fs) (hn : getKey q fs = none)
    (hp : getKey q.dropLast fs = some .dir) (hu : p <+: q) (node : Node) :
    Within p g (putKey q node fs) := by
  have hq : q ≠ [] := by
    rintro rfl
    rw [dropLast_nil, hn] at hp
    cases hp
  have hl : q.dropLast ++ [q.getLast hq] = q := dropLast_append_getLast hq
  refine ⟨?_, ?_⟩
  · rw [← hl] at hn ⊢
    exact h.formed.put_new hp hn node
  · intro r hr
    have hne : r ≠ q := by
      rintro rfl
      exact hr hu
    rw [getKey_putKey_of_ne hne]
    exact h.other r hr

theorem Within.write (h : Within p g fs) {old : List UInt8} (hold : getKey q fs = some (.file old))
    (hu : p <+: q) (data : List UInt8) : Within p g (putKey q (.file data) fs) := by
  refine ⟨h.formed.put_file hold, ?_⟩
  intro r hr
  have hne : r ≠ q := by
    rintro rfl
    exact hr hu
  rw [getKey_putKey_of_ne hne]
  exact h.other r hr

/-- A path without anything below it is removed. -/
theorem Within.remove (h : Within p g fs) (hc : hasChildren fs q = false) (hu : p <+: q)
    : Within p g (removeKey q fs) := by
  refine ⟨?_, ?_⟩
  · intro r name node hn
    have hne : r ++ [name] ≠ q := by
      intro heq
      rw [heq, getKey_removeKey_self] at hn
      cases hn
    rw [getKey_removeKey_of_ne hne] at hn
    have hr : r ≠ q := by
      rintro rfl
      have hm := any_eq_false.mp hc _ (mem_of_lookup hn)
      simp at hm
    rw [getKey_removeKey_of_ne hr]
    exact h.formed r name node hn
  · intro r hr
    have hne : r ≠ q := by
      rintro rfl
      exact hr hu
    rw [getKey_removeKey_of_ne hne]
    exact h.other r hr

/-! Contents. -/

theorem Kept.trans (h : Kept g mid places) (h' : Kept mid fs places') :
    Kept g fs (places ++ places') := by
  intro p data hp
  obtain ⟨q, hq, hpl⟩ := h p data hp
  obtain ⟨r, hr, rfl | ⟨place, hm, hu⟩⟩ := h' q data hq
  · refine ⟨r, hr, hpl.imp_right ?_⟩
    rintro ⟨place, hm, hu⟩
    exact ⟨place, mem_append_left _ hm, hu⟩
  · exact ⟨r, hr, .inr ⟨place, mem_append_right _ hm, hu⟩⟩

theorem kept_of_eq (h : ∀ q, getKey q fs = getKey q g) : Kept g fs places :=
  fun p _ hp => ⟨p, (h p).trans hp, .inl rfl⟩

/-- Only something new was changed. -/
theorem Within.kept (h : Within p g fs) (hg : WellFormed g) (ha : getKey p g = none) :
    Kept g fs places := by
  intro q data hq
  have ht : getKey q g ≠ none := by
    rw [hq]
    exact nofun
  exact ⟨q, (h.keeps hg ha ht).trans hq, .inl rfl⟩

/-- There and back. -/
theorem Moved.back (h : Moved x y g fs) (h' : Moved y x fs fs') (hg : WellFormed g) (q : Path) :
    getKey q fs' = getKey q g := by
  by_cases hx : x <+: q
  · obtain ⟨s, rfl⟩ := hx
    rw [h'.under, h.under]
  · rw [h'.other q hx]
    by_cases hy : y <+: q
    · rw [if_pos hy, absent_under hg h.absent hy]
    · rw [if_neg hy, h.other q hy, if_neg hx]

theorem relocate_or (x y q : Path) : relocate x y q = q ∨ y <+: relocate x y q := by
  by_cases hx : x <+: q
  · obtain ⟨s, rfl⟩ := hx
    exact .inr (relocate_append x y s ▸ prefix_append y s)
  · exact .inl (relocate_of_not hx)

/-! A move on one device. -/

theorem kept_moved (h : Moved x t g mid) (h' : Moved t d mid fs) (hg : WellFormed g) :
    Kept g fs [d] := by
  intro q data hq
  refine ⟨relocate t d (relocate x t q), h'.holds h.formed (h.holds hg hq), ?_⟩
  rcases relocate_or x t q with heq | ⟨s, hs⟩
  · rw [heq]
    exact (relocate_or t d q).imp_right fun hu => ⟨d, mem_singleton_self d, hu⟩
  · rw [← hs, relocate_append]
    exact .inr ⟨d, mem_singleton_self d, prefix_append d s⟩

variable {name : Name}

/-- Two names in one folder are the same or lead apart. -/
theorem beside_eq {name' : Name} (h : p ++ [name] <+: p ++ [name']) : name = name' := by
  have hs := h.eq_of_length (by simp)
  simpa using hs

/-- What was in the way goes to the backup. -/
theorem kept_replaced {staged replaced : FileSystem} {stageName : Name}
    (hd : d = tgt ++ [name]) (ht : t = tgt ++ [stageName]) (hst : Moved x t g staged)
    (hb : Moved d b staged replaced) (hc : Moved t d replaced fs) (hg : WellFormed g) :
    Kept g fs [d, b] := by
  have ha : ¬ d <+: t := by
    intro hu
    rw [hd, ht] at hu
    have hsa : d = t := by rw [hd, ht, beside_eq hu]
    exact hc.apart (hsa ▸ prefix_refl _)
  intro q data hq
  refine ⟨relocate t d (relocate d b (relocate x t q)),
    hc.holds hb.formed (hb.holds hst.formed (hst.holds hg hq)), ?_⟩
  have hl : ∀ r, r = q ∨ b <+: r → relocate t d r = q ∨
      ∃ place ∈ [d, b], place <+: relocate t d r := by
    intro r hr
    rcases relocate_or t d r with heq | hu
    · rw [heq]
      exact hr.imp_right fun hu => ⟨b, by simp, hu⟩
    · exact .inr ⟨d, by simp, hu⟩
  rcases relocate_or x t q with heq | ⟨s, hs⟩
  · rw [heq]
    exact hl _ (relocate_or d b q)
  · rw [← hs]
    by_cases hu : d <+: t ++ s
    · rcases under_append hu with hdt | htd
      · exact absurd hdt ha
      · exact absurd htd hc.apart
    · rw [relocate_of_not hu, relocate_append]
      exact .inr ⟨d, by simp, prefix_append d s⟩

/-! A copy, after which the source may be removed. -/

/-- What is under a path is what another file system has under its source. -/
def Mirrored (g : FileSystem) (source destination : Path) (fs : FileSystem) : Prop :=
  ∀ s, getKey (destination ++ s) fs = getKey (source ++ s) g

theorem mirrored_leaf (hg : WellFormed g) (hfs : WellFormed fs) (hn : getKey source g = some node)
    (hc : getKey dest fs = some node) (hd : node ≠ .dir) :
    Mirrored g source dest fs := by
  intro s
  by_cases hs : s = []
  · rw [hs, append_nil, append_nil, hn, hc]
  · rw [absent_below_leaf hg hn hd hs, absent_below_leaf hfs hc hd hs]

/-- A folder with copies of some of the entries of its source. -/
structure Children (g fs : FileSystem) (source destination : Path) (done : List Path)
    (fs' : FileSystem) : Prop where
  here : getKey destination fs' = some .dir
  outside : ∀ q, ¬ destination <+: q → getKey q fs' = getKey q fs
  mirrors : ∀ name, source ++ [name] ∈ done →
    Mirrored g (source ++ [name]) (destination ++ [name]) fs'
  missing : ∀ name, source ++ [name] ∉ done → getKey (destination ++ [name]) fs' = none

theorem Children.start (hfs : WellFormed fs) (hn : getKey dest fs = none)
    (hh : getKey dest fs' = some .dir)
    (ho : ∀ q, q ≠ dest → getKey q fs' = getKey q fs) :
    Children g fs source dest [] fs' where
  here := hh
  outside := by
    intro q hq
    apply ho
    rintro rfl
    exact hq (prefix_refl q)
  mirrors _ hname := absurd hname not_mem_nil
  missing name _ := by
    rw [ho _ (by simp)]
    exact absent_append hfs hn [name]

theorem Children.step {done : List Path} (h : Children g fs source dest done mid)
    (hou : ∀ q, ¬ dest ++ [name] <+: q → getKey q fs' = getKey q mid)
    (hm : Mirrored g (source ++ [name]) (dest ++ [name]) fs') :
    Children g fs source dest (done ++ [source ++ [name]]) fs' := by
  have ha : ∀ other, other ≠ name → ∀ s,
      ¬ dest ++ [name] <+: dest ++ [other] ++ s := by
    rintro other ho s ⟨rest, hr⟩
    have hc : name :: rest = other :: s := by simpa using hr
    exact ho (cons.inj hc).1.symm
  refine ⟨?_, ?_, ?_, ?_⟩
  · rw [hou _ fun hu => by simpa using hu.length_le]
    exact h.here
  · intro q hq
    rw [hou q fun hu => hq ((prefix_append _ _).trans hu)]
    exact h.outside q hq
  · intro other ho
    by_cases hs : other = name
    · rw [hs]
      exact hm
    · have hd : source ++ [other] ∈ done := by simpa [hs] using ho
      intro s
      exact (hou _ (ha other hs s)).trans (h.mirrors other hd s)
  · intro other ho
    rw [mem_append, not_or] at ho
    have hs : other ≠ name := by
      rintro rfl
      exact ho.2 (mem_singleton_self _)
    have hot := hou _ (ha other hs [])
    rw [append_nil] at hot
    exact hot.trans (h.missing other ho.1)

/-- All of the entries are there, so the folder is. -/
theorem Children.mirrored {done : List Path} (h : Children g fs source dest done fs')
    (hg : WellFormed g) (hfs' : WellFormed fs') (hn : getKey source g = some .dir)
    (hd : ∀ name, getKey (source ++ [name]) g ≠ none → source ++ [name] ∈ done) :
    Mirrored g source dest fs' := by
  intro s
  rcases s with _ | ⟨name, s⟩
  · rw [append_nil, append_nil, hn, h.here]
  · have hs : ∀ p : Path, p ++ name :: s = p ++ [name] ++ s := by simp
    rw [hs, hs]
    by_cases hm : source ++ [name] ∈ done
    · exact h.mirrors name hm s
    · have ht : getKey (source ++ [name]) g = none := by
        by_contra ht
        exact hm (hd name ht)
      rw [absent_append hg ht, absent_append hfs' (h.missing name hm)]

/-- Everything under a path was copied. -/
structure Copied (x y : Path) (g fs : FileSystem) : Prop where
  formed : WellFormed g
  source : getKey x g ≠ none
  absent : getKey y g = none
  within : Within y g fs
  placed : getKey y fs ≠ none
  mirrors : Mirrored g x y fs

theorem Copied.copies (h : Copied x y g fs) (s : Path) (data : List UInt8)
    (hd : Holds g (x ++ s) data) : Holds fs (y ++ s) data := (h.mirrors s).trans hd

theorem Copied.source_eq (h : Copied x y g fs) : getKey x fs = getKey x g :=
  h.within.keeps h.formed h.absent h.source

theorem Copied.holds (h : Copied x y g fs) (hq : Holds g q data) : Holds fs q data := by
  have ht : getKey q g ≠ none := by
    rw [hq]
    exact nofun
  exact (h.within.keeps h.formed h.absent ht).trans hq

/-- A path that is not there and not below the source is apart from it. -/
theorem free_apart (hfs : WellFormed fs) (hs : getKey x fs ≠ none) (hy : getKey y fs = none) :
    ¬ y <+: x := fun hu => hs (absent_under hfs hy hu)

/-- Something that is new in the target is not below the source. -/
theorem free_not_under (hy : y = tgt ++ [name]) (hs : getKey x fs ≠ none) (ha : getKey y fs = none)
    (ht : ¬ x <+: tgt) : ¬ x <+: y := by
  intro hu
  rw [hy] at hu
  rcases prefix_concat_iff.mp hu with heq | hle
  · rw [← hy] at heq
    exact hs (heq ▸ ha)
  · exact ht hle

theorem not_under_append {s : Path} (h : ¬ x <+: y) (h' : ¬ y <+: x) : ¬ x <+: y ++ s :=
  fun hu => (under_append hu).elim h h'

theorem kept_created {committed : FileSystem} (hd : d = tgt ++ [name]) (hta : ¬ x <+: tgt)
    (hc : Copied x t g mid) (hco : Moved t d mid committed) (hr : Within x committed fs)
    : Kept g fs [d] := by
  have hs : getKey x mid ≠ none := by
    rw [hc.source_eq]
    exact hc.source
  have hu := free_not_under hd hs hco.absent hta
  have ha := free_apart hc.within.formed hs hco.absent
  intro q data hq
  by_cases hx : x <+: q
  · obtain ⟨s, rfl⟩ := hx
    refine ⟨d ++ s, ?_, .inr ⟨d, by simp, prefix_append d s⟩⟩
    have hm := hco.holds hc.within.formed (hc.copies s data hq)
    rw [relocate_append] at hm
    exact (hr.other _ (not_under_append hu ha)).trans hm
  · have hm := hco.holds hc.within.formed (hc.holds hq)
    have ht : ¬ t <+: q := by
      intro ht
      have hn := absent_under hc.formed hc.absent ht
      rw [Holds, hn] at hq
      cases hq
    rw [relocate_of_not ht] at hm
    exact ⟨q, (hr.other q hx).trans hm, .inl rfl⟩

theorem kept_replacedCopy {stageName backupName : Name} {replaced committed : FileSystem}
    (hd : d = tgt ++ [name]) (ht : t = tgt ++ [stageName]) (hb : b = tgt ++ [backupName])
    (hta : ¬ x <+: tgt) (hne : x ≠ d) (hc : Copied x t g mid)
    (hba : Moved d b mid replaced) (hco : Moved t d replaced committed)
    (hr : Within x committed fs) : Kept g fs [d, b] := by
  have hsr : getKey x mid ≠ none := by
    rw [hc.source_eq]
    exact hc.source
  have hxb := free_not_under hb hsr hba.absent hta
  have hbx := free_apart hc.within.formed hsr hba.absent
  have hxd : ¬ x <+: d := by
    intro hu
    rw [hd] at hu
    rcases prefix_concat_iff.mp hu with heq | hle
    · exact hne (heq.trans hd.symm)
    · exact hta hle
  have hdt : ¬ d <+: t := by
    intro hu
    rw [hd, ht] at hu
    have hs : d = t := by rw [hd, ht, beside_eq hu]
    exact hco.apart (hs ▸ prefix_refl _)
  have htb : ¬ t <+: b := by
    intro hu
    rw [ht, hb] at hu
    have hs : t = b := by rw [ht, hb, beside_eq hu]
    exact hc.placed (hs ▸ hba.absent)
  have hbt : ¬ b <+: t := free_apart hc.within.formed hc.placed hba.absent
  intro q data hq
  have hmi := hc.holds hq
  have htq : ¬ t <+: q := by
    intro htq
    have hn := absent_under hc.formed hc.absent htq
    rw [Holds, hn] at hq
    cases hq
  by_cases hdq : d <+: q
  · -- What was at the destination is in the backup, also if it is the source.
    obtain ⟨s, rfl⟩ := hdq
    have hm := hba.holds hc.within.formed hmi
    rw [relocate_append] at hm
    have hf := hco.holds hba.formed hm
    rw [relocate_of_not (not_under_append htb hbt)] at hf
    refine ⟨b ++ s, ?_, .inr ⟨b, by simp, prefix_append b s⟩⟩
    exact (hr.other _ (not_under_append hxb hbx)).trans hf
  · by_cases hx : x <+: q
    · obtain ⟨s, rfl⟩ := hx
      have hdx : ¬ d <+: x := fun hdx => hdq (hdx.trans (prefix_append x s))
      have hm := hba.holds hc.within.formed (hc.copies s data hq)
      rw [relocate_of_not (not_under_append hdt hco.apart)] at hm
      have hf := hco.holds hba.formed hm
      rw [relocate_append] at hf
      refine ⟨d ++ s, ?_, .inr ⟨d, by simp, prefix_append d s⟩⟩
      exact (hr.other _ (not_under_append hxd hdx)).trans hf
    · have hm := hba.holds hc.within.formed hmi
      rw [relocate_of_not hdq] at hm
      have hf := hco.holds hba.formed hm
      rw [relocate_of_not htq] at hf
      exact ⟨q, (hr.other q hx).trans hf, .inl rfl⟩

end FocalDesk.Transfer
