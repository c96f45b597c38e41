import FocalDesk.Archive.Steps

/-! Where an extraction creates, and what is left of it if it fails. -/
namespace FocalDesk.Archive
open Library List Nat

variable {α : Type} {before : FileSystem} {destination dest p : Path} {c : Counts} {Q : α → World → Prop}
  {E : World → Prop} {m : M α}

/-! Entries. -/

/-- So many entries and bytes at most. -/
def Tally (entries limit : ℕ) (c : Counts) : Prop :=
  c.written ≤ c.bytes ∧ c.bytes ≤ limit ∧ c.entries ≤ entries

def Tallied (before : FileSystem) (destination : Path) (entries limit : ℕ) (w : World) : Prop :=
  ∃ c, At before destination c w ∧ Tally entries limit c

variable {ents lim : ℕ}

theorem Quiet.tallied (hm : Quiet m) :
    Triple (Tallied before dest ents lim) m
      (fun _ => Tallied before dest ents lim) (Stopped before dest) := by
  apply triple_exists
  intro c hc
  exact triple_consequence hm.at (fun _ h => h) (fun _ _ h => ⟨c, h, hc⟩) fun _ h => h

theorem liftExcept_eq_ok {res : Except IoError α} {a : α} {w after : World}
    (h : (liftExcept res : M α) w = .ok a after) : res = .ok a := by
  cases res with
  | ok b =>
    cases h
    rfl
  | error error => cases h

theorem Tally.written (h : Tally ents lim c) {size bound : ℕ}
    (hb : c.bytes + size ≤ bound) :
    Tally ents bound { c with written := c.written + size, bytes := c.bytes + size } :=
  ⟨Nat.add_le_add_right h.1 size, hb, h.2.2⟩

theorem extractTarOutput_spec {relative : Path} (hr : relative ≠ []) (flag : UInt8) (size : ℕ) :
    Triple (Tallied before dest ents lim)
      (extractTarOutput dest lim flag relative size)
      (fun _ => Tallied before dest ents lim) (Stopped before dest) := by
  apply triple_exists
  intro c hc
  apply triple_ite
  · intro _
    by_cases hl : c.bytes + size ≤ lim
    · apply triple_bind (triple_consequence (addBytes_spec size lim _) (fun _ h => h)
        (fun _ _ h => h.1) fun _ h => h)
      intro _
      apply triple_bind (ensureParentDirectories_spec _)
      intro _
      apply triple_bind (newOutputFile_spec hr)
      intro _
      exact triple_consequence (copyTarFile_spec size) (fun _ h => h)
        (fun _ _ h => ⟨_, h, hc.written hl⟩) fun _ h => h
    · apply triple_bind (addBytes_spec size lim _)
      rintro _ w ⟨-, hle⟩
      exact absurd hle hl
  · intro _
    apply triple_ite
    · intro _
      apply triple_bind (ensureDirectory_spec _)
      intro _
      exact triple_consequence (quiet_skipTarPayload size).at (fun _ h => h)
        (fun _ _ h => ⟨c, h, hc⟩) fun _ h => h
    · exact fun _ => triple_throw fun _ h => h.1

theorem countEntry_tallied :
    Triple (Tallied before dest ents lim) countEntry
      (fun _ => Tallied before dest (ents + 1) lim) (Stopped before dest) := by
  apply triple_exists
  rintro c ⟨hw, hb, he⟩
  exact triple_consequence countEntry_spec (fun _ h => h)
    (fun _ _ h => ⟨_, h, hw, hb, succ_le_succ he⟩) fun _ h => h

theorem nameEntry_tallied (relative : Path) :
    Triple (Tallied before dest ents lim) (nameEntry relative)
      (fun _ => Tallied before dest ents lim) (Stopped before dest) := by
  apply triple_exists
  intro c hc
  exact triple_consequence (nameEntry_spec relative) (fun _ h => h) (fun _ _ h => ⟨c, h, hc⟩)
    fun _ h => h

theorem Tallied.mono {entries' limit' : ℕ} {w : World}
    (h : Tallied before dest ents lim w) (he : ents ≤ entries')
    (hl : lim ≤ limit') : Tallied before dest entries' limit' w := by
  obtain ⟨c, hat, hw, hb, hc⟩ := h
  exact ⟨c, hat, hw, Nat.le_trans hb hl, Nat.le_trans hc he⟩

theorem Tallied.stopped {w : World} (h : Tallied before dest ents lim w) :
    Stopped before dest w := by
  obtain ⟨c, hat, -⟩ := h
  exact hat.1

/-- A path that is safe. -/
theorem liftExcept_safeRelativePath (name : List UInt8) :
    Triple (Tallied before dest ents lim) (liftExcept (safeRelativePath name) : M Path)
      (fun relative w => Tallied before dest ents lim w ∧ relative ≠ [])
      (Stopped before dest) :=
  triple_value (quiet_liftExcept _).tallied fun _ _ _ h =>
    safeRelativePath_ne_nil (liftExcept_eq_ok h)

theorem tarRecord_spec (hdr : List UInt8) (size : ℕ) (tar : TarState) :
    Triple (Tallied before dest ents lim)
      (tarRecord dest lim hdr size tar)
      (fun _ => Tallied before dest (ents + 1) lim) (Stopped before dest) := by
  apply triple_bind (quiet_countStreamBytes lim size tar).tallied
  intro tar
  apply triple_ite
  · intro _
    exact triple_consequence (quiet_readMetadata _ size tar).tallied (fun _ h => h)
      (fun _ _ h => h.mono (le_succ _) (Nat.le_refl _)) fun _ h => h
  · intro _
    apply triple_bind (quiet_liftExcept _).tallied
    intro rawName
    apply triple_bind (liftExcept_safeRelativePath rawName)
    intro relative
    apply triple_and_right
    intro hr
    apply triple_ite
    · exact fun _ => triple_throw fun _ h => h.stopped
    · intro _
      apply triple_bind (nameEntry_tallied relative)
      intro _
      apply triple_bind (extractTarOutput_spec hr _ size)
      intro _
      apply triple_bind countEntry_tallied
      exact fun _ => triple_pure fun _ h => h

theorem tarRecords_spec (left : ℕ) (tar : TarState) :
    Triple (Tallied before dest ents lim) (tarRecords dest lim left tar)
      (fun _ => Tallied before dest (ents + left) lim) (Stopped before dest) := by
  induction left generalizing ents tar with
  | zero =>
    apply triple_bind quiet_nextHeader.tallied
    rintro (_ | next)
    · exact quiet_finishTarStream.tallied
    · exact triple_throw fun _ h => h.stopped
  | succ left ih =>
    apply triple_bind quiet_nextHeader.tallied
    rintro (_ | ⟨hdr, size⟩)
    · exact triple_consequence quiet_finishTarStream.tallied (fun _ h => h)
        (fun _ _ h => h.mono (by omega) (Nat.le_refl _)) fun _ h => h
    · apply triple_bind (tarRecord_spec hdr size tar)
      intro tar
      have hs : ents + (left + 1) = ents + 1 + left := by omega
      rw [hs]
      exact ih tar

theorem extractTar_spec (lim : ℕ) :
    Triple (Tallied before dest 0 0) (extractTar dest lim)
      (fun _ => Tallied before dest maxEntries lim) (Stopped before dest) := by
  rw [← Nat.zero_add maxEntries]
  exact triple_consequence (tarRecords_spec maxEntries ⟨none, none, 0⟩)
    (fun _ h => h.mono (Nat.le_refl 0) (Nat.zero_le _)) (fun _ _ h => h) fun _ h => h

/-! A zip archive. -/

theorem saturatingAdd_eq {a b bound : ℕ} (h : saturatingAdd a b ≤ bound) (hb : bound < u64Max) :
    saturatingAdd a b = a + b := by
  unfold saturatingAdd u64Max at *
  omega

/-- What is declared is counted, up to the limit. -/
theorem declareEntry_spec (archiveSize declared : ℕ) (e : ZipEntry) :
    Triple (Tallied before dest ents lim) (declareEntry archiveSize declared e)
      (fun total w => Tallied before dest ents lim w ∧
        total = declared + e.size ∧ total ≤ compressedOutputLimit archiveSize)
      (Stopped before dest) := by
  apply triple_bind quiet_checkCancelled.tallied
  intro _
  apply triple_bind (quiet_byIndex e).tallied
  intro _
  apply triple_ite
  · exact fun _ => triple_throw fun _ h => h.stopped
  · intro _
    apply triple_ite
    · exact fun _ => triple_throw fun _ h => h.stopped
    · intro _
      apply triple_ite
      · exact fun _ => triple_throw fun _ h => h.stopped
      · intro hl
        rw [not_or, Nat.not_lt, Nat.not_lt] at hl
        apply triple_bind (quiet_entryPath e).tallied
        intro _
        apply triple_pure
        intro w hw
        exact ⟨hw, saturatingAdd_eq hl.1 (by decide), Nat.le_min.mpr hl⟩

def declaredSize (zip : List ZipEntry) : ℕ := (zip.map ZipEntry.size).sum

theorem declareEntries_spec (archiveSize declared : ℕ) (zip : List ZipEntry)
    (hd : declared ≤ compressedOutputLimit archiveSize) :
    Triple (Tallied before dest ents lim) (declareEntries archiveSize declared zip)
      (fun _ w => Tallied before dest ents lim w ∧
        declared + declaredSize zip ≤ compressedOutputLimit archiveSize)
      (Stopped before dest) := by
  induction zip generalizing declared with
  | nil => exact triple_pure fun _ h => ⟨h, hd⟩
  | cons e zip ih =>
    apply triple_bind (declareEntry_spec archiveSize declared e)
    intro total
    apply triple_and_right
    rintro ⟨rfl, ht⟩
    have hr := ih (declared + e.size) ht
    have hs : declared + e.size + declaredSize zip =
        declared + declaredSize (e :: zip) := by
      simp only [declaredSize, map_cons, sum_cons]
      omega
    rwa [hs] at hr

theorem extractZipOutput_spec {relative : Path} (hr : relative ≠ []) (e : ZipEntry) :
    Triple (Tallied before dest ents lim)
      (extractZipOutput dest relative e)
      (fun _ => Tallied before dest ents (lim + e.size))
      (Stopped before dest) := by
  apply triple_exists
  rintro c ⟨hw, hb, he⟩
  apply triple_ite
  · intro _
    exact triple_consequence (ensureDirectory_spec _) (fun _ h => h)
      (fun _ _ h => ⟨c, h, hw, le_add_right_of_le hb, he⟩) fun _ h => h
  · intro _
    apply triple_ite
    · intro _
      apply triple_bind (ensureParentDirectories_spec _)
      intro _
      apply triple_bind (newOutputFile_spec hr)
      intro _
      apply triple_bind (quiet_setReader e.data e.fails).writing
      intro _
      have ht : Tally ents lim c := ⟨hw, hb, he⟩
      exact triple_consequence (copyBounded_spec e.size) (fun _ h => h)
        (fun _ _ h => ⟨_, h, ht.written (Nat.add_le_add_right hb _)⟩) fun _ h => h
    · exact fun _ => triple_throw fun _ h => h.1

theorem entryPath_spec (e : ZipEntry) :
    Triple (Tallied before dest ents lim) (entryPath e)
      (fun relative w => Tallied before dest ents lim w ∧ relative ≠ [])
      (Stopped before dest) := by
  unfold entryPath
  rcases e.enclosedName with _ | name
  · exact triple_throw fun _ h => h.stopped
  · exact liftExcept_safeRelativePath name

theorem extractZipEntry_spec (e : ZipEntry) :
    Triple (Tallied before dest ents lim) (extractZipEntry dest e)
      (fun _ => Tallied before dest (ents + 1) (lim + e.size))
      (Stopped before dest) := by
  apply triple_bind quiet_checkCancelled.tallied
  intro _
  apply triple_bind (quiet_byIndex e).tallied
  intro _
  apply triple_bind (entryPath_spec e)
  intro relative
  apply triple_and_right
  intro hr
  apply triple_bind (nameEntry_tallied relative)
  intro _
  apply triple_bind (extractZipOutput_spec hr e)
  exact fun _ => countEntry_tallied

theorem extractZipEntries_spec (zip : List ZipEntry) :
    Triple (Tallied before dest ents lim) (extractZipEntries dest zip)
      (fun _ => Tallied before dest (ents + zip.length) (lim + declaredSize zip))
      (Stopped before dest) := by
  induction zip generalizing ents lim with
  | nil => exact triple_pure fun _ h => h
  | cons e zip ih =>
    apply triple_bind (extractZipEntry_spec e)
    intro _
    apply triple_consequence ih (fun _ h => h) _ fun _ h => h
    intro _ w hw
    refine hw.mono ?_ ?_
    · rw [length_cons]
      omega
    · simp only [declaredSize, map_cons, sum_cons]
      omega

theorem extractZip_spec (archiveSize : ℕ) (zip : List ZipEntry) :
    Triple (Tallied before dest 0 0) (extractZip dest archiveSize zip)
      (fun _ => Tallied before dest maxEntries (compressedOutputLimit archiveSize))
      (Stopped before dest) := by
  apply triple_ite
  · exact fun _ => triple_throw fun _ h => h.stopped
  · intro hl
    apply triple_bind (declareEntries_spec archiveSize 0 zip (Nat.zero_le _))
    intro _
    apply triple_and_right
    intro hd
    apply triple_consequence (extractZipEntries_spec zip) (fun _ h => h) _ fun _ h => h
    exact fun _ w hw => hw.mono (by omega) hd

/-! An archive. -/

theorem quiet_openSource (src : Path) : Quiet (openSource src) := by
  apply quiet_bind quiet_systemCall
  intro _
  apply quiet_bind quiet_get
  intro w
  rcases getKey src w.ledger.fs with _ | _ | _ | _ | _
  · exact quiet_throw _
  · exact quiet_throw _
  · exact quiet_pure _
  · exact quiet_throw _
  · exact quiet_throw _

/-- How many bytes an archive may have when it is extracted. -/
def outputLimit (kind : ArchiveKind) (archiveSize : ℕ) : ℕ :=
  if kind = .tar then maxExtractedBytes else compressedOutputLimit archiveSize

theorem outputLimit_tar (archiveSize : ℕ) : outputLimit .tar archiveSize = maxExtractedBytes :=
  if_pos rfl

theorem outputLimit_of_ne {kind : ArchiveKind} (h : kind ≠ .tar) (archiveSize : ℕ) :
    outputLimit kind archiveSize = compressedOutputLimit archiveSize := if_neg h

theorem extractXzTar_spec (decoders : Decoders) (src : Path) (lim : ℕ) :
    Triple (Tallied before dest 0 0) (extractXzTar decoders src dest lim)
      (fun _ => Tallied before dest maxEntries lim) (Stopped before dest) := by
  apply triple_bind (quiet_openSource src).tallied
  intro data
  apply triple_bind (quiet_attempt quiet_systemCall).tallied
  rintro (err | _)
  · exact triple_throw fun _ h => h.stopped
  · apply triple_bind (quiet_setReader _ _).tallied
    intro _
    apply triple_bind (triple_attempt (extractTar_spec lim))
    rintro (err | _)
    · apply triple_bind (triple_consequence (quiet_systemCall.triple
        (P := fun led => Extracting before dest led)) (fun _ h => h.2 err rfl)
        (fun _ _ h => h) fun _ h => h)
      intro _
      exact triple_throw fun _ h => h
    · apply triple_bind (triple_consequence quiet_systemCall.tallied
        (fun _ h => h.1 _ rfl) (fun _ _ h => h) fun _ h => h)
      intro _
      apply triple_bind (quiet_liftExcept _).tallied
      intro _
      apply triple_ite
      · exact fun _ => triple_pure fun _ h => h
      · exact fun _ => triple_throw fun _ h => h.stopped

theorem extractKind_spec (decoders : Decoders) (src : Path) (archiveSize : ℕ) (kind : ArchiveKind) :
    Triple (Tallied before dest 0 0)
      (extractKind decoders src dest archiveSize kind)
      (fun _ => Tallied before dest maxEntries (outputLimit kind archiveSize))
      (Stopped before dest) := by
  cases kind with
  | zip =>
    rw [outputLimit_of_ne (by decide)]
    apply triple_bind (quiet_openSource src).tallied
    intro data
    rcases decoders.zipArchive data with _ | zip
    · exact triple_throw fun _ h => h.stopped
    · exact extractZip_spec archiveSize zip
  | tar =>
    rw [outputLimit_tar]
    apply triple_bind (quiet_openSource src).tallied
    intro data
    apply triple_bind (quiet_setReader _ _).tallied
    exact fun _ => extractTar_spec _
  | tarGz =>
    rw [outputLimit_of_ne (by decide)]
    apply triple_bind (quiet_openSource src).tallied
    intro data
    apply triple_bind (quiet_setReader _ _).tallied
    exact fun _ => extractTar_spec _
  | tarXz =>
    rw [outputLimit_of_ne (by decide)]
    exact extractXzTar_spec decoders src _

/-- Everything that was created is below the destination, and nothing of it is left. -/
def Restored (before : FileSystem) (destination : Path) (w : World) : Prop :=
  (∀ entry ∈ w.ledger.made, Inside destination entry) ∧ ∀ q, getKey q w.ledger.fs = getKey q before

theorem cleanup_spec (hp : WellFormed before) :
    Triple (Stopped before dest) cleanup (fun _ => Restored before dest) E := by
  apply triple_modify
  intro w hw
  exact ⟨hw.made, cleanup_restores hp hw.rollback⟩

/-- What is known of an archive when the destination is created. -/
def Checked (before : FileSystem) (source : Path) (archive : ArchiveKind × ℕ) : Prop :=
  archiveKind source = some archive.1 ∧
    ∃ data, getKey source before = some (.file data) ∧ data.length = archive.2

theorem symlinkMetadata_spec (path : Path) (led : Ledger) :
    Triple (fun w => w.ledger = led) (symlinkMetadata path)
      (fun res w => w.ledger = led ∧
        ∀ node, res = .ok node → getKey path led.fs = some node) E := by
  refine triple_consequence (triple_attempt (Q := fun node w => w.ledger = led ∧
    getKey path led.fs = some node) (E := fun w => w.ledger = led) ?_) (fun _ h => h) ?_
    fun _ h => h
  · apply triple_bind (quiet_systemCall led)
    intro _
    apply triple_get_bind
    intro w
    unfold lookupNode
    rcases hn : getKey path w.ledger.fs with _ | node
    · exact triple_throw fun _ h => h.2
    · apply triple_pure
      rintro s ⟨rfl, rfl⟩
      exact ⟨rfl, hn⟩
  · rintro (err | node) w h
    · exact ⟨h.2 err rfl, by rintro _ ⟨⟩⟩
    · exact ⟨(h.1 node rfl).1, by rintro _ ⟨⟩; exact (h.1 node rfl).2⟩

theorem checkArchive_spec (src : Path) :
    Triple (fun w => w.ledger = .start before) (checkArchive src dest)
      (fun arc w => w.ledger = .start before ∧ Checked before src arc)
      (fun w => w.ledger = .start before) := by
  unfold checkArchive
  rcases hk : archiveKind src with _ | kind
  · exact triple_throw fun _ h => h
  · apply triple_bind (symlinkMetadata_spec src (.start before))
    rintro (err | node)
    · apply triple_bind (Q := fun _ _ => False)
      · exact triple_throw fun _ h => h.1
      · exact fun _ w hw => hw.elim
    · apply triple_bind (triple_pure (Q := fun a w => a = node ∧ w.ledger = .start before ∧
        getKey src before = some node) fun _ h => ⟨rfl, h.1, h.2 node rfl⟩)
      rintro (_ | data | _ | _)
      · exact triple_throw fun _ h => h.2.1
      · apply triple_ite
        · exact fun _ => triple_throw fun _ h => h.2.1
        · intro _
          apply triple_get_bind
          intro w
          apply triple_ite
          · exact fun _ => triple_throw fun _ h => h.2.2.1
          · intro _
            apply triple_ite
            · exact fun _ => triple_throw fun _ h => h.2.2.1
            · intro _
              apply triple_ite
              · exact fun _ => triple_throw fun _ h => h.2.2.1
              · intro _
                apply triple_pure
                rintro w ⟨-, rfl, hw, hs⟩
                exact ⟨hw, hk, data, hs, rfl⟩
      · exact triple_throw fun _ h => h.2.1
      · exact triple_throw fun _ h => h.2.1

theorem extracting_start (hpr : WellFormed before) :
    Extracting before dest (.start before) where
  formed := hpr
  rollback := Rollback.refl before
  inside _ hp := absurd hp not_mem_nil
  made _ hentry := absurd hentry not_mem_nil
  root _ hp := absurd hp not_mem_nil

/-- An extraction, to its end or its cleanup. -/
theorem extractArchive_spec (hp : WellFormed before) (decoders : Decoders) (src : Path) :
    Triple (fun w => w.ledger = .start before) (extractArchive decoders src dest)
      (fun report w => report = w.ledger.state ∧ ∃ arc, Checked before src arc ∧
        Tallied before dest maxEntries (outputLimit arc.1 arc.2) w)
      (Restored before dest) := by
  have hs : ∀ w : World, w.ledger = .start before → Restored before dest w := by
    intro w hw
    rw [Restored, hw]
    exact ⟨fun _ he => absurd he not_mem_nil, fun _ => rfl⟩
  apply triple_bind (triple_consequence (checkArchive_spec src) (fun _ h => h) (fun _ _ h => h) hs)
  intro arc
  apply triple_and_right
  intro hc
  apply triple_bind (triple_consequence (create_spec dest .dir (.start before))
    (fun _ h => h) (fun _ _ h => h) hs)
  intro _
  apply triple_bind (pushCreated_spec (extracting_start hp) rfl
    (prefix_refl dest) (.inl rfl) rfl)
  intro _
  apply triple_bind (triple_consequence
    (triple_attempt (extractKind_spec decoders src arc.2 arc.1))
    (fun _ h => ⟨_, h.1, Nat.le_refl 0, Nat.le_refl 0, Nat.le_refl 0⟩) (fun _ _ h => h)
    fun _ h => h)
  rintro (err | _)
  · apply triple_bind (triple_consequence (cleanup_spec hp) (fun _ h => h.2 err rfl)
      (fun _ _ h => h) fun _ h => h)
    exact fun _ => triple_throw fun _ h => h
  · apply triple_get_bind
    intro w
    apply triple_pure
    rintro s ⟨rfl, h, -⟩
    exact ⟨rfl, arc, hc, h _ rfl⟩

/-- A path is as before, or it is a new directory or file below the destination. -/
theorem Extracting.changed (h : Extracting before dest led) (q : Path) :
    getKey q led.fs = getKey q before ∨
      getKey q before = none ∧ q ∈ led.state.createdPaths ∧
        ∃ node, getKey q led.fs = some node ∧ Inside dest (q, node) := by
  by_cases hq : q ∈ led.state.createdPaths
  · obtain ⟨node, hn, hp⟩ := h.rollback.nodes q hq
    refine .inr ⟨h.rollback.fresh q hq, hq, node, hn, ?_⟩
    by_cases hr : q = dest
    · subst hr
      obtain rfl := h.root node hq hn
      exact .inl rfl
    · exact .inr ⟨h.inside q hq, hr, hp⟩
  · exact .inl (h.rollback.others q hq)

/-- Whatever an archive holds and whenever the extraction is cancelled, everything it creates is
below the destination; if it fails nothing is left of it, and else it kept to its limits. -/
theorem archive_extraction_confined {fs : FileSystem} (hfs : WellFormed fs) (decoders : Decoders)
    (source destination : Path) (reader : Reader) (checksLeft : Option ℕ) (faults : List Bool) :
    (∀ report after, extractArchive decoders source destination
        ⟨.start fs, reader, checksLeft, faults⟩ = .ok report after →
      (∀ entry ∈ after.ledger.made, Inside destination entry) ∧
      (∀ q, getKey q after.ledger.fs = getKey q fs ∨
        getKey q fs = none ∧ q ∈ report.createdPaths ∧
          ∃ node, getKey q after.ledger.fs = some node ∧ Inside destination (q, node)) ∧
      report.entries ≤ maxEntries ∧
      ∃ kind data, archiveKind source = some kind ∧ getKey source fs = some (.file data) ∧
        after.ledger.written ≤ report.bytes ∧ report.bytes ≤ outputLimit kind data.length) ∧
    ∀ error after, extractArchive decoders source destination
        ⟨.start fs, reader, checksLeft, faults⟩ = .error error after →
      (∀ entry ∈ after.ledger.made, Inside destination entry) ∧
      ∀ q, getKey q after.ledger.fs = getKey q fs := by
  have ht : Triple _ (extractArchive decoders source destination) _ _ :=
    extractArchive_spec hfs decoders source
  have hs := ht ⟨.start fs, reader, checksLeft, faults⟩ rfl
  constructor
  · intro report after hr
    rw [hr] at hs
    obtain ⟨rfl, ⟨kind, size⟩, ⟨hk, data, hd, rfl⟩, c, ⟨he, rfl⟩, hw, hb, hen⟩ := hs
    exact ⟨he.made, he.changed, hen, kind, data, hk, hd, hw, hb⟩
  · intro error after hr
    rw [hr] at hs
    exact hs

/-- The name `a.tar`. -/
def sampleName : Name := [97, 46, 116, 97, 114]

/-- A disk with an archive that lacks its second end marker. -/
def truncatedDisk : FileSystem := [([], .dir), ([sampleName], .file (List.replicate 512 0))]

theorem wellFormed_truncatedDisk : WellFormed truncatedDisk := by
  intro p name node h
  have hm := mem_of_lookup h
  simp only [truncatedDisk, mem_cons, Prod.mk.injEq, not_mem_nil, or_false] at hm
  rcases hm with ⟨heq, -⟩ | ⟨heq, -⟩
  · simp at heq
  · obtain rfl : p = [] := by
      cases p with
      | nil => rfl
      | cons part p => simp at heq
    decide +kernel

/-- Decoders that decode nothing. -/
def plainDecoders : Decoders where
  zipArchive _ := none
  gunzip data := (data, false)
  unxz data := (data, false)
  xzSucceeds _ := true

/-- The extraction failed, after it created this. -/
def failedWith (made : List (Path × Node)) : EStateM.Result IoError World ExtractionState → Bool
  | .ok _ _ => false
  | .error _ after => after.ledger.made = made

theorem archive_extraction_confined_sample :
    ∃ error after, extractArchive plainDecoders [sampleName] [[97]]
        ⟨.start truncatedDisk, ⟨[], false, []⟩, none, []⟩ = .error error after ∧
      after.ledger.made = [([[97]], .dir)] ∧
      ∀ q, getKey q after.ledger.fs = getKey q truncatedDisk := by
  have hf : failedWith [([[97]], .dir)] (extractArchive plainDecoders [sampleName] [[97]]
      ⟨.start truncatedDisk, ⟨[], false, []⟩, none, []⟩) = true := by decide +kernel
  rcases hru : extractArchive plainDecoders [sampleName] [[97]]
    ⟨.start truncatedDisk, ⟨[], false, []⟩, none, []⟩ with ⟨report, after⟩ | ⟨error, after⟩
  · rw [hru] at hf
    cases hf
  · rw [hru] at hf
    have hr := (archive_extraction_confined wellFormed_truncatedDisk plainDecoders
      [sampleName] [[97]] ⟨[], false, []⟩ none []).2 error after hru
    exact ⟨error, after, rfl, of_decide_eq_true hf, hr.2⟩

end FocalDesk.Archive
