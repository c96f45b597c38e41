import FocalDesk.Archive.Confinement
import FocalDesk.Archive.Member
import Mathlib.Data.List.Nodup

/-! Which archives are extracted to what was put into them. -/
namespace FocalDesk.Archive
open Library List Option Member

variable {members done : List Member} {m : Member} {limit left : ℕ} {destination dest : Path}
  {pre : FileSystem} {rest input : List UInt8} {tar : TarState} {E : World → Prop}

/-! All members. -/

variable {members : List Member}

theorem Encoded.addable (h : Encoded limit (done ++ m :: members))
    (hfi : FilesAreLeaves (done ++ m :: members)) : Addable done m := by
  have hm : m ∈ done ++ m :: members := mem_append_right _ mem_cons_self
  have hd := h.distinct
  rw [map_append, nodup_append] at hd
  have hf : ∀ other ∈ done, other.path ≠ m.path := fun other ho =>
    hd.2.2 _ (mem_map_of_mem ho) _ (mem_map_of_mem mem_cons_self)
  refine ⟨hf, ?_, ?_⟩
  · intro other ho hfl hb
    have hs := hfi other (mem_append_left _ ho) hfl m hm hb
    exact hf other ho hs.symm
  · intro hfl other ho hb
    have hs := hfi m hm hfl other (mem_append_left _ ho) hb
    exact hf other ho hs

theorem encodeMembers_cons (m : Member) (members : List Member) :
    encodeMembers (m :: members) = m.encode ++ encodeMembers members := rfl

theorem encodeMembers_append (done members : List Member) :
    encodeMembers (done ++ members) = encodeMembers done ++ encodeMembers members :=
  flatMap_append

/-- What the limits of an archive leave for its next member. -/
theorem Encoded.next (h : Encoded limit (done ++ m :: members)) :
    bytesOf done + m.data.length ≤ limit ∧
      (encodeMembers done).length + m.encode.length ≤ saturatingAdd limit (16 * 1024 * 1024) ∧
      (done.map Member.records).sum + m.records ≤ maxEntries := by
  obtain ⟨-, -, hr, -, -, -, hb, hs⟩ := h
  rw [encodeMembers_append, encodeMembers_cons] at hs
  simp only [map_append, map_cons, sum_append, sum_cons] at hr hb
  simp only [length_append] at hs
  refine ⟨?_, ?_, ?_⟩
  · unfold bytesOf
    omega
  · omega
  · omega

variable {fst snd : List UInt8}

/-- Members whose names are kept are extracted one after the other. -/
theorem calm_members (hfi : EndBlock fst) (hsn : EndBlock snd) (hma : limit ≤ u64Max)
    (he : Encoded limit (done ++ members)) (hf : FilesAreLeaves (done ++ members))
    (hp : tar.pendingPaxPath = none) (hk : keepsNames tar.pendingLongName.isSome members)
    (hs : tar.streamBytes = (encodeMembers done).length)
    (hl : left + (done.map Member.records).sum = maxEntries) :
    Triple (Calm (Extracted pre dest done)
        (encodeMembers members ++ (fst ++ (snd ++ []))))
      (tarRecords dest limit left tar)
      (fun _ => Calm (Extracted pre dest (done ++ members)) []) E := by
  induction members generalizing done tar left with
  | nil =>
    rw [append_nil done]
    cases left with
    | zero =>
      apply triple_bind (calm_nextHeader_end hfi)
      intro next
      apply triple_and_right
      rintro rfl
      exact calm_finishTarStream hsn
    | succ left =>
      apply triple_bind (calm_nextHeader_end hfi)
      intro next
      apply triple_and_right
      rintro rfl
      exact calm_finishTarStream hsn
  | cons m members ih =>
    have hm : m ∈ done ++ m :: members := mem_append_right _ mem_cons_self
    obtain ⟨hb, hle, hr⟩ := he.next
    rw [keepsNames, Bool.and_eq_true] at hk
    have ho : ¬ (tar.pendingLongName.isSome ∧ m.long = none ∧ m.paxName = none) := by
      rintro ⟨hso, hlo, hpa⟩
      have hke := hk.1
      rw [hso, hlo, hpa] at hke
      cases hke
    obtain ⟨k, rfl⟩ : ∃ k, left = k + 1 + (m.long.toList.length + m.pax.toList.length) :=
      ⟨left - m.records, by unfold Member.records at *; omega⟩
    have hen := he.entries m hm
    have hsp : encodeMembers (m :: members) ++ (fst ++ (snd ++ [])) =
        m.metadata ++ (encodeRecord m.fields m.flag m.data ++
          (encodeMembers members ++ (fst ++ (snd ++ [])))) := by
      rw [encodeMembers_cons, Member.encode]
      simp only [append_assoc]
    have ha : done ++ m :: members = done ++ [m] ++ members := by simp
    rw [hsp]
    apply calm_metadata (he.long m hm) (he.pax m hm)
    · rw [hs]
      rw [length_encode] at hle
      omega
    · apply calm_tarRecords_record hen (calm_tarRecord_entry
        (he.addable hf) (he.faithful m hm) hp ho hen hb hma (by rwa [hs]))
      rw [ha] at he hf ⊢
      apply ih he hf rfl
      · rw [isSome_nextTar]
        exact hk.2
      · rw [encodeMembers_append, length_append, ← hs]
        simp [nextTar, encodeMembers]
      · rw [map_append, sum_append, ← hl]
        simp [Member.records]
        omega

/-! A name that was used stays in the record. -/

/-- The record of names only grows. -/
def Grows {α : Type} (m : M α) : Prop :=
  ∀ names : List Path, Triple (fun w => names <+: w.ledger.names) m
    (fun _ w => names <+: w.ledger.names) fun _ => True

section Grows

variable {α β : Type}

theorem Quiet.grows {m : M α} (h : Quiet m) : Grows m := fun ns =>
  triple_consequence (h.triple (P := fun led => ns <+: led.names)) (fun _ h => h)
    (fun _ _ h => h) fun _ _ => trivial

theorem grows_bind {m : M α} {f : α → M β} (hm : Grows m) (hf : ∀ a, Grows (f a)) :
    Grows (m >>= f) :=
  fun ns => triple_bind (hm ns) fun a => hf a ns

theorem grows_ite {c : Prop} [Decidable c] {m n : M α} (hm : Grows m) (hn : Grows n) :
    Grows (if c then m else n) :=
  fun ns => triple_ite (fun _ => hm ns) fun _ => hn ns

theorem grows_modifyLedger {f : Ledger → Ledger} (h : ∀ led, led.names <+: (f led).names) :
    Grows (modifyLedger f) :=
  fun _ => triple_modify fun w hw => hw.trans (h w.ledger)

variable (path : Path)

theorem grows_create (node : Node) : Grows (create path node) := by
  apply grows_bind quiet_systemCall.grows
  intro _
  apply grows_bind quiet_get.grows
  intro w
  apply grows_ite (quiet_throw _).grows
  apply grows_ite (quiet_throw _).grows
  exact grows_modifyLedger fun _ => prefix_refl _

theorem grows_createPush (node : Node) : Grows (create path node >>= fun _ => pushCreated path) :=
  grows_bind (grows_create path node) fun _ => grows_modifyLedger fun _ => prefix_refl _

theorem grows_writeAll (c : List UInt8) : Grows (writeAll path c) := by
  apply grows_bind quiet_systemCall.grows
  intro _
  apply grows_bind quiet_get.grows
  intro w
  rcases getKey path w.ledger.fs with _ | _ | _ | _ | _
  · exact (quiet_throw _).grows
  · exact (quiet_throw _).grows
  · exact grows_modifyLedger fun _ => prefix_refl _
  · exact (quiet_throw _).grows
  · exact (quiet_throw _).grows

theorem grows_ensureComponent (cur : Path) : Grows (ensureComponent cur) := by
  apply grows_bind (quiet_symlinkMetadata cur).grows
  rintro (err | _ | _ | _ | _)
  · exact grows_ite (grows_createPush _ _) (quiet_throw _).grows
  · exact (quiet_pure _).grows
  · exact (quiet_throw _).grows
  · exact (quiet_throw _).grows
  · exact (quiet_throw _).grows

theorem grows_ensureComponents (cur : Path) (parts : List Name) :
    Grows (ensureComponents cur parts) := by
  induction parts generalizing cur with
  | nil => exact (quiet_pure _).grows
  | cons part parts ih => exact grows_bind (grows_ensureComponent _) fun _ => ih _

theorem grows_ensureDirectory (path dest : Path) :
    Grows (ensureDirectory path dest) := by
  apply grows_ite
  · apply grows_bind (quiet_symlinkMetadata path).grows
    rintro (err | _ | _ | _ | _)
    · exact (quiet_throw _).grows
    · exact (quiet_pure _).grows
    · exact (quiet_throw _).grows
    · exact (quiet_throw _).grows
    · exact (quiet_throw _).grows
  · exact grows_ite (grows_ensureComponents _ _) (quiet_throw _).grows

theorem grows_payloadRounds (fuel rest : ℕ) :
    Grows (payloadRounds (writeAll path) fuel rest) := by
  induction fuel generalizing rest with
  | zero => exact (quiet_pure _).grows
  | succ fuel ih =>
    apply grows_ite (quiet_pure _).grows
    apply grows_bind quiet_checkCancelled.grows
    intro _
    apply grows_bind (quiet_read _).grows
    intro c
    apply grows_ite (quiet_throw _).grows
    exact grows_bind (grows_writeAll path c) fun _ => ih _

theorem grows_addBytes (size limit : ℕ) (msg : String) : Grows (addBytes size limit msg) := by
  apply grows_bind quiet_get.grows
  intro w
  apply grows_ite (quiet_throw _).grows
  refine grows_bind (grows_modifyLedger ?_) ?_
  · exact fun _ => prefix_refl _
  · exact fun _ => grows_ite (quiet_throw _).grows (quiet_pure _).grows

theorem grows_extractTarOutput (dest : Path) (limit : ℕ) (flag : UInt8) (relative : Path)
    (size : ℕ) : Grows (extractTarOutput dest limit flag relative size) := by
  apply grows_ite
  · apply grows_bind (grows_addBytes _ _ _)
    intro _
    apply grows_bind (grows_ite (quiet_throw _).grows (grows_ensureDirectory _ _))
    intro _
    apply grows_bind (grows_createPush _ _)
    intro _
    exact grows_bind (grows_payloadRounds _ _ _) fun _ => (quiet_skipPadding size).grows
  · apply grows_ite
    · exact grows_bind (grows_ensureDirectory _ _) fun _ => (quiet_skipTarPayload size).grows
    · exact (quiet_throw _).grows

theorem grows_countEntry : Grows countEntry := grows_modifyLedger fun _ => prefix_refl _

theorem grows_tarRecord (dest : Path) (limit : ℕ) (hdr : List UInt8) (size : ℕ)
    (tar : TarState) : Grows (tarRecord dest limit hdr size tar) := by
  apply grows_bind (quiet_countStreamBytes limit size tar).grows
  intro tar
  apply grows_ite (quiet_readMetadata _ size tar).grows
  apply grows_bind (quiet_liftExcept _).grows
  intro rawName
  apply grows_bind (quiet_liftExcept _).grows
  intro relative
  apply grows_ite (quiet_throw _).grows
  refine grows_bind (grows_modifyLedger ?_) ?_
  · exact fun _ => prefix_append _ _
  intro _
  apply grows_bind (grows_extractTarOutput _ _ _ _ _)
  intro _
  exact grows_bind grows_countEntry fun _ => (quiet_pure _).grows

theorem grows_tarRecords (dest : Path) (limit left : ℕ) (tar : TarState) :
    Grows (tarRecords dest limit left tar) := by
  induction left generalizing tar with
  | zero =>
    apply grows_bind quiet_nextHeader.grows
    rintro (_ | next)
    · exact quiet_finishTarStream.grows
    · exact (quiet_throw _).grows
  | succ left ih =>
    apply grows_bind quiet_nextHeader.grows
    rintro (_ | ⟨hdr, size⟩)
    · exact quiet_finishTarStream.grows
    · exact grows_bind (grows_tarRecord _ _ _ _ _) fun tar => ih tar

end Grows

/-! A long name that is left. -/

/-- The long name that is left is the name of an earlier member. -/
def LeftOver (done : List Member) (tar : TarState) : Prop :=
  ∀ raw ∈ tar.pendingLongName, ∃ other ∈ done, safeRelativePath raw = .ok other.path

theorem LeftOver.next (h : LeftOver done tar) (hf : m.Faithful) (streamBytes : ℕ) :
    LeftOver (done ++ [m]) (nextTar m tar streamBytes) := by
  intro raw hr
  unfold nextTar at hr
  by_cases hp : m.paxName = none
  · rw [if_pos hp] at hr
    cases hr
  · rw [if_neg hp] at hr
    rcases hl : m.long with _ | r
    · rw [hl] at hr
      obtain ⟨other, ho, hpa⟩ := h raw hr
      exact ⟨other, mem_append_left _ ho, hpa⟩
    · rw [hl] at hr
      obtain rfl : r.name = raw := some.inj hr
      exact ⟨m, mem_append_right _ (mem_singleton_self m), hf.long r hl⟩

/-- A member without a name of its own takes the name that is left. -/
theorem tarRecord_stale {raw : List UInt8} {path : Path} (hpe : tar.pendingPaxPath = none)
    (hr : tar.pendingLongName = some raw) (hpa : safeRelativePath raw = .ok path)
    (hlo : m.long = none) (hpx : m.paxName = none) (he : m.data.length ≤ maxEntryBytes)
    (hst : tar.streamBytes + m.encode.length ≤ saturatingAdd limit (16 * 1024 * 1024)) :
    Triple (Calm (Extracted pre dest done) input)
      (tarRecord dest limit (m.fields.header m.flag m.data.length) m.data.length
        (afterMetadata m tar))
      (fun _ w => done.map Member.path ++ [path] <+: w.ledger.names) fun _ => True := by
  have hs : (afterMetadata m tar).streamBytes +
      (512 + (m.data.length + (padding m.data.length).length)) =
        tar.streamBytes + m.encode.length := by
    rw [length_encode]
    exact Nat.add_assoc _ _ _
  have hp : (afterMetadata m tar).pendingPaxPath = none := by
    rw [pendingPaxPath_afterMetadata hpe, hpx]
  have hl : (afterMetadata m tar).pendingLongName = some raw := by
    simp [afterMetadata, hlo, hr]
  unfold tarRecord
  rw [countStreamBytes_eq he (by rwa [hs]), hs, TarFields.typeFlag_header]
  apply triple_bind (triple_pure (Q := fun next w => Calm (Extracted pre dest done) input w ∧
    next = { afterMetadata m tar with streamBytes := tar.streamBytes + m.encode.length })
    fun _ h => ⟨h, rfl⟩)
  intro next
  apply triple_and_right
  rintro rfl
  have ht : (takeName (m.fields.header m.flag m.data.length) { afterMetadata m tar with
      streamBytes := tar.streamBytes + m.encode.length }).1 = .ok raw := by
    simp [takeName, hp, hl]
  rw [isMetadata_flag, if_neg Bool.false_ne_true, ht]
  apply triple_bind calm_liftExcept
  intro name
  apply triple_and_right
  rintro rfl
  rw [hpa]
  apply triple_bind calm_liftExcept
  intro relative
  apply triple_and_right
  rintro rfl
  rw [if_neg (Nat.not_lt.mpr he)]
  apply triple_bind (Q := fun _ w => done.map Member.path ++ [relative] <+: w.ledger.names)
  · apply triple_modify
    rintro w ⟨hle, -⟩
    change _ <+: w.ledger.names ++ [relative]
    rw [hle.names_eq]
  intro _
  apply triple_bind (grows_extractTarOutput _ _ _ _ _ _)
  intro _
  apply triple_bind (grows_countEntry _)
  exact fun _ => triple_pure fun _ h => h

/-- If a name is not kept, the names of the entries are not the paths of the members. -/
theorem stale_members (hma : limit ≤ u64Max) (he : Encoded limit (done ++ members))
    (hf : FilesAreLeaves (done ++ members)) (hp : tar.pendingPaxPath = none)
    (hl : LeftOver done tar) (hk : keepsNames tar.pendingLongName.isSome members = false)
    (hs : tar.streamBytes = (encodeMembers done).length)
    (hle : left + (done.map Member.records).sum = maxEntries) :
    Triple (Calm (Extracted pre dest done) (encodeMembers members ++ rest))
      (tarRecords dest limit left tar)
      (fun _ w => w.ledger.names ≠ (done ++ members).map Member.path) fun _ => True := by
  induction members generalizing done tar left with
  | nil => cases hk
  | cons m members ih =>
    have hm : m ∈ done ++ m :: members := mem_append_right _ mem_cons_self
    obtain ⟨hb, hln, hre⟩ := he.next
    obtain ⟨k, rfl⟩ : ∃ k, left = k + 1 + (m.long.toList.length + m.pax.toList.length) :=
      ⟨left - m.records, by unfold Member.records at *; omega⟩
    have hen := he.entries m hm
    have ha := he.addable hf
    have hsp : encodeMembers (m :: members) ++ rest =
        m.metadata ++ (encodeRecord m.fields m.flag m.data ++ (encodeMembers members ++ rest)) := by
      rw [encodeMembers_cons, Member.encode]
      simp only [append_assoc]
    have hal : done ++ m :: members = done ++ [m] ++ members := by simp
    rw [hsp]
    apply calm_metadata (he.long m hm) (he.pax m hm)
    · rw [hs]
      rw [length_encode] at hln
      omega
    · by_cases ho : tar.pendingLongName.isSome ∧ m.long = none ∧ m.paxName = none
      · obtain ⟨hso, hlo, hpx⟩ := ho
        obtain ⟨raw, hr⟩ := isSome_iff_exists.mp hso
        obtain ⟨other, hot, hpa⟩ := hl raw hr
        have hoc : m.data.length < 8 ^ 11 := Nat.lt_of_le_of_lt hen (by decide)
        rw [encodeRecord, append_assoc]
        apply triple_bind (calm_nextHeader hoc)
        intro next
        apply triple_and_right
        rintro rfl
        apply triple_bind (tarRecord_stale hp hr hpa hlo hpx hen (by rwa [hs]))
        intro next
        apply triple_consequence (grows_tarRecords dest limit k next _) (fun _ h => h) _
          fun _ h => h
        rintro _ w hn heq
        rw [heq, map_append, prefix_append_right_inj, map_cons, cons_prefix_cons] at hn
        exact ha.fresh other hot hn.1
      · rw [keepsNames, Bool.and_eq_false_iff] at hk
        have hne : keepsNames (longNameLeft tar.pendingLongName.isSome m) members = false := by
          apply hk.resolve_left
          intro hst
          apply ho
          simpa [and_assoc] using hst
        apply calm_tarRecords_record hen (calm_tarRecord_entry ha
          (he.faithful m hm) hp ho hen hb hma (by rwa [hs]))
        rw [hal] at he hf ⊢
        apply ih he hf rfl
        · exact hl.next (he.faithful m (by simp)) _
        · rwa [isSome_nextTar]
        · rw [encodeMembers_append, length_append, ← hs]
          simp [nextTar, encodeMembers]
        · rw [map_append, sum_append, ← hle]
          simp [Member.records]
          omega

/-! From a new folder. -/

/-- A folder that was created for an extraction. -/
structure FreshFolder (fs : FileSystem) (destination : Path) : Prop where
  formed : WellFormed fs
  dir : getKey destination fs = some .dir
  empty : ∀ r ≠ [], getKey (destination ++ r) fs = none

/-- The record when an extraction has created its folder. -/
def folderLedger (fs : FileSystem) (destination : Path) : Ledger :=
  ⟨fs, ⟨[destination], 0, 0⟩, [(destination, .dir)], 0, []⟩

/-- The members and two blocks of zeros. -/
def tarStream (members : List Member) : List UInt8 :=
  encodeMembers members ++ (List.replicate 512 0 ++ (List.replicate 512 0 ++ []))

/-- The archive is read in pieces of some sizes, and nothing fails. -/
def tarWorld (fs : FileSystem) (destination : Path) (members : List Member) (sizes : List ℕ) :
    World :=
  ⟨folderLedger fs destination, ⟨tarStream members, false, sizes⟩, none, []⟩

variable {fs : FileSystem}

theorem FreshFolder.calm (h : FreshFolder fs dest) (members : List Member) (sizes : List ℕ) :
    Calm (Extracted fs dest []) (tarStream members) (tarWorld fs dest members sizes) := by
  refine ⟨⟨h.formed, ?_, fun _ _ => rfl, rfl, rfl⟩, rfl, rfl, rfl, rfl⟩
  intro r
  by_cases hr : r = []
  · subst hr
    rw [append_nil]
    exact h.dir
  · have hn : tree [] r = none := by
      rw [tree_nil]
      exact if_neg hr
    rw [hn]
    exact h.empty r hr

theorem Member.Faithful.path_ne_nil (h : m.Faithful) : m.path ≠ [] := by
  rcases hp : m.paxName with _ | name
  · rcases hl : m.long with _ | r
    · exact safeRelativePath_ne_nil (h.header hl hp)
    · exact safeRelativePath_ne_nil (h.long r hl)
  · exact safeRelativePath_ne_nil (h.pax name hp)

theorem tree_of_mem (hd : (members.map path).Nodup) (hm : m ∈ members) (hr : m.path ≠ [])
    : tree members m.path = some m.node := by
  apply tree_of_find_some hr
  rcases hf : members.find? (fun other => other.path = m.path) with _ | found
  · rw [find?_eq_none] at hf
    exact absurd (decide_eq_true rfl) (hf m hm)
  · have hp : found.path = m.path := by simpa using find?_some hf
    rw [hf, inj_on_of_nodup_map hd (mem_of_find?_eq_some hf) hm hp]

/-- An extraction keeps the file system one. -/
theorem FreshFolder.formed_after (h : FreshFolder fs dest) {w after : World}
    (hw : w.ledger = folderLedger fs dest)
    (hru : extractTar dest limit w = .ok () after) : WellFormed after.ledger.fs := by
  have hr : Rollback (removeKey dest fs) fs [dest] := by
    refine ⟨?_, ?_, ?_, by simp, by simp⟩
    · intro p hp
      obtain rfl := mem_singleton.mp hp
      exact getKey_removeKey_self
    · intro p hp
      obtain rfl := mem_singleton.mp hp
      exact ⟨.dir, h.dir, rfl⟩
    · intro p hp
      exact (getKey_removeKey_of_ne (fun heq => hp (mem_singleton.mpr heq))).symm
  have hex : Extracting (removeKey dest fs) dest w.ledger := by
    rw [hw]
    refine ⟨h.formed, hr, ?_, ?_, ?_⟩
    · intro p hp
      obtain rfl := mem_singleton.mp hp
      exact prefix_refl _
    · intro e he
      exact .inl (mem_singleton.mp he)
    · intro node _ hn
      exact some.inj (hn.symm.trans h.dir)
  have hs : Triple (Tallied (removeKey dest fs) dest 0 0)
      (extractTar dest limit) _ _ := extractTar_spec limit
  have ht : Tally 0 0 w.ledger.counts := by
    rw [hw]
    exact ⟨Nat.le_refl 0, Nat.le_refl 0, Nat.le_refl 0⟩
  obtain ⟨c, hat, -⟩ := hs.ok ⟨_, ⟨hex, rfl⟩, ht⟩ hru
  exact hat.1.formed

/-- A tree with something below a file is not decoded. -/
theorem Decodes.filesAreLeaves (hfo : FreshFolder fs dest) (he : Encoded limit members)
    {sizes : List ℕ} (h : Decodes dest limit members (tarWorld fs dest members sizes))
    :
    FilesAreLeaves members := by
  obtain ⟨after, hr, -, ht, -⟩ := h
  have hf := hfo.formed_after rfl hr
  intro m hm hfi other hot hb
  by_cases hs : other.path = m.path
  · exact hs
  · have hn := tree_of_mem he.distinct hm (he.faithful m hm).path_ne_nil
    have ho := tree_of_mem he.distinct hot (he.faithful other hot).path_ne_nil
    rw [← ht] at hn ho
    have hd := hf.above ho ((prefix_append_right_inj dest).mpr hb)
      (fun heq => hs (append_cancel_left heq).symm)
    rw [hn] at hd
    rcases hc : m.content with _ | data
    · exact absurd hc hfi
    · rw [node, hc] at hd
      cases hd

/-- A header with a name only. -/
def plainFields (name : List UInt8) (hlength : name.length ≤ 100) (hzero : 0 ∉ name) :
    TarFields where
  name := name
  folder := []
  owner := List.replicate 24 0
  mtime := List.replicate 12 0
  link := List.replicate 188 0
  padding := List.replicate 12 0
  name_length := hlength
  name_zero := hzero
  folder_length := Nat.zero_le _
  folder_zero := List.not_mem_nil
  owner_length := List.length_replicate
  mtime_length := List.length_replicate
  link_length := List.length_replicate
  padding_length := List.length_replicate

/-- The directory `a`, with a long name and a path. -/
def namedTwice : Member where
  path := [[97]]
  content := none
  fields := plainFields [97] (by decide) (by decide)
  oldStyle := false
  long := some ⟨plainFields [97] (by decide) (by decide), [97], 1, by decide⟩
  pax := some ⟨plainFields [97] (by decide) (by decide),
    [⟨2, PaxRecord.pathKey, [97], by decide, by decide⟩]⟩
  longFirst := true

/-- The directory `b`, with the name of its header. -/
def namedByHeader : Member where
  path := [[98]]
  content := none
  fields := plainFields [98] (by decide) (by decide)
  oldStyle := false
  long := none
  pax := none
  longFirst := false

theorem faithful_namedTwice : namedTwice.Faithful where
  long record hrecord := by
    cases hrecord
    rfl
  pax name hname := by
    obtain rfl : [97] = name := some.inj hname
    rfl
  header hl _ := nomatch hl

theorem faithful_namedByHeader : namedByHeader.Faithful where
  long _ hrecord := nomatch hrecord
  pax _ hname := nomatch hname
  header _ _ := rfl

/-- The two directories, in whatever order. -/
theorem encoded_pair
    (h : members = [namedByHeader, namedTwice] ∨ members = [namedTwice, namedByHeader]) :
    Encoded maxExtractedBytes members ∧ FilesAreLeaves members := by
  have hme : ∀ m ∈ members, m = namedTwice ∨ m = namedByHeader := by
    rcases h with rfl | rfl
    · simp
    · simp
  refine ⟨⟨?_, ?_, ?_, ?_, ?_, ?_, ?_, ?_⟩, ?_⟩
  · intro m hm
    rcases hme m hm with rfl | rfl
    · exact faithful_namedTwice
    · exact faithful_namedByHeader
  · rcases h with rfl | rfl
    · decide
    · decide
  · rcases h with rfl | rfl
    · decide
    · decide
  · intro m hm r hr
    rcases hme m hm with rfl | rfl
    · cases hr
      decide
    · cases hr
  · intro m hm hdr hh
    rcases hme m hm with rfl | rfl
    · cases hh
      decide
    · cases hh
  · intro m hm
    rcases hme m hm with rfl | rfl
    · decide
    · decide
  · rcases h with rfl | rfl
    · decide
    · decide
  · rcases h with rfl | rfl
    · decide +kernel
    · decide +kernel
  · intro m hm hf
    rcases hme m hm with rfl | rfl
    · exact absurd rfl hf
    · exact absurd rfl hf

/-- A disk with the empty folder `d`. -/
def folderDisk : FileSystem := [([], .dir), ([[100]], .dir)]

theorem freshFolder_folderDisk : FreshFolder folderDisk [[100]] where
  formed p name node h := by
    have hm := mem_of_lookup h
    simp only [folderDisk, mem_cons, Prod.mk.injEq, not_mem_nil, or_false] at hm
    rcases hm with ⟨heq, -⟩ | ⟨heq, -⟩
    · simp at heq
    · obtain rfl : p = [] := by
        cases p with
        | nil => rfl
        | cons part p => simp at heq
      decide +kernel
  dir := by decide +kernel
  empty r hr := by
    rcases hn : getKey ([[100]] ++ r) folderDisk with _ | node
    · rfl
    · have hm := mem_of_lookup hn
      simp [folderDisk, hr] at hm

/-- The names of the entries of an extraction. -/
def namesAfter : EStateM.Result IoError World Unit → List Path
  | .ok _ after => after.ledger.names
  | .error _ after => after.ledger.names

end FocalDesk.Archive
