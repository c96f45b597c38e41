import FocalDesk.Library.Transition
import FocalDesk.Settings.File

/-! When the owners of `settings.json` lose nothing. -/
namespace FocalDesk.Settings
open Library List Option Function SettingsFile

variable {S : Type} {json : JsonText} {codec : SettingsCodec S} {accepts : Value → Bool}
  {text : Option (List UInt8)} {root initial : Option Root} {members : Root} {bytes : List UInt8}
  {config v : Value} {sections : S} {change : S → S} {operation op : Operation S}
  {phase : Phase S} {call : Call S} {saved : List (ℕ × Saved S)} {id other : ℕ}
  {s t : SettingsFile S}

theorem putKey_putKey : putKey desktopConfig config (putKey desktopConfig v members) =
    putKey desktopConfig config members := by
  simp [putKey, removeKey, filter_append]

/-! ### One call after the other -/

/-- What `load_settings` reads from an object. -/
def settingsOf (codec : SettingsCodec S) (root : Option Root) : Value × S :=
  match root.bind fun members => codec.read (.object members) with
  | some (config, sections) => (config, codec.sanitized sections)
  | none => (.null, codec.sanitized codec.defaults)

/-- What the file has after a call that was not interrupted. -/
def Saved.apply (codec : SettingsCodec S) (root : Option Root) : Saved S → Root
  | .config config | .migrated config => putKey desktopConfig config (root.getD [])
  | .modified change =>
    mergedRoot codec (settingsOf codec root).1 (change (settingsOf codec root).2) root

/-- What the file has after some calls, one after the other. -/
def current (codec : SettingsCodec S) (initial : Option Root) (saved : List (ℕ × Saved S)) :
    Option Root :=
  saved.foldl (fun root entry => some (entry.2.apply codec root)) initial

@[simp] theorem current_append (e : ℕ × Saved S) :
    current codec initial (saved ++ [e]) =
      some (e.2.apply codec (current codec initial saved)) := by
  simp [current]

theorem sections_put (config : Value) :
    (settingsOf codec (some (putKey desktopConfig config (root.getD [])))).2 =
      (settingsOf codec root).2 := by
  have hr := codec.read_put (root.getD []) config
  unfold settingsOf
  simp only [bind_some]
  cases root with
  | none =>
    rw [getD_none, codec.read_empty] at hr
    rw [getD_none]
    cases hf : codec.read (.object (putKey desktopConfig config [])) with
    | none => rw [hf] at hr; cases hr
    | some found =>
      rw [hf] at hr
      exact congrArg codec.sanitized (some.inj hr)
  | some members =>
    rw [getD_some] at hr
    rw [getD_some, bind_some]
    cases hf : codec.read (.object (putKey desktopConfig config members)) with
    | none =>
      rw [hf] at hr
      cases hr' : codec.read (.object members) with
      | none => rfl
      | some found => rw [hr'] at hr; cases hr
    | some found =>
      rw [hf] at hr
      cases hr' : codec.read (.object members) with
      | none => rw [hr'] at hr; cases hr
      | some found' =>
        rw [hr'] at hr
        exact congrArg codec.sanitized (some.inj hr)

theorem config_of_missing (h : getKey desktopConfig (root.getD []) = none) :
    (settingsOf codec root).1 = .null := by
  unfold settingsOf
  cases root with
  | none => rfl
  | some members =>
    rw [bind_some]
    rw [getD_some] at h
    cases hf : codec.read (.object members) with
    | none => rfl
    | some found =>
      have hc := codec.config_of_read members found.1 found.2 hf
      rw [h] at hc
      exact hc

theorem sections_merged : (settingsOf codec (some (mergedRoot codec config sections root))).2 =
    codec.sanitized sections := by
  have hr : (codec.read (.object (mergedRoot codec config sections root))).map Prod.snd =
      some (codec.sanitized sections) := by
    rw [mergedRoot, codec.read_put, codec.read_members]
  unfold settingsOf
  rw [bind_some]
  cases hf : codec.read (.object (mergedRoot codec config sections root)) with
  | none => rw [hf] at hr; cases hr
  | some found =>
    rw [hf] at hr
    have hs : found.2 = codec.sanitized sections := some.inj hr
    show codec.sanitized found.2 = _
    rw [hs, codec.sanitized_sanitized]

theorem config_merged : getKey desktopConfig (mergedRoot codec config sections root) =
    some ((root.bind (getKey desktopConfig)).getD config) := getKey_putKey_self

/-- A configuration that was loaded matters only where there is none. -/
theorem mergedRoot_eq (h : getKey desktopConfig (root.getD []) = none → config = .null) :
    mergedRoot codec config sections root =
      mergedRoot codec (settingsOf codec root).1 sections root := by
  unfold mergedRoot
  cases hf : getKey desktopConfig (root.getD []) with
  | none => rw [h hf, config_of_missing hf]
  | some found =>
    cases root with
    | none => cases hf
    | some members =>
      rw [getD_some] at hf
      rw [bind_some, hf, getD_some, getD_some]

/-! ### Texts -/

/-- The text of the file is one of the object, or both are missing. -/
def Shows (json : JsonText) (text : Option (List UInt8)) (root : Option Root) : Prop :=
  text.map json.decode = root.map fun members => some (.object members)

theorem Shows.loadSettings (h : Shows json text root) :
    loadSettings json codec text = settingsOf codec root := by
  unfold Settings.loadSettings settingsOf
  unfold Shows at h
  cases text with
  | none =>
    cases root with
    | none => rfl
    | some members => cases h
  | some bytes =>
    cases root with
    | none => cases h
    | some members =>
      rw [bind_some, some.inj h]
      rfl

theorem Shows.readRoot (h : Shows json text root) : readRoot json text = .ok root := by
  unfold Shows at h
  cases text with
  | none =>
    cases root with
    | none => rfl
    | some members => cases h
  | some bytes =>
    cases root with
    | none => cases h
    | some members =>
      have hd : json.decode bytes = some (.object members) := some.inj h
      unfold Settings.readRoot
      simp only [hd, Value.asObject]

theorem Shows.misreads (h : Shows json text root) : misreads json text = false := by
  unfold Shows at h
  cases text with
  | none => rfl
  | some bytes =>
    cases root with
    | none => cases h
    | some members =>
      have hd : json.decode bytes = some (.object members) := some.inj h
      simp [Settings.misreads, hd]

theorem shows_encoded (h : json.encode members = .ok bytes) :
    Shows json (some bytes) (some members) :=
  congrArg some (json.decode_encode members bytes h)

/-! ### Runs -/

/-- The handle is open and the text is not complete. -/
def Call.torn (call : Call S) : Bool :=
  match call.phase with
  | .writing .. => true
  | _ => false

/-- Text that depends on the configuration in the file is made, and not written yet. -/
def Call.merging (call : Call S) : Bool :=
  match call.phase with
  | .merged .. | .writing .. => true
  | _ => false

/-- The call read the file and is going to write what it made of it. -/
def Call.pending (call : Call S) : Bool :=
  match call.phase with
  | .loaded .. | .merged .. | .writing .. | .rooted .. => true
  | _ => false

/-- A migration found no configuration and is going to write the old one. -/
def Call.migrating (call : Call S) : Bool :=
  match call.operation, call.phase with
  | .saveConfig _, _ => false
  | _, .rooted .. => true
  | _, _ => false

def Others (s : SettingsFile S) (id : ℕ) (p : Call S → Prop) : Prop :=
  ∀ other call, getKey other s.calls = some call → other ≠ id → p call

/-- The step does not read what is half written, and does not write what another call overwrites:
nothing is opened while another call is going to write what it read before, and no configuration is
renamed while another call is going to write over the one that it read. -/
def Harmless (s : SettingsFile S) : FileStep S → Prop
  | .load id | .read id => Others s id fun call => call.torn = false
  | .truncate id => Others s id fun call => call.pending = false
  | .rename id => Others s id fun call => call.merging = false ∧
      ∀ config phase, getKey id s.calls = some ⟨.saveConfig config, phase⟩ → call.migrating = false
  | _ => True

/-- What the calls that returned have put into the file. -/
def Returned (saved : List (ℕ × Saved S)) (id : ℕ) : Operation S → Prop
  | .saveConfig config => (id, .config config) ∈ saved
  | .modify change => (id, .modified change) ∈ saved
  | _ => True

/-- No configuration was saved. -/
def Unsaved (saved : List (ℕ × Saved S)) : Prop :=
  ∀ entry ∈ saved, ∀ config, entry.2 ≠ .config config

/-- No old configuration was written after one that was saved. -/
def Ordered (saved : List (ℕ × Saved S)) : Prop :=
  saved.Pairwise fun earlier later =>
    (∃ config, earlier.2 = .config config) → ∀ config, later.2 ≠ .migrated config

/-- What a call knows of the file in its phase. -/
def Call.Knows (json : JsonText) (codec : SettingsCodec S) (disk : Disk) (root : Option Root)
    (saved : List (ℕ × Saved S)) (id : ℕ) (call : Call S) : Prop :=
  match call.phase with
  | .loaded config sections => ∃ change, call.operation = .modify change ∧
      sections = change (settingsOf codec root).2 ∧
        (getKey desktopConfig (root.getD []) = none → config = .null)
  | .merged bytes => ∃ change, call.operation = .modify change ∧
      json.encode (Saved.apply codec root (.modified change)) = .ok bytes
  | .writing inode rest => ∃ change, call.operation = .modify change ∧
      disk.file = some inode ∧
        json.encode (Saved.apply codec root (.modified change)) = .ok (disk.contents inode ++ rest)
  | .rooted config bytes => json.encode (putKey desktopConfig config (root.getD [])) = .ok bytes ∧
      (call.operation = .saveConfig config ∨
        (∀ config, call.operation ≠ .saveConfig config) ∧
          (∀ change, call.operation ≠ .modify change) ∧ Unsaved saved)
  | .returned (.ok ()) => Returned saved id call.operation
  | _ => True

/-- The file is what the calls make of it one after the other, unless one is writing, and then the
others hold nothing that they read. -/
structure Sound (json : JsonText) (codec : SettingsCodec S) (initial : Option Root)
    (s : SettingsFile S) : Prop where
  shows : (∀ id call, getKey id s.calls = some call → call.torn = false) →
    Shows json s.disk.text (current codec initial s.saved)
  misread : s.misread = []
  ordered : Ordered s.saved
  knows : ∀ id call, getKey id s.calls = some call →
    call.Knows json codec s.disk (current codec initial s.saved) s.saved id
  alone : ∀ id call, getKey id s.calls = some call → call.torn = true →
    Others s id fun call => call.pending = false

/-- A call that does not touch the file goes on. -/
theorem Sound.put (h : Sound json codec initial s)
    (hk : Call.Knows json codec s.disk (current codec initial s.saved) s.saved id
      ⟨op, phase⟩)
    (hn : Call.torn ⟨op, phase⟩ = false)
    (hw : ∀ call, getKey id s.calls = some call → call.torn = false)
    (hp : Call.pending ⟨op, phase⟩ → Others s id fun call => call.torn = false) :
    Sound json codec initial (s.put id op phase) where
  shows hquiet := by
    refine h.shows fun other call hcall => ?_
    by_cases heq : other = id
    · subst heq
      exact hw call hcall
    · exact hquiet other call ((getKey_putKey_of_ne heq).trans hcall)
  misread := h.misread
  ordered := h.ordered
  knows other call hcall := by
    by_cases heq : other = id
    · subst heq
      obtain rfl := some.inj (getKey_putKey_self.symm.trans hcall)
      exact hk
    · exact h.knows other call ((getKey_putKey_of_ne heq).symm.trans hcall)
  alone other call hcall htorn := by
    by_cases heq : other = id
    · subst heq
      obtain rfl := some.inj (getKey_putKey_self.symm.trans hcall)
      rw [hn] at htorn
      cases htorn
    · have hs := (getKey_putKey_of_ne heq).symm.trans hcall
      intro third call' hcall' hne
      by_cases ht : third = id
      · subst ht
        obtain rfl := some.inj (getKey_putKey_self.symm.trans hcall')
        by_contra hpe
        rw [Bool.not_eq_false] at hpe
        rw [hp hpe other call hs heq] at htorn
        cases htorn
      · exact h.alone other call hs htorn third call'
          ((getKey_putKey_of_ne ht).symm.trans hcall') hne

/-- Calls that hold nothing know of the file only what they saved. -/
theorem Call.Knows.of_not_pending {disk disk' : Disk} {root root' : Option Root}
    {saved' : List (ℕ × Saved S)} (h : call.Knows json codec disk root saved id)
    (hp : call.pending = false) (hs : saved ⊆ saved') :
    call.Knows json codec disk' root' saved' id := by
  obtain ⟨op, phase⟩ := call
  cases phase with
  | returned res =>
    cases res with
    | ok =>
      cases op with
      | saveConfig config => exact hs h
      | modify change => exact hs h
      | _ => trivial
    | error => trivial
  | loaded | merged | writing | rooted => cases hp
  | _ => trivial

/-- The only call that holds what it read goes on to write. -/
theorem Sound.alone_step (h : Sound json codec initial s)
    (ho : Others s id fun call => call.pending = false) {disk : Disk} (saved : List (ℕ × Saved S))
    (hsa : s.saved ⊆ saved) (hor : Ordered saved)
    (hk : Call.Knows json codec disk (current codec initial saved) saved id ⟨op, phase⟩)
    (hsh : Call.torn ⟨op, phase⟩ = false →
      Shows json disk.text (current codec initial saved)) :
    Sound json codec initial ({ s with disk, saved }.put id op phase) where
  shows hquiet := hsh (hquiet id _ getKey_putKey_self)
  misread := h.misread
  ordered := hor
  knows other call hcall' := by
    by_cases heq : other = id
    · subst heq
      obtain rfl := some.inj (getKey_putKey_self.symm.trans hcall')
      exact hk
    · have hs := (getKey_putKey_of_ne heq).symm.trans hcall'
      exact (h.knows other call hs).of_not_pending (ho other call hs heq) hsa
  alone other call hcall' htorn := by
    intro third call' ht hne
    by_cases heq : third = id
    · subst heq
      have hs := (getKey_putKey_of_ne hne.symm).symm.trans hcall'
      have hp := ho other call hs hne.symm
      obtain ⟨op, phase⟩ := call
      cases phase with
      | writing => cases hp
      | _ => cases htorn
    · exact ho third call' ((getKey_putKey_of_ne heq).symm.trans ht) heq

/-- The file can be read while nobody writes. -/
theorem Sound.shows_of_others (h : Sound json codec initial s) (hc : getKey id s.calls = some call)
    (hn : call.torn = false) (ho : Others s id fun call => call.torn = false) :
    Shows json s.disk.text (current codec initial s.saved) := by
  refine h.shows fun other call' hc' => ?_
  by_cases heq : other = id
  · subst heq
    obtain rfl := some.inj (hc.symm.trans hc')
    exact hn
  · exact ho other call' hc' heq

theorem noted_eq (h : misreads json s.disk.text = false) : s.noted json id = s := by
  unfold noted
  rw [h]
  rfl

theorem Sound.load (h : Sound json codec initial s)
    (hc : getKey id s.calls = some ⟨op, .started⟩)
    (ho : Others s id fun call => call.torn = false)
    (hl : s.load json codec accepts id op = some t) : Sound json codec initial t := by
  have hs := h.shows_of_others hc rfl ho
  have hw : ∀ call, getKey id s.calls = some call → call.torn = false := by
    intro call hsa
    obtain rfl := some.inj (hc.symm.trans hsa)
    rfl
  unfold SettingsFile.load at hl
  rw [noted_eq hs.misreads] at hl
  cases op with
  | saveConfig | migrate => cases hl
  | loadConfig =>
    cases hl
    split_ifs
    · exact h.put trivial rfl hw fun hp => by cases hp
    · exact h.put trivial rfl hw fun hp => by cases hp
  | loadSettings =>
    cases hl
    exact h.put trivial rfl hw fun hp => by cases hp
  | modify change =>
    cases hl
    rw [hs.loadSettings]
    exact h.put ⟨change, rfl, rfl, config_of_missing⟩ rfl hw fun _ => ho

theorem exists_config (codec : SettingsCodec S) (root : Option Root) (e : Saved S) :
    ∃ config, getKey desktopConfig (e.apply codec root) = some config := by
  cases e with
  | config config => exact ⟨config, getKey_putKey_self⟩
  | migrated config => exact ⟨config, getKey_putKey_self⟩
  | modified change => exact ⟨_, config_merged⟩

/-- Where no configuration is in the file nothing was written. -/
theorem unsaved_of_missing (h : getKey desktopConfig ((current codec initial saved).getD []) = none)
    : Unsaved saved := by
  rcases eq_nil_or_concat saved with rfl | ⟨pre, e, rfl⟩
  · exact fun _ hm => absurd hm not_mem_nil
  · obtain ⟨config, hc⟩ := exists_config codec (current codec initial pre) e.2
    rw [concat_eq_append, current_append, getD_some, hc] at h
    cases h

theorem Sound.migrated (h : Sound json codec initial s)
    (hca : getKey id s.calls = some ⟨op, phase⟩) (hn : Call.torn ⟨op, phase⟩ = false)
    (ho : Others s id fun call => call.torn = false) (hc : ∀ config, op ≠ .saveConfig config)
    (hmo : ∀ change, op ≠ .modify change) (hre : Returned s.saved id op) :
    Sound json codec initial (s.migrated json id op) := by
  have hsh := h.shows_of_others hca hn ho
  have hw : ∀ call, getKey id s.calls = some call → call.torn = false := by
    intro call hsa
    obtain rfl := some.inj (hca.symm.trans hsa)
    exact hn
  unfold SettingsFile.migrated migrationText
  split
  next config bytes hm =>
    split at hm
    · cases hm
    · cases hm
    · rw [hsh.readRoot] at hm
      obtain ⟨old, he, hr⟩ := bind_eq_ok.mp hm
      cases he
      split_ifs at hr with hs
      · cases hr
      · obtain ⟨enc, hen, heq⟩ := bind_eq_ok.mp hr
        cases heq
        rw [not_isSome_iff_eq_none] at hs
        exact h.put ⟨hen, Or.inr ⟨hc, hmo, unsaved_of_missing hs⟩⟩ rfl hw fun _ => ho
  next => exact h.put hre rfl hw fun hp => by cases hp
  next => exact h.put trivial rfl hw fun hp => by cases hp

theorem Sound.read (h : Sound json codec initial s) (hc : getKey id s.calls = some call)
    (ho : Others s id fun call => call.torn = false) (hr : s.read json codec id call = some t)
    : Sound json codec initial t := by
  have hw {op : Operation S} {phase : Phase S}
      (hc : getKey id s.calls = some ⟨op, phase⟩)
      (hn : Call.torn ⟨op, phase⟩ = false) :
      ∀ call, getKey id s.calls = some call → call.torn = false := by
    intro call hsa
    obtain rfl := some.inj (hc.symm.trans hsa)
    exact hn
  unfold SettingsFile.read at hr
  split at hr
  next config =>
    have hs := h.shows_of_others hc rfl ho
    cases hr
    rw [configText, hs.readRoot]
    split
    next bytes ht =>
      exact h.put ⟨ht, Or.inl rfl⟩ rfl (hw hc rfl) fun _ => ho
    next => exact h.put trivial rfl (hw hc rfl) fun hp => by cases hp
  next =>
    cases hr
    exact h.migrated hc rfl ho (fun _ heq => by cases heq) (fun _ heq => by cases heq) trivial
  next =>
    cases hr
    exact h.migrated hc rfl ho (fun _ heq => by cases heq) (fun _ heq => by cases heq) trivial
  next change config sections =>
    have hs := h.shows_of_others hc rfl ho
    cases hr
    obtain ⟨ch', hch, hse, hco⟩ := h.knows id _ hc
    cases hch
    rw [mergedSettingsJson, hs.readRoot]
    split
    next bytes ht =>
      refine h.put ⟨change, rfl, ?_⟩ rfl (hw hc rfl) fun _ => ho
      rw [Saved.apply, ← hse, ← mergedRoot_eq hco]
      exact ht
    next => exact h.put trivial rfl (hw hc rfl) fun hp => by cases hp
  next => cases hr

theorem ordered_append {e : ℕ × Saved S} (h : Ordered saved)
    (he : ∀ config, e.2 = .migrated config → Unsaved saved) :
    Ordered (saved ++ [e]) := by
  refine pairwise_append.mpr ⟨h, pairwise_singleton .., fun pre hm later hl => ?_⟩
  rw [mem_singleton.mp hl]
  rintro ⟨config, hc⟩ found hf
  exact he found hf pre hm config hc

theorem truncate_spec (disk : Disk) :
    disk.truncate.1.file = some disk.truncate.2 ∧
      disk.truncate.1.contents disk.truncate.2 = [] := by
  unfold Disk.truncate
  split
  next inode hi => exact ⟨hi, update_self ..⟩
  next => exact ⟨rfl, update_self ..⟩

theorem Sound.truncate (h : Sound json codec initial s)
    (hc : getKey id s.calls = some ⟨op, .merged bytes⟩)
    (ho : Others s id fun call => call.pending = false) :
    Sound json codec initial ({ s with disk := s.disk.truncate.1 }.put id op
      (.writing s.disk.truncate.2 bytes)) := by
  obtain ⟨change, hop, he⟩ := h.knows id _ hc
  obtain ⟨hf, hem⟩ := truncate_spec s.disk
  refine h.alone_step ho s.saved (List.Subset.refl _) h.ordered ⟨change, hop, hf, ?_⟩
    fun ht => by cases ht
  rw [hem, nil_append]
  exact he

theorem Sound.write (h : Sound json codec initial s) {inode count : ℕ} {rest : List UInt8}
    (hc : getKey id s.calls = some ⟨op, .writing inode rest⟩) :
    Sound json codec initial ({ s with disk := s.disk.append inode (rest.take count) }.put id
      op (.writing inode (rest.drop count))) := by
  obtain ⟨change, hop, hf, he⟩ := h.knows id _ hc
  refine h.alone_step (h.alone id _ hc rfl) s.saved (List.Subset.refl _) h.ordered
    ⟨change, hop, hf, ?_⟩ fun ht => by cases ht
  show json.encode _ = .ok (update s.disk.contents inode _ inode ++ _)
  rw [update_self, append_assoc, take_append_drop]
  exact he

theorem Sound.close (h : Sound json codec initial s) {inode : ℕ}
    (hc : getKey id s.calls = some ⟨.modify change, .writing inode []⟩) :
    Sound json codec initial ({ s with saved := s.saved ++ [(id, Saved.modified change)] }.put id
      (.modify change) (.returned (.ok ()))) := by
  obtain ⟨ch', hop, hf, he⟩ := h.knows id _ hc
  cases hop
  rw [append_nil] at he
  refine h.alone_step (h.alone id _ hc rfl) _ (subset_append_left ..)
    (ordered_append h.ordered fun _ heq => by cases heq)
    (mem_append_right _ (mem_singleton_self _)) fun _ => ?_
  rw [current_append, Disk.text, hf]
  exact shows_encoded he

/-- A call that the rename of another one's configuration does not touch. -/
theorem Call.Knows.of_rename {disk disk' : Disk} (hno : call.merging = false)
    (h : call.Knows json codec disk root saved other) (entry : Saved S)
    (hc : (∃ config, entry = .config config) → call.migrating = false) :
    call.Knows json codec disk' (some (putKey desktopConfig config (root.getD [])))
      (saved ++ [(id, entry)]) other := by
  obtain ⟨op, phase⟩ := call
  cases phase with
  | loaded found sections =>
    obtain ⟨change, hop, hs, -⟩ := h
    refine ⟨change, hop, by rw [sections_put]; exact hs, fun hn => ?_⟩
    rw [getD_some, getKey_putKey_self] at hn
    cases hn
  | rooted found bytes =>
    obtain ⟨he, hop⟩ := h
    refine ⟨by rwa [getD_some, putKey_putKey], hop.imp_right fun ho => ?_⟩
    refine ⟨ho.1, ho.2.1, fun e hme => ?_⟩
    rcases mem_append.mp hme with hold | hne
    · exact ho.2.2 e hold
    · rw [mem_singleton.mp hne]
      intro saved heq
      have hm := hc ⟨saved, heq⟩
      cases op with
      | saveConfig config => exact ho.1 config rfl
      | _ => cases hm
  | merged | writing => cases hno
  | returned res => exact h.of_not_pending rfl (subset_append_left ..)
  | _ => trivial

theorem Sound.rename (h : Sound json codec initial s)
    (hc : getKey id s.calls = some ⟨op, .rooted config bytes⟩)
    (ho : Others s id fun call => call.merging = false ∧
      ∀ config phase, getKey id s.calls = some ⟨.saveConfig config, phase⟩ →
        call.migrating = false) :
    Sound json codec initial ({ s with
      disk := s.disk.rename bytes
      saved := s.saved ++ [(id, op.saves config)] }.put id op
        (.returned (.ok ()))) := by
  obtain ⟨he, hop⟩ := h.knows id _ hc
  have ha : (op.saves config).apply codec (current codec initial s.saved) =
      putKey desktopConfig config ((current codec initial s.saved).getD []) := by
    cases op <;> rfl
  have ho' {other : ℕ} {call : Call S}
      (hc' : getKey other (putKey id ⟨op, .returned (.ok ())⟩ s.calls) = some call)
      (hne : other ≠ id) : getKey other s.calls = some call :=
    (getKey_putKey_of_ne hne).symm.trans hc'
  refine ⟨fun _ => ?_, h.misread, ordered_append h.ordered fun found hf => ?_,
    fun other call hc' => ?_, fun other call hc' ht => ?_⟩
  · show Shows json (some (update s.disk.contents s.disk.inodes bytes s.disk.inodes))
      (current codec initial (s.saved ++ [(id, op.saves config)]))
    rw [update_self, current_append, ha]
    exact shows_encoded he
  · rcases hop with rfl | ⟨-, -, hu⟩
    · cases hf
    · exact hu
  · show call.Knows json codec _ (current codec initial (s.saved ++ [(id, _)])) _ other
    rw [current_append, ha]
    by_cases heq : other = id
    · subst heq
      obtain rfl := some.inj (getKey_putKey_self.symm.trans hc')
      show Returned _ _ op
      rcases hop with rfl | ⟨hco, hmo, -⟩
      · exact mem_append_right _ (mem_singleton_self _)
      · cases op with
        | saveConfig config => exact absurd rfl (hco config)
        | modify change => exact absurd rfl (hmo change)
        | _ => trivial
    · obtain ⟨hm, hmi⟩ := ho other call (ho' hc' heq) heq
      refine (h.knows other call (ho' hc' heq)).of_rename hm _ fun hs => ?_
      cases op with
      | saveConfig config => exact hmi config _ hc
      | _ =>
        obtain ⟨_, hs⟩ := hs
        cases hs
  · by_cases heq : other = id
    · subst heq
      obtain rfl := some.inj (getKey_putKey_self.symm.trans hc')
      cases ht
    · have hm := (ho other call (ho' hc' heq) heq).1
      obtain ⟨op, phase⟩ := call
      cases phase with
      | writing => cases hm
      | _ => cases ht

theorem sound_step {e : FileStep S} (hs : s.step json codec accepts e = some t) (hok : Harmless s e)
    (h : Sound json codec initial s) : Sound json codec initial t := by
  cases e with
  | begin id op =>
    simp only [step] at hs
    split_ifs at hs with hn
    cases hs
    refine h.put trivial rfl (fun call hc => ?_) fun hp => by cases hp
    rw [hc] at hn
    cases hn
  | load id =>
    simp only [step] at hs
    split at hs
    next op hc => exact h.load hc hok hs
    next => cases hs
  | read id =>
    obtain ⟨call, hc, hr⟩ := bind_eq_some_iff.mp hs
    exact h.read hc hok hr
  | truncate id =>
    simp only [step] at hs
    split at hs
    next op bytes hc =>
      cases hs
      exact h.truncate hc hok
    next => cases hs
  | write id count =>
    simp only [step] at hs
    split at hs
    next op inode rest hc =>
      cases hs
      exact h.write hc
    next => cases hs
  | close id =>
    simp only [step] at hs
    split at hs
    next change inode hc =>
      cases hs
      exact h.close hc
    next => cases hs
  | rename id =>
    simp only [step] at hs
    split at hs
    next op config bytes hc =>
      cases hs
      exact h.rename hc hok
    next => cases hs

theorem sound_start {file : Option (List UInt8)} {legacy : Option (Except String Value)}
    (hf : Shows json file initial) :
    Sound json codec initial (start file legacy) where
  shows _ := by
    cases file with
    | none => exact hf
    | some bytes => exact hf
  misread := rfl
  ordered := List.Pairwise.nil
  knows _ _ hcall := by cases hcall
  alone _ _ hcall := by cases hcall

/-! ### What the file has in the end -/

/-- A change does not touch a field. -/
def Leaves {α : Type} (codec : SettingsCodec S) (field : S → α) (change : S → S) : Prop :=
  ∀ sections, field (codec.sanitized (change (codec.sanitized sections))) =
    field (codec.sanitized sections)

theorem current_cons (pre : List (ℕ × Saved S)) (e : ℕ × Saved S) (after : List (ℕ × Saved S))
    : current codec initial (pre ++ e :: after) =
      current codec (some (e.2.apply codec (current codec initial pre))) after := by
  rw [current, foldl_append, foldl_cons]
  rfl

theorem exists_sanitized (codec : SettingsCodec S) (root : Option Root) :
    ∃ sections, (settingsOf codec root).2 = codec.sanitized sections := by
  unfold settingsOf
  split
  · exact ⟨_, rfl⟩
  · exact ⟨_, rfl⟩

theorem config_kept (codec : SettingsCodec S) (members : Root) {after : List (ℕ × Saved S)}
    (ha : ∀ e ∈ after, ∃ change, e.2 = .modified change)
    (h : getKey desktopConfig members = some config) :
    ∃ final, current codec (some members) after = some final ∧
      getKey desktopConfig final = some config := by
  induction after generalizing members with
  | nil => exact ⟨members, rfl, h⟩
  | cons e after ih =>
    obtain ⟨⟨change, hc⟩, ha⟩ := forall_mem_cons.mp ha
    refine ih (e.2.apply codec (some members)) ha ?_
    rw [hc, Saved.apply, config_merged, bind_some, h, getD_some]

theorem field_kept {α : Type} (root : Option Root) {fld : S → α} {after : List (ℕ × Saved S)}
    (ha : ∀ e ∈ after, ∀ change, e.2 = .modified change → Leaves codec fld change) :
    fld (settingsOf codec (current codec root after)).2 = fld (settingsOf codec root).2 := by
  induction after generalizing root with
  | nil => rfl
  | cons e after ih =>
    obtain ⟨he, ha⟩ := forall_mem_cons.mp ha
    refine (ih (some (e.2.apply codec root)) ha).trans ?_
    cases hsa : e.2 with
    | config config => exact congrArg fld (sections_put config)
    | migrated config => exact congrArg fld (sections_put config)
    | modified change =>
      obtain ⟨sections, hs⟩ := exists_sanitized codec root
      rw [Saved.apply, sections_merged, hs]
      exact he change hsa sections

/-- The file is an object, with the configuration that was saved last, and with what every change
made of the settings before it in the fields that no later one touches. -/
def LosesNothing (json : JsonText) (codec : SettingsCodec S) (initial : Option Root)
    (s : SettingsFile S) : Prop :=
  (s.saved ≠ [] → ∃ bytes members, s.disk.text = some bytes ∧
    json.decode bytes = some (.object members)) ∧
  (∀ before id config after, s.saved = before ++ (id, .config config) :: after → Unsaved after →
    ∃ bytes members, s.disk.text = some bytes ∧ json.decode bytes = some (.object members) ∧
      getKey desktopConfig members = some config) ∧
  ∀ before id change after, s.saved = before ++ (id, .modified change) :: after →
    ∀ (α : Type) (field : S → α),
      (∀ entry ∈ after, ∀ change, entry.2 = .modified change → Leaves codec field change) →
        field (loadSettings json codec s.disk.text).2 =
          field (codec.sanitized (change (settingsOf codec (current codec initial before)).2))

theorem Shows.exists_bytes (h : Shows json text (some members)) :
    ∃ bytes, text = some bytes ∧ json.decode bytes = some (.object members) := by
  unfold Shows at h
  cases text with
  | none => cases h
  | some bytes => exact ⟨bytes, rfl, some.inj h⟩

theorem Sound.losesNothing (h : Sound json codec initial s)
    (hq : ∀ id call, getKey id s.calls = some call → call.torn = false) :
    LosesNothing json codec initial s := by
  have hs := h.shows hq
  refine ⟨fun hsa => ?_, fun before id config after hsa ha => ?_,
    fun before id change after hsa α fld ha => ?_⟩
  · obtain ⟨pre, e, hen⟩ := eq_nil_or_concat s.saved |>.resolve_left hsa
    rw [hen, concat_eq_append, current_append] at hs
    obtain ⟨bytes, ht, hd⟩ := hs.exists_bytes
    exact ⟨bytes, _, ht, hd⟩
  · have hm : ∀ e ∈ after, ∃ change, e.2 = .modified change := by
      intro e hme
      have ho := h.ordered
      rw [hsa] at ho
      have hl := rel_of_pairwise_cons (pairwise_append.mp ho).2.1 hme
      cases he : e.2 with
      | config found => exact absurd he (ha e hme found)
      | migrated found => exact absurd he (hl ⟨config, rfl⟩ found)
      | modified change => exact ⟨change, rfl⟩
    rw [hsa, current_cons] at hs
    obtain ⟨final, hf, hc⟩ := config_kept codec
      (Saved.apply codec (current codec initial before) (.config config)) hm
      getKey_putKey_self
    rw [hf] at hs
    obtain ⟨bytes, ht, hd⟩ := hs.exists_bytes
    exact ⟨bytes, final, ht, hd, hc⟩
  · rw [hs.loadSettings, hsa, current_cons, field_kept _ ha]
    exact congrArg fld sections_merged

/-- A modification that has made its text. -/
def merging (change : S → S) (config : Value) (sections : S) (bytes : List UInt8) :
    SettingsFile S :=
  (((SettingsFile.start none none).put 0 (.modify change) .started).put 0 (.modify change)
    (.loaded config (change sections))).put 0 (.modify change) (.merged bytes)

theorem read_modify (h : mergedSettingsJson json codec config sections s.disk.text = .ok bytes) :
    s.read json codec id ⟨.modify change, .loaded config sections⟩ =
      some (s.put id (.modify change) (.merged bytes)) := by
  simp only [SettingsFile.read, h]

variable (json : JsonText)

theorem run_merging (codec : SettingsCodec S) (accepts : Value → Bool) (change : S → S)
    (he : json.encode (mergedRoot codec .null
      (change (codec.sanitized codec.defaults)) none) = .ok bytes) :
    run (step json codec accepts) (.start none none)
      [.begin 0 (.modify change), .load 0, .read 0] =
        some (merging change .null (codec.sanitized codec.defaults) bytes) := by
  have ht : mergedSettingsJson json codec .null (change (codec.sanitized codec.defaults)) none =
      .ok bytes := he
  refine run_cons_eq_some.mpr ⟨_, rfl, run_cons_eq_some.mpr ⟨_, rfl, run_cons_eq_some.mpr
    ⟨_, ?_, rfl⟩⟩⟩
  exact read_modify ht

/-- A modification that has written its text. -/
def written (change : S → S) (bytes : List UInt8) : SettingsFile S where
  disk := ⟨some 1, Function.update (fun _ => []) 1 bytes, 2⟩
  legacy := none
  calls := [(0, ⟨.modify change, .returned (.ok ())⟩)]
  saved := [(0, .modified change)]
  misread := []

theorem run_written (codec : SettingsCodec S) (accepts : Value → Bool) (change : S → S)
    (config : Value) (sections : S) (bytes : List UInt8) :
    run (step json codec accepts) (merging change config sections bytes)
      [.truncate 0, .write 0 bytes.length, .close 0] = some (written change bytes) := by
  refine run_cons_eq_some.mpr ⟨_, rfl, run_cons_eq_some.mpr ⟨({
    disk := ⟨some 1, update (fun _ => []) 1 bytes, 2⟩
    legacy := none
    calls := [(0, ⟨.modify change, .writing 1 []⟩)]
    saved := []
    misread := [] } : SettingsFile S), congrArg some ?_, run_cons_eq_some.mpr ⟨_, rfl, rfl⟩⟩⟩
  show SettingsFile.mk (⟨some 1, update (update (fun _ => []) 1 []) 1
    (update (fun _ => []) 1 [] 1 ++ bytes.take bytes.length), 2⟩ : Disk) none
      [(0, ⟨.modify change, .writing 1 (bytes.drop bytes.length)⟩)] [] [] = _
  rw [take_length, drop_length, update_idem, update_self, nil_append]

theorem others_of_single {p : Call S → Prop} (h : s.calls = [(id, call)]) : Others s id p := by
  intro other found hf hne
  rw [h] at hf
  have hn : getKey other [(id, call)] = none := by
    simpa [getKey] using hne
  rw [hn] at hf
  cases hf

theorem meets_merging (codec : SettingsCodec S) (accepts : Value → Bool) (change : S → S) :
    Meets (step json codec accepts) Harmless (.start none none)
      [.begin 0 (.modify change), .load 0, .read 0] :=
  .cons trivial rfl (.cons (others_of_single rfl) rfl (.cons (others_of_single rfl) rfl trivial))

theorem meets_written (codec : SettingsCodec S) (accepts : Value → Bool) (change : S → S)
    (config : Value) (sections : S) (bytes : List UInt8) :
    Meets (step json codec accepts) Harmless (merging change config sections bytes)
      [.truncate 0, .write 0 bytes.length, .close 0] :=
  .cons (others_of_single rfl) rfl (.cons trivial rfl ⟨trivial, fun _ _ => trivial⟩)

/-- A modification of a missing file has emptied the one that it made when the settings are
loaded. -/
theorem half_written_read (codec : SettingsCodec S) (accepts : Value → Bool) (change : S → S)
    (hem : json.decode [] = none) (he : json.encode (mergedRoot codec .null
      (change (codec.sanitized codec.defaults)) none) = .ok bytes) :
    ∃ s, run (step json codec accepts) (.start none none)
      ([.begin 0 (.modify change), .load 0, .read 0] ++ [.truncate 0, .begin 1 .loadSettings,
        .load 1]) = some s ∧ s.misread = [1] := by
  refine ⟨_, run_append_eq_some.mpr ⟨_, run_merging json codec accepts change he, rfl⟩, ?_⟩
  show (if misreads json (some []) then [1] else []) = [1]
  rw [misreads, any_some, hem]
  rfl

/-! ### A sample -/

def sampleStart : String := "\x7b\n  \"debug\": \x7b\n    \"show_fps\": "

def sampleEnd : String := "\n  \x7d,\n  \"desktop_config\": null\n\x7d\n"

/-- The text that is written for the settings of one switch. -/
def sampleText (shown : Bool) : String :=
  sampleStart ++ (if shown then "true" else "false") ++ sampleEnd

def sampleBytes (shown : Bool) : List UInt8 :=
  (sampleText shown).toList.map fun c => UInt8.ofNat c.toNat

def sampleRoot (shown : Bool) : Root :=
  [("debug", .object [("show_fps", .bool shown)]), (desktopConfig, .null)]

def sampleEncode : Root → Except String (List UInt8)
  | [(debug, .object [(field, .bool shown)]), (config, .null)] =>
    if debug = "debug" ∧ field = "show_fps" ∧ config = desktopConfig then .ok (sampleBytes shown)
    else .error "not in the sample"
  | _ => .error "not in the sample"

def sampleDecode (bytes : List UInt8) : Option Value :=
  if bytes = sampleBytes true then some (.object (sampleRoot true))
  else if bytes = sampleBytes false then some (.object (sampleRoot false)) else none

theorem sampleBytes_ne : sampleBytes false ≠ sampleBytes true := by
  have hf : "false".toList.length = 5 := by rw [String.toList_ofList]; rfl
  have ht : "true".toList.length = 4 := by rw [String.toList_ofList]; rfl
  intro heq
  have hl := congrArg List.length heq
  simp only [sampleBytes, sampleText, length_map, String.toList_append, length_append,
    Bool.false_eq_true, if_false, if_true, hf, ht] at hl
  omega

theorem sampleBytes_ne_nil (shown : Bool) : [] ≠ sampleBytes shown := by
  intro heq
  rw [sampleBytes, sampleText, String.toList_append, map_append, sampleEnd,
    String.toList_ofList] at heq
  exact absurd (append_eq_nil_iff.mp heq.symm).2 (cons_ne_nil _ _)

theorem sampleDecode_nil : sampleDecode [] = none := by
  rw [sampleDecode, if_neg (sampleBytes_ne_nil true), if_neg (sampleBytes_ne_nil false)]

theorem sampleDecode_bytes (shown : Bool) :
    sampleDecode (sampleBytes shown) = some (.object (sampleRoot shown)) := by
  unfold sampleDecode
  cases shown with
  | true => rw [if_pos rfl]
  | false => rw [if_neg sampleBytes_ne, if_pos rfl]

theorem sampleEncode_eq (h : sampleEncode members = .ok bytes) :
    ∃ shown, members = sampleRoot shown ∧ bytes = sampleBytes shown := by
  unfold sampleEncode at h
  split at h
  next debug field shown config =>
    split_ifs at h with hn
    obtain ⟨rfl, rfl, rfl⟩ := hn
    exact ⟨shown, rfl, (Except.ok.inj h).symm⟩
  next => cases h

def sampleJson : JsonText where
  encode := sampleEncode
  decode := sampleDecode
  decode_encode root bytes h := by
    obtain ⟨shown, rfl, rfl⟩ := sampleEncode_eq h
    exact sampleDecode_bytes shown

/-- The switch, which may be missing. -/
def sampleShown (members : Root) : Option Bool :=
  match getKey "debug" members with
  | none => some false
  | some (.object section_) =>
    match getKey "show_fps" section_ with
    | none => some false
    | some (.bool shown) => some shown
    | some _ => none
  | some _ => none

def sampleRead : Value → Option (Value × Bool)
  | .object members =>
    (sampleShown members).map fun shown => ((getKey desktopConfig members).getD .null, shown)
  | _ => none

theorem sampleShown_put (config : Value) (members : Root) :
    sampleShown (putKey desktopConfig config members) = sampleShown members := by
  have hd : getKey "debug" (putKey desktopConfig config members) = getKey "debug" members :=
    getKey_putKey_of_ne (by decide)
  rw [sampleShown, hd]
  rfl

def sampleCodec : SettingsCodec Bool where
  defaults := false
  sanitized shown := shown
  members shown := [("debug", .object [("show_fps", .bool shown)])]
  read := sampleRead
  sanitized_sanitized _ := rfl
  config_of_read members config shown h := by
    obtain ⟨shown, -, heq⟩ := Option.map_eq_some_iff.mp h
    exact (congrArg Prod.fst heq).symm
  read_empty := rfl
  read_put members config := by
    show ((sampleShown _).map _).map _ = ((sampleShown _).map _).map _
    rw [sampleShown_put, Option.map_map, Option.map_map]
    rfl
  read_members _ := rfl

theorem loadSettings_sample (shown : Bool) :
    loadSettings sampleJson sampleCodec (some (sampleBytes shown)) = (.null, shown) := by
  have hs : Shows sampleJson (some (sampleBytes shown)) (some (sampleRoot shown)) :=
    congrArg some (sampleDecode_bytes shown)
  rw [hs.loadSettings]
  rfl

end FocalDesk.Settings
