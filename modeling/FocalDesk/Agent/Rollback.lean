import FocalDesk.Agent.Definition
import FocalDesk.Capability.Meet
import FocalDesk.Library.Utf8

/-! Packages of agents on disk: installing a definition, rolling one back, and what a failure at
any step leaves of the two definitions there. -/
namespace FocalDesk
open Library Option

/-- The texts of definitions. What is written as TOML is read back as it was. -/
structure AgentToml where
  encode : AgentDefinition → Except String (List UInt8)
  decode : List UInt8 → Except String AgentDefinition
  decode_encode : ∀ definition bytes, encode definition = .ok bytes → decode bytes = .ok definition

namespace AgentToml

variable (toml : AgentToml) (urls : UrlParser)

def fromToml (bytes : List UInt8) : Except String AgentDefinition := do
  let definition ← toml.decode bytes
  definition.validate urls
  .ok definition

def toToml (definition : AgentDefinition) : Except String (List UInt8) := do
  definition.validate urls
  toml.encode definition

theorem fromToml_toToml {defn : AgentDefinition} {bytes : List UInt8}
    (h : toml.toToml urls defn = .ok bytes) : toml.fromToml urls bytes = .ok defn := by
  unfold toToml at h
  obtain ⟨hv, he⟩ := unit_bind_eq_ok.mp h
  unfold fromToml
  rw [toml.decode_encode defn bytes he]
  show (defn.validate urls >>= fun _ => .ok defn) = .ok defn
  rw [hv]
  rfl

end AgentToml

/-- The directory of a package: `agent.toml`, `agent.toml.bak`, the temporary file of this process
and those that others left. -/
structure AgentPackage where
  manifest : Option (List UInt8)
  backup : Option (List UInt8)
  temporary : Option (List UInt8)
  others : List (List UInt8)
deriving DecidableEq

/-- The step that fails, if one does: those before the manifest is looked at, the copy of the
manifest with the bytes it wrote over the backup, its permissions, the temporary file with the
bytes written, its sync and the rename. -/
structure InstallFaults where
  prepare : Option String
  copy : Option (Option ℕ × String)
  protect : Option String
  create : Option String
  write : Option (ℕ × String)
  sync : Option String
  rename : Option String

namespace AgentPackage

variable (toml : AgentToml) (urls : UrlParser)

def place (faults : InstallFaults) (definition : AgentDefinition) (package : AgentPackage) :
    AgentPackage × Except String Unit :=
  match toml.toToml urls definition with
  | .error error => (package, .error error)
  | .ok encoded =>
    match package.temporary, faults.create with
    | some _, _ => (package, .error "File exists (os error 17)")
    | none, some error => (package, .error error)
    | none, none =>
      match faults.write, faults.sync, faults.rename with
      | some (count, error), _, _ =>
        ({ package with temporary := some (encoded.take count) }, .error error)
      | none, some error, _ => ({ package with temporary := some encoded }, .error error)
      | none, none, some error => ({ package with temporary := some encoded }, .error error)
      | none, none, none => ({ package with manifest := some encoded }, .ok ())

/-- The checks and steps before the manifest is looked at. -/
def prepare (faults : InstallFaults) (definition : AgentDefinition) : Except String Unit := do
  definition.validate urls
  bailIf (definition.builtIn = true ∨ definition.id ∈ builtInAgents.map AgentDefinition.id)
    "built-in agent ids cannot be installed or replaced"
  match faults.prepare with
  | some error => .error error
  | none => .ok ()

def installAgentDefinition (faults : InstallFaults) (definition : AgentDefinition)
    (overwrite : Bool) (package : AgentPackage) : AgentPackage × Except String Unit :=
  match prepare urls faults definition with
  | .error error => (package, .error error)
  | .ok () =>
    match package.manifest with
    | none => place toml urls faults definition package
    | some manifest =>
      if overwrite then
        match faults.copy, faults.protect with
        | some (none, error), _ => (package, .error error)
        | some (some count, error), _ =>
          ({ package with backup := some (manifest.take count) }, .error error)
        | none, some error => ({ package with backup := some manifest }, .error error)
        | none, none =>
          place toml urls faults definition { package with backup := some manifest }
      else (package, .error "agent package already exists; explicit update is required")

/-- The definition that a rollback installs. -/
def backupDefinition (readError : Option String) (agentId : String) (package : AgentPackage) :
    Except String AgentDefinition := do
  bailIf (isIdentifier 64 agentId = false) "invalid agent id"
  match package.backup, readError with
  | none, _ => .error "agent backup is unavailable: No such file or directory (os error 2)"
  | some _, some error => .error error
  | some backup, none =>
    bailIf (64 * 1024 < backup.length)
      "agent backup must be a regular manifest no larger than 64 KiB"
    let definition ← toml.fromToml urls backup
    bailIf (definition.id ≠ agentId ∨ definition.builtIn = true)
      "agent backup identity does not match its package"
    .ok definition

def rollbackAgentDefinition (readError : Option String) (faults : InstallFaults) (agentId : String)
    (package : AgentPackage) : AgentPackage × Except String Unit :=
  match package.backupDefinition toml urls readError agentId with
  | .error error => (package, .error error)
  | .ok definition => installAgentDefinition toml urls faults definition true package

/-- Some file of the directory has the definition. -/
def Recovers (package : AgentPackage) (definition : AgentDefinition) : Prop :=
  ∃ bytes, (package.manifest = some bytes ∨ package.backup = some bytes ∨
    package.temporary = some bytes ∨ bytes ∈ package.others) ∧
      toml.fromToml urls bytes = .ok definition

/-- The manifest has the first definition and the backup the second one. -/
def Holds (package : AgentPackage) (installed previous : AgentDefinition) : Prop :=
  (∃ bytes, package.manifest = some bytes ∧ toml.fromToml urls bytes = .ok installed) ∧
    ∃ bytes, package.backup = some bytes ∧ toml.fromToml urls bytes = .ok previous

/-- A file that no installation renames or copies to has the definition. -/
def KeptAside (package : AgentPackage) (definition : AgentDefinition) : Prop :=
  ∃ bytes, (package.temporary = some bytes ∨ bytes ∈ package.others) ∧
    toml.fromToml urls bytes = .ok definition

/-- The step that fails comes before the backup is opened for writing. -/
def SparesBackup (faults : InstallFaults) (definition : AgentDefinition) (overwrite : Bool) :
    Prop :=
  (∃ error, prepare urls faults definition = .error error) ∨ overwrite = false ∨
    ∃ error, faults.copy = some (none, error)

/-- The file that the failing step writes has the old backup's definition. -/
def WritesBackup (faults : InstallFaults) (definition : AgentDefinition) (package : AgentPackage)
    (manifest : List UInt8) (previous : AgentDefinition) : Prop :=
  (∃ count error, faults.copy = some (some count, error) ∧
    toml.fromToml urls (manifest.take count) = .ok previous) ∨
  faults.copy = none ∧ faults.protect = none ∧ package.temporary = none ∧ faults.create = none ∧
    ∃ encoded, toml.toToml urls definition = .ok encoded ∧
      ((∃ count error, faults.write = some (count, error) ∧
        toml.fromToml urls (encoded.take count) = .ok previous) ∨
          faults.write = none ∧ definition = previous)

/-- Both definitions are the same, another file has the old backup's, or the failing step keeps
or writes it. -/
def KeepsBackup (faults : InstallFaults) (definition : AgentDefinition) (overwrite : Bool)
    (package : AgentPackage) (manifest : List UInt8) (current previous : AgentDefinition) : Prop :=
  current = previous ∨ package.KeptAside toml urls previous ∨
    SparesBackup urls faults definition overwrite ∨
      WritesBackup toml urls faults definition package manifest previous

/-- The checks of a rollback refuse the backup, or it cannot be read. -/
def RefusesBackup (readError : Option String) (agentId : String) (backup : List UInt8)
    (previous : AgentDefinition) : Prop :=
  isIdentifier 64 agentId = false ∨ readError.isSome = true ∨ 64 * 1024 < backup.length ∨
    previous.id ≠ agentId ∨ previous.builtIn = true

variable {toml urls} {faults : InstallFaults} {definition defn current previous : AgentDefinition}
  {package pkg next : AgentPackage} {manifest mani backup enc : List UInt8} {overwrite : Bool}
  {agentId error : String} {readError : Option String}

theorem recovers_iff : pkg.Recovers toml urls defn ↔
    (∃ bytes, pkg.manifest = some bytes ∧ toml.fromToml urls bytes = .ok defn) ∨
    (∃ bytes, pkg.backup = some bytes ∧ toml.fromToml urls bytes = .ok defn) ∨
      pkg.KeptAside toml urls defn := by
  unfold Recovers KeptAside
  constructor
  · rintro ⟨bytes, hm | hb | ha, hr⟩
    · exact .inl ⟨bytes, hm, hr⟩
    · exact .inr (.inl ⟨bytes, hb, hr⟩)
    · exact .inr (.inr ⟨bytes, ha, hr⟩)
  · rintro (⟨bytes, hm, hr⟩ | ⟨bytes, hb, hr⟩ | ⟨bytes, ha, hr⟩)
    · exact ⟨bytes, .inl hm, hr⟩
    · exact ⟨bytes, .inr (.inl hb), hr⟩
    · exact ⟨bytes, .inr (.inr ha), hr⟩

/-- What a directory recovers once its manifest and its backup are known. -/
theorem recovers_of_files (pkg : AgentPackage) {copied : List UInt8}
    (hm : pkg.manifest = some mani)
    (hc : pkg.backup = some copied)
    (hcu : toml.fromToml urls mani = .ok current) :
    pkg.Recovers toml urls current ∧ pkg.Recovers toml urls previous ↔
      current = previous ∨ toml.fromToml urls copied = .ok previous ∨
        pkg.KeptAside toml urls previous := by
  rw [recovers_iff, recovers_iff, hm, hc]
  simp only [some.injEq, exists_eq_left', hcu, true_or, true_and, Except.ok.injEq]

theorem keptAside_of_none (h : pkg.temporary = none) (bytes : List UInt8) :
    { pkg with temporary := some bytes }.KeptAside toml urls defn ↔
      toml.fromToml urls bytes = .ok defn ∨ pkg.KeptAside toml urls defn := by
  unfold KeptAside
  constructor
  · rintro ⟨found, hf | ho, hr⟩
    · exact .inl (some.inj hf ▸ hr)
    · exact .inr ⟨found, .inr ho, hr⟩
  · rintro (hr | ⟨found, hf | ho, hr⟩)
    · exact ⟨bytes, .inl rfl, hr⟩
    · rw [h] at hf
      cases hf
    · exact ⟨found, .inr ho, hr⟩

theorem recovers_of_overwritten (pkg : AgentPackage) (hm : pkg.manifest = some mani)
    (hb : pkg.backup = some mani) (hc : toml.fromToml urls mani = .ok current) :
    pkg.Recovers toml urls current ∧ pkg.Recovers toml urls previous ↔
      current = previous ∨ pkg.KeptAside toml urls previous := by
  rw [recovers_of_files pkg hm hb hc, hc, Except.ok.injEq, or_self_left]

/-- A step of `place` that fails keeps the manifest and the backup, and what is in its temporary
file decides. -/
theorem recovers_of_place (pkg : AgentPackage) (hm : pkg.manifest = some mani)
    (hb : pkg.backup = some mani) (hcu : toml.fromToml urls mani = .ok current)
    (h : place toml urls faults defn pkg = (next, .error error)) :
    next.Recovers toml urls current ∧ next.Recovers toml urls previous ↔
      current = previous ∨ pkg.KeptAside toml urls previous ∨
        pkg.temporary = none ∧ faults.create = none ∧
          ∃ enc, toml.toToml urls defn = .ok enc ∧
            ((∃ count error, faults.write = some (count, error) ∧
              toml.fromToml urls (enc.take count) = .ok previous) ∨
                faults.write = none ∧ defn = previous) := by
  have hs : pkg.Recovers toml urls current ∧ pkg.Recovers toml urls previous ↔
      current = previous ∨ pkg.KeptAside toml urls previous :=
    recovers_of_overwritten pkg hm hb hcu
  have hp (ht : pkg.temporary = none) (bytes : List UInt8) :
      { pkg with temporary := some bytes }.Recovers toml urls current ∧
        { pkg with temporary := some bytes }.Recovers toml urls previous ↔
          current = previous ∨ pkg.KeptAside toml urls previous ∨
            toml.fromToml urls bytes = .ok previous := by
    rw [recovers_of_overwritten { pkg with temporary := some bytes } hm hb hcu,
      keptAside_of_none ht, or_comm (a := _ = Except.ok previous)]
  unfold place at h
  cases hto : toml.toToml urls defn with
  | error _ =>
    simp only [hto, Prod.mk.injEq] at h
    rw [← h.1, hs]
    simp
  | ok enc =>
    cases ht : pkg.temporary with
    | some _ =>
      simp only [hto, ht, Prod.mk.injEq] at h
      rw [← h.1, hs]
      simp
    | none =>
      cases hc : faults.create with
      | some _ =>
        simp only [hto, ht, hc, Prod.mk.injEq] at h
        rw [← h.1, hs]
        simp
      | none =>
        have he := toml.fromToml_toToml urls hto
        cases hw : faults.write with
        | some wr =>
          obtain ⟨count, text⟩ := wr
          simp only [hto, ht, hc, hw, Prod.mk.injEq] at h
          rw [← h.1, hp ht]
          simp
        | none =>
          have hn : { pkg with temporary := some enc } = next := by
            cases hsy : faults.sync <;> cases hr : faults.rename <;>
              simp [hto, ht, hc, hw, hsy, hr] at h
            all_goals exact h.1
          rw [← hn, hp ht, he]
          simp

/-- What an installation that fails leaves of the two definitions. -/
theorem recovers_of_install (hm : pkg.manifest = some mani)
    (hb : pkg.backup = some backup) (hcu : toml.fromToml urls mani = .ok current)
    (hpe : toml.fromToml urls backup = .ok previous)
    (h : installAgentDefinition toml urls faults defn overwrite pkg =
      (next, .error error)) :
    next.Recovers toml urls current ∧ next.Recovers toml urls previous ↔
      KeepsBackup toml urls faults defn overwrite pkg mani current previous := by
  have hsa : pkg.Recovers toml urls current ∧ pkg.Recovers toml urls previous :=
    (recovers_of_files pkg hm hb hcu).mpr (Or.inr (Or.inl hpe))
  have hs (hsp : SparesBackup urls faults defn overwrite) (hn : pkg = next) :
      next.Recovers toml urls current ∧ next.Recovers toml urls previous ↔
        KeepsBackup toml urls faults defn overwrite pkg mani current previous :=
    hn ▸ iff_of_true hsa (Or.inr (Or.inr (Or.inl hsp)))
  unfold installAgentDefinition at h
  cases hpr : prepare urls faults defn with
  | error _ =>
    simp only [hpr, Prod.mk.injEq] at h
    exact hs (Or.inl ⟨_, hpr⟩) h.1
  | ok _ =>
    cases overwrite with
    | false =>
      simp only [hpr, hm, Bool.false_eq_true, if_false, Prod.mk.injEq] at h
      exact hs (Or.inr (Or.inl rfl)) h.1
    | true =>
      simp only [hpr, hm, if_true] at h
      have hco (copied : List UInt8) :
          AgentPackage.Recovers toml urls
              { pkg with manifest := some mani, backup := some copied } current ∧
            AgentPackage.Recovers toml urls
              { pkg with manifest := some mani, backup := some copied } previous ↔
            current = previous ∨ toml.fromToml urls copied = .ok previous ∨
              pkg.KeptAside toml urls previous :=
        recovers_of_files { pkg with manifest := some mani, backup := some copied } rfl rfl
          hcu
      have hw := hco mani
      rw [hcu, Except.ok.injEq, or_self_left] at hw
      cases hc : faults.copy with
      | some failed =>
        obtain ⟨count | count, text⟩ := failed
        · simp only [hc, Prod.mk.injEq] at h
          exact hs (Or.inr (Or.inr ⟨text, hc⟩)) h.1
        · simp only [hc, Prod.mk.injEq] at h
          rw [← h.1, hco, or_comm (a := _ = Except.ok previous)]
          simp [KeepsBackup, SparesBackup, WritesBackup, hpr, hc]
      | none =>
        cases hp : faults.protect with
        | some _ =>
          simp only [hc, hp, Prod.mk.injEq] at h
          rw [← h.1, hw]
          simp [KeepsBackup, SparesBackup, WritesBackup, hpr, hc, hp]
        | none =>
          simp only [hc, hp] at h
          rw [recovers_of_place { pkg with
            manifest := some mani, backup := some mani } rfl rfl hcu h]
          simp [KeepsBackup, SparesBackup, WritesBackup, KeptAside, hpr, hc, hp]

/-- The backup has what was installed, and the manifest the definition. -/
theorem holds_of_place (hb : pkg.backup = some backup)
    (hp : toml.fromToml urls backup = .ok previous)
    (h : place toml urls faults defn pkg = (next, .ok ())) :
    next.Holds toml urls defn previous := by
  unfold place at h
  cases ht : toml.toToml urls defn with
  | error _ => simp [ht] at h
  | ok enc =>
    rw [ht] at h
    dsimp only at h
    split at h
    · simp at h
    · simp at h
    · split at h
      · simp at h
      · simp at h
      · simp at h
      · rw [← (Prod.mk.inj h).1]
        exact ⟨⟨enc, rfl, toml.fromToml_toToml urls ht⟩, backup, hb, hp⟩

theorem holds_of_install (hm : pkg.manifest = some mani)
    (hc : toml.fromToml urls mani = .ok current)
    (h : installAgentDefinition toml urls faults defn true pkg = (next, .ok ())) :
    next.Holds toml urls defn current := by
  unfold installAgentDefinition at h
  rw [hm] at h
  split at h
  · simp at h
  · dsimp only at h
    rw [if_pos rfl] at h
    split at h
    · simp at h
    · simp at h
    · simp at h
    · exact holds_of_place rfl hc h

theorem backupDefinition_eq_ok (hb : pkg.backup = some backup)
    (hp : toml.fromToml urls backup = .ok previous) :
    pkg.backupDefinition toml urls readError agentId = .ok defn ↔
      ¬ RefusesBackup readError agentId backup previous ∧ defn = previous := by
  unfold backupDefinition RefusesBackup
  rw [hb]
  cases readError with
  | some _ => simp
  | none =>
    have hr (rest : AgentDefinition → Except String AgentDefinition) :
        (toml.fromToml urls backup >>= rest) = rest previous := by
      rw [hp]
      rfl
    simp only [unit_bind_eq_ok, bailIf_eq_ok, hr, isSome_none, Except.ok.injEq, not_or,
      Bool.false_eq_true, not_false_eq_true, true_and, eq_comm (a := defn), and_assoc]

theorem holds_of_rollback (hm : pkg.manifest = some mani)
    (hb : pkg.backup = some backup) (hc : toml.fromToml urls mani = .ok current)
    (hp : toml.fromToml urls backup = .ok previous)
    (h : pkg.rollbackAgentDefinition toml urls readError faults agentId = (next, .ok ())) :
    next.Holds toml urls previous current := by
  unfold rollbackAgentDefinition at h
  split at h
  · simp at h
  next hd =>
    obtain ⟨-, rfl⟩ := (backupDefinition_eq_ok hb hp).mp hd
    exact holds_of_install hm hc h

/-- A rollback that succeeds swaps the two definitions. One that fails, or an installation that
does, leaves both in the directory just if it was refused or a file keeps the backup's. -/
theorem rollback_lossless_iff (toml : AgentToml) (urls : UrlParser) (package : AgentPackage)
    (manifest backup : List UInt8) (current previous : AgentDefinition)
    (hmanifest : package.manifest = some manifest) (hbackup : package.backup = some backup)
    (hcurrent : toml.fromToml urls manifest = .ok current)
    (hprevious : toml.fromToml urls backup = .ok previous) :
    (∀ readError faults agentId next,
      package.rollbackAgentDefinition toml urls readError faults agentId = (next, .ok ()) →
        next.Holds toml urls previous current ∧ ∀ readError faults final,
          next.rollbackAgentDefinition toml urls readError faults agentId = (final, .ok ()) →
            final.Holds toml urls current previous) ∧
    (∀ readError faults agentId next error,
      package.rollbackAgentDefinition toml urls readError faults agentId = (next, .error error) →
        (next.Recovers toml urls current ∧ next.Recovers toml urls previous ↔
          RefusesBackup readError agentId backup previous ∨
            KeepsBackup toml urls faults previous true package manifest current previous)) ∧
    ∀ faults definition overwrite next error,
      package.installAgentDefinition toml urls faults definition overwrite =
          (next, .error error) →
        (next.Recovers toml urls current ∧ next.Recovers toml urls previous ↔
          KeepsBackup toml urls faults definition overwrite package manifest current previous) := by
  refine ⟨fun readError faults agentId next h => ?_,
    fun readError faults agentId next error h => ?_,
    fun faults definition overwrite next error h =>
      recovers_of_install hmanifest hbackup hcurrent hprevious h⟩
  · have hh := holds_of_rollback hmanifest hbackup hcurrent hprevious h
    refine ⟨hh, fun readError faults final ha => ?_⟩
    obtain ⟨⟨manifest', hmanifest', hprevious'⟩, backup', hbackup', hcurrent'⟩ := hh
    exact holds_of_rollback hmanifest' hbackup' hprevious' hcurrent' ha
  · have hs : package.Recovers toml urls current ∧ package.Recovers toml urls previous :=
      (recovers_of_files package hmanifest hbackup hcurrent).mpr (.inr (.inl hprevious))
    have hde : package.backupDefinition toml urls readError agentId = .ok previous ↔
        ¬ RefusesBackup readError agentId backup previous ∧ previous = previous :=
      backupDefinition_eq_ok hbackup hprevious
    unfold rollbackAgentDefinition at h
    split at h
    next refused hr =>
      have hre : RefusesBackup readError agentId backup previous := by
        by_contra hn
        rw [hde.mpr ⟨hn, rfl⟩] at hr
        cases hr
      rw [← (Prod.mk.inj h).1]
      exact iff_of_true hs (.inl hre)
    next definition hd =>
      obtain ⟨hn, rfl⟩ := (backupDefinition_eq_ok hbackup hprevious).mp hd
      rw [recovers_of_install hmanifest hbackup hcurrent hprevious h, or_iff_right hn]

def helperAgent (name : String) : AgentDefinition :=
  { builtInAgent "helper" name "" "" ["list_windows"] false with builtIn := false }

def helperStart : List Char :=
  "manifest_version = 1\nid = \"helper\"\nname = \"".toList

def helperEnd : List Char :=
  "\"\ndescription = \"\"\ninstructions = \"\"\ntool_allowlist = [\"list_windows\"]\n".toList ++
    ("max_tool_steps = 4\nmax_context_chars = 48000\nmax_output_tokens = 1024\n".toList ++
      ("timeout_seconds = 120\nmemory = false\nvoice = false\ntriggers = []\n".toList ++
        "built_in = false\n".toList))

/-- The manifest of `helperAgent name`. -/
def helperManifest (name : String) : List UInt8 :=
  toUtf8 helperStart ++ (toUtf8 name.toList ++ toUtf8 helperEnd)

theorem length_helper : helperStart.length ≤ 1000 ∧ helperEnd.length ≤ 1000 := by
  unfold helperStart helperEnd
  rw [String.toList_ofList, String.toList_ofList, String.toList_ofList, String.toList_ofList,
    String.toList_ofList]
  decide +kernel

theorem length_helperManifest : (helperManifest "First").length ≤ 64 * 1024 := by
  have hs := (length_toUtf8_le helperStart).trans (Nat.mul_le_mul_left 4 length_helper.1)
  have he := (length_toUtf8_le helperEnd).trans (Nat.mul_le_mul_left 4 length_helper.2)
  have hn := length_toUtf8_le "First".toList
  rw [show "First".toList.length = 5 by decide] at hn
  rw [helperManifest, List.length_append, List.length_append]
  omega

theorem toUtf8_second_ne (rest : List UInt8) :
    toUtf8 "Second".toList ++ rest ≠ toUtf8 "First".toList ++ rest := by
  intro h
  have hh := congrArg List.head? h
  rw [show toUtf8 "First".toList = [70, 105, 114, 115, 116] by decide,
    show toUtf8 "Second".toList = [83, 101, 99, 111, 110, 100] by decide] at hh
  exact absurd (some.inj hh) (by decide)

theorem helperManifest_ne : helperManifest "Second" ≠ helperManifest "First" :=
  fun h => toUtf8_second_ne _ (List.append_cancel_left h)

/-- The texts of two manifests. -/
def helperToml : AgentToml where
  encode definition :=
    if definition = helperAgent "First" then .ok (helperManifest "First")
    else if definition = helperAgent "Second" then .ok (helperManifest "Second")
    else .error "unsupported type"
  decode bytes :=
    if bytes = helperManifest "First" then .ok (helperAgent "First")
    else if bytes = helperManifest "Second" then .ok (helperAgent "Second")
    else .error "missing field"
  decode_encode definition bytes h := by
    split_ifs at h with hfirst hsecond
    · cases h
      rw [if_pos rfl, hfirst]
    · cases h
      rw [if_neg helperManifest_ne, if_pos rfl, hsecond]

theorem helperAgent_valid : (helperAgent "First").validate exampleUrls = .ok () ∧
    (helperAgent "Second").validate exampleUrls = .ok () := by
  decide +kernel

theorem helperAgent_ne : helperAgent "Second" ≠ helperAgent "First" :=
  fun h => absurd (congrArg AgentDefinition.name h) (by decide)

theorem helperToml_first :
    helperToml.fromToml exampleUrls (helperManifest "First") = .ok (helperAgent "First") :=
  helperToml.fromToml_toToml exampleUrls
    (unit_bind_eq_ok.mpr ⟨helperAgent_valid.1, by simp [helperToml]⟩)

theorem helperToml_second :
    helperToml.fromToml exampleUrls (helperManifest "Second") = .ok (helperAgent "Second") :=
  helperToml.fromToml_toToml exampleUrls
    (unit_bind_eq_ok.mpr ⟨helperAgent_valid.2, by simp [helperToml, helperAgent_ne]⟩)

/-- A package that was updated from the first definition to the second one. -/
def helperPackage : AgentPackage :=
  ⟨some (helperManifest "Second"), some (helperManifest "First"), none, []⟩

/-- No room for the temporary file. -/
def diskFull : InstallFaults :=
  { prepare := none, copy := none, protect := none,
    create := some "No space left on device (os error 28)", write := none, sync := none,
    rename := none }

theorem rollback_lossless_iff_example :
    (∀ readError faults agentId next,
      helperPackage.rollbackAgentDefinition helperToml exampleUrls readError faults agentId =
          (next, .ok ()) →
        next.Holds helperToml exampleUrls (helperAgent "First") (helperAgent "Second")) ∧
    ∀ readError faults agentId next error,
      helperPackage.rollbackAgentDefinition helperToml exampleUrls readError faults agentId =
          (next, .error error) →
        (next.Recovers helperToml exampleUrls (helperAgent "Second") ∧
            next.Recovers helperToml exampleUrls (helperAgent "First") ↔
          RefusesBackup readError agentId (helperManifest "First") (helperAgent "First") ∨
            KeepsBackup helperToml exampleUrls faults (helperAgent "First") true helperPackage
              (helperManifest "Second") (helperAgent "Second") (helperAgent "First")) := by
  obtain ⟨hs, hf, -⟩ := rollback_lossless_iff helperToml exampleUrls helperPackage
    (helperManifest "Second") (helperManifest "First") (helperAgent "Second") (helperAgent "First")
    rfl rfl helperToml_second helperToml_first
  exact ⟨fun readError faults agentId next h => (hs readError faults agentId next h).1, hf⟩

/-- The backup is overwritten by the manifest before there is no room for the temporary file. -/
theorem helperPackage_rolled :
    helperPackage.rollbackAgentDefinition helperToml exampleUrls none diskFull "helper" =
      (⟨some (helperManifest "Second"), some (helperManifest "Second"), none, []⟩,
        .error "No space left on device (os error 28)") := by
  have hbackup : helperPackage.backupDefinition helperToml exampleUrls none "helper" =
      .ok (helperAgent "First") := by
    refine (backupDefinition_eq_ok rfl helperToml_first).mpr ⟨?_, rfl⟩
    simp only [RefusesBackup, not_or, Nat.not_lt.mpr length_helperManifest]
    decide
  have hprep : prepare exampleUrls diskFull (helperAgent "First") = .ok () :=
    unit_bind_eq_ok.mpr ⟨helperAgent_valid.1, unit_bind_eq_ok.mpr
      ⟨bailIf_eq_ok.mpr (by decide +kernel), rfl⟩⟩
  have htoml : helperToml.toToml exampleUrls (helperAgent "First") =
      .ok (helperManifest "First") :=
    unit_bind_eq_ok.mpr ⟨helperAgent_valid.1, by simp [helperToml]⟩
  rw [rollbackAgentDefinition, hbackup]
  dsimp only
  rw [installAgentDefinition, hprep]
  simp only [helperPackage, diskFull, place, htoml, if_true]

theorem backup_lost :
    ¬ ∀ (toml : AgentToml) (urls : UrlParser) (package : AgentPackage)
      (manifest backup : List UInt8) (current previous : AgentDefinition),
      package.manifest = some manifest → package.backup = some backup →
      toml.fromToml urls manifest = .ok current → toml.fromToml urls backup = .ok previous →
        ∀ readError faults agentId next error,
          package.rollbackAgentDefinition toml urls readError faults agentId =
              (next, .error error) →
            next.Recovers toml urls current ∧ next.Recovers toml urls previous := by
  intro h
  have hlost := h helperToml exampleUrls helperPackage _ _ _ _ rfl rfl
    helperToml_second helperToml_first none diskFull "helper" _ _ helperPackage_rolled
  rw [recovers_of_overwritten _ rfl rfl helperToml_second] at hlost
  rcases hlost with hsame | ⟨bytes, hnone | hother, -⟩
  · exact helperAgent_ne hsame
  · cases hnone
  · cases hother

end AgentPackage

end FocalDesk
