import FocalDesk.Json
import FocalDesk.Library.AssocList

/-! `settings.json` and its two owners: the configuration of the desktop, which is written beside
the file and renamed, and the other settings, which are written in place. -/
namespace FocalDesk.Settings
open Library

/-- The members of a JSON object. -/
abbrev Root := List (String × Value)

def desktopConfig : String := "desktop_config"

/-- The texts of JSON objects. What is written is read back. -/
structure JsonText where
  encode : Root → Except String (List UInt8)
  decode : List UInt8 → Option Value
  decode_encode : ∀ root bytes, encode root = .ok bytes → decode bytes = some (.object root)

/-- `Settings` but for its `desktop_config`, and how values are read as `Settings`. What is missing
is read as its default, what else there is makes no difference, and sanitized sections are read
back. -/
structure SettingsCodec (S : Type) where
  defaults : S
  sanitized : S → S
  members : S → Root
  read : Value → Option (Value × S)
  sanitized_sanitized : ∀ s, sanitized (sanitized s) = sanitized s
  config_of_read : ∀ root config s, read (.object root) = some (config, s) →
    config = (getKey desktopConfig root).getD .null
  read_empty : read (.object []) = some (.null, defaults)
  read_put : ∀ root config, (read (.object (putKey desktopConfig config root))).map Prod.snd =
    (read (.object root)).map Prod.snd
  read_members : ∀ s, (read (.object (members (sanitized s)))).map Prod.snd = some (sanitized s)

/-- The file by its name, and what the inodes hold. -/
structure Disk where
  file : Option ℕ
  contents : ℕ → List UInt8
  inodes : ℕ

namespace Disk

variable (disk : Disk)

def text : Option (List UInt8) := disk.file.map disk.contents

/-- `fs::write` opens the file: what is there is emptied, and one is made if there is none. -/
def truncate : Disk × ℕ :=
  match disk.file with
  | some inode => ({ disk with contents := Function.update disk.contents inode [] }, inode)
  | none => (⟨some disk.inodes, Function.update disk.contents disk.inodes [], disk.inodes + 1⟩,
      disk.inodes)

def append (inode : ℕ) (bytes : List UInt8) : Disk :=
  { disk with contents := Function.update disk.contents inode (disk.contents inode ++ bytes) }

/-- A temporary file of its own name, with its text, takes the name of the file. -/
def rename (bytes : List UInt8) : Disk :=
  ⟨some disk.inodes, Function.update disk.contents disk.inodes bytes, disk.inodes + 1⟩

end Disk

/-- What a process does with the file. A load may be of the configuration, with the migration that
follows where there is none, or of the other settings. -/
inductive Operation (S : Type) where
  | saveConfig (config : Value)
  | migrate
  | loadConfig
  | loadSettings
  | modify (change : S → S)

/-- How far a call is: a modification has loaded and changed the settings, or has made the text it
is to write, or has an open handle; a configuration has the text that is to be renamed. -/
inductive Phase (S : Type) where
  | started
  | falling
  | loaded (config : Value) (sections : S)
  | merged (bytes : List UInt8)
  | writing (inode : ℕ) (rest : List UInt8)
  | rooted (config : Value) (bytes : List UInt8)
  | returned (result : Except String Unit)

structure Call (S : Type) where
  operation : Operation S
  phase : Phase S

/-- What a call put into the file. -/
inductive Saved (S : Type) where
  | config (config : Value)
  | migrated (config : Value)
  | modified (change : S → S)

/-- What the rename of a configuration saves. -/
def Operation.saves {S : Type} (config : Value) : Operation S → Saved S
  | .saveConfig _ => .config config
  | _ => .migrated config

/-- The file, the configuration of the old `config.toml`, the calls by their numbers, what was
written in order, and the loads that found a text that is no JSON. -/
structure SettingsFile (S : Type) where
  disk : Disk
  legacy : Option (Except String Value)
  calls : List (ℕ × Call S)
  saved : List (ℕ × Saved S)
  misread : List ℕ

inductive FileStep (S : Type) where
  | begin (id : ℕ) (operation : Operation S)
  | load (id : ℕ)
  | read (id : ℕ)
  | truncate (id : ℕ)
  | write (id count : ℕ)
  | close (id : ℕ)
  | rename (id : ℕ)

section Reading

variable {S : Type} (json : JsonText) (codec : SettingsCodec S)

/-- What `load_settings` makes of a text. -/
def loadSettings (text : Option (List UInt8)) : Value × S :=
  match (text.bind json.decode).bind codec.read with
  | some (config, sections) => (config, codec.sanitized sections)
  | none => (.null, codec.sanitized codec.defaults)

/-- The text is there and is no JSON. -/
def misreads (text : Option (List UInt8)) : Bool :=
  text.any fun bytes => (json.decode bytes).isNone

/-- `read_settings_root`, and the part of `save_settings` that reads the file again. -/
def readRoot (text : Option (List UInt8)) : Except String (Option Root) :=
  match text with
  | none => .ok none
  | some bytes =>
    match json.decode bytes with
    | none => .error "settings.json is no JSON"
    | some value =>
      match value.asObject with
      | none => .error "settings.json must contain a JSON object"
      | some root => .ok (some root)

/-- The object that `merged_settings_json` writes. -/
def mergedRoot (config : Value) (sections : S) (existing : Option Root) : Root :=
  putKey desktopConfig ((existing.bind (getKey desktopConfig)).getD config)
    (codec.members (codec.sanitized sections))

def mergedSettingsJson (config : Value) (sections : S) (text : Option (List UInt8)) :
    Except String (List UInt8) := do
  let existing ← readRoot json text
  json.encode (mergedRoot codec config sections existing)

/-- The text that `write_settings_root` is given by `save_config_at`. -/
def configText (config : Value) (text : Option (List UInt8)) : Except String (List UInt8) := do
  let existing ← readRoot json text
  json.encode (putKey desktopConfig config (existing.getD []))

/-- What the migration makes of the file; nothing where there is a configuration already, or no
old one. -/
def migrationText (legacy : Option (Except String Value)) (text : Option (List UInt8)) :
    Except String (Option (Value × List UInt8)) :=
  match legacy with
  | none => .ok none
  | some (.error error) => .error error
  | some (.ok config) => do
    let existing ← readRoot json text
    if (getKey desktopConfig (existing.getD [])).isSome then .ok none
    else do
      let bytes ← json.encode (putKey desktopConfig config (existing.getD []))
      .ok (some (config, bytes))

end Reading

namespace SettingsFile

variable {S : Type} (json : JsonText) (codec : SettingsCodec S) (accepts : Value → Bool)
  (s : SettingsFile S)

def put (id : ℕ) (operation : Operation S) (phase : Phase S) : SettingsFile S :=
  { s with calls := putKey id ⟨operation, phase⟩ s.calls }

/-- Whether `config_from_settings_json` finds a configuration. -/
def hasConfig (text : Option (List UInt8)) : Bool :=
  ((text.bind json.decode).bind fun value => value.get desktopConfig).any accepts

/-- A load notes whether it read a text that is no JSON. -/
def noted (id : ℕ) : SettingsFile S :=
  { s with misread := if misreads json s.disk.text then s.misread ++ [id] else s.misread }

/-- The first read of a call that loads. -/
def load (id : ℕ) : Operation S → Option (SettingsFile S)
  | .loadConfig => some ((s.noted json id).put id .loadConfig
      (if hasConfig json accepts s.disk.text then .returned (.ok ()) else .falling))
  | .loadSettings => some ((s.noted json id).put id .loadSettings (.returned (.ok ())))
  | .modify change =>
    let settings := loadSettings json codec s.disk.text
    some ((s.noted json id).put id (.modify change) (.loaded settings.1 (change settings.2)))
  | _ => none

def migrated (id : ℕ) (operation : Operation S) : SettingsFile S :=
  s.put id operation (match migrationText json s.legacy s.disk.text with
    | .ok (some (config, bytes)) => .rooted config bytes
    | .ok none => .returned (.ok ())
    | .error error => .returned (.error error))

/-- The read of a call that is going to write. -/
def read (id : ℕ) : Call S → Option (SettingsFile S)
  | ⟨.saveConfig config, .started⟩ => some (s.put id (.saveConfig config)
      (match configText json config s.disk.text with
      | .ok bytes => .rooted config bytes
      | .error error => .returned (.error error)))
  | ⟨.migrate, .started⟩ => some (s.migrated json id .migrate)
  | ⟨.loadConfig, .falling⟩ => some (s.migrated json id .loadConfig)
  | ⟨.modify change, .loaded config sections⟩ => some (s.put id (.modify change)
      (match mergedSettingsJson json codec config sections s.disk.text with
      | .ok bytes => .merged bytes
      | .error error => .returned (.error error)))
  | _ => none

def step : FileStep S → Option (SettingsFile S)
  | .begin id operation =>
    if (getKey id s.calls).isNone then some (s.put id operation .started) else none
  | .load id =>
    match getKey id s.calls with
    | some ⟨operation, .started⟩ => s.load json codec accepts id operation
    | _ => none
  | .read id => (getKey id s.calls).bind (s.read json codec id)
  | .truncate id =>
    match getKey id s.calls with
    | some ⟨operation, .merged bytes⟩ =>
      some ({ s with disk := s.disk.truncate.1 }.put id operation
        (.writing s.disk.truncate.2 bytes))
    | _ => none
  | .write id count =>
    match getKey id s.calls with
    | some ⟨operation, .writing inode rest⟩ =>
      some ({ s with disk := s.disk.append inode (rest.take count) }.put id operation
        (.writing inode (rest.drop count)))
    | _ => none
  | .close id =>
    match getKey id s.calls with
    | some ⟨.modify change, .writing _ []⟩ =>
      some ({ s with saved := s.saved ++ [(id, Saved.modified change)] }.put id (.modify change)
        (.returned (.ok ())))
    | _ => none
  | .rename id =>
    match getKey id s.calls with
    | some ⟨operation, .rooted config bytes⟩ =>
      some ({ s with
        disk := s.disk.rename bytes
        saved := s.saved ++ [(id, operation.saves config)] }.put id operation (.returned (.ok ())))
    | _ => none

/-- The file as it is found, or none, and no calls. -/
def start (file : Option (List UInt8)) (legacy : Option (Except String Value)) :
    SettingsFile S where
  disk := ⟨file.map fun _ => 0, fun _ => file.getD [], 1⟩
  legacy := legacy
  calls := []
  saved := []
  misread := []

end SettingsFile

end FocalDesk.Settings
