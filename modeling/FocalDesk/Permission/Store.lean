import FocalDesk.Library.Eviction
import Mathlib.Data.List.Induction

/-! Permission rules, the store that keeps them, and its file. -/
namespace FocalDesk
open Library Option

inductive AppIdentity where
  | desktopId (id : String)
  | flatpakId (id : String)
  | waylandAppId (id : String)
  | executablePath (id : String)
  | unknown
deriving DecidableEq, Repr

structure AppMetadata where
  identity : AppIdentity
  pid : Option ℕ
  windowTitle : Option String
  sandboxed : Bool
deriving DecidableEq

inductive PermissionResource where
  | screenshot
  | screencast
  | screenShareWindow
  | screenShareOutput
  | aiChat
  | microphone
  | camera
  | clipboardRead
  | clipboardWrite
  | remoteInput
  | notifications
  | fileOpen
  | fileSave
deriving DecidableEq, Repr

inductive PermissionTarget where
  | global
  | named (name : String)
deriving DecidableEq, Repr

inductive PermissionDecision where
  | allow
  | deny
  | ask
deriving DecidableEq, Repr

inductive PermissionScope where
  | once
  | session
  | persistent
deriving DecidableEq, Repr

/-- Nanoseconds since the epoch; the seconds of a `SystemTime` are an `i64`. -/
structure SystemTime where
  nanos : ℤ
  bounded : nanos < 9223372036854775808 * 1000000000
deriving DecidableEq

/-- `duration_since(UNIX_EPOCH).unwrap_or_default().as_secs()` -/
def SystemTime.seconds (time : SystemTime) : ℕ := time.nanos.toNat / 1000000000

def unixEpoch : SystemTime := ⟨0, by decide⟩

/-- `UNIX_EPOCH.checked_add(..).unwrap_or(UNIX_EPOCH)` -/
def SystemTime.ofSeconds (seconds : ℕ) : SystemTime :=
  if h : seconds < 9223372036854775808 then ⟨seconds * 1000000000, by omega⟩ else unixEpoch

structure PermissionState where
  app : AppIdentity
  resource : PermissionResource
  target : PermissionTarget
  decision : PermissionDecision
  scope : PermissionScope
  updatedAt : SystemTime
deriving DecidableEq

structure PersistedPermissionEntry where
  appIdentity : String
  resource : String
  target : String
  decision : String
  scope : String
  updatedAtUnix : ℕ
deriving DecidableEq

/-! The flattening of a rule's identity, resource and target. -/

/-- Identity, resource and target of a rule as texts. -/
abbrev PermissionKey := String × String × String

/-- Who and what a rule is about. -/
abbrev RuleId := AppIdentity × PermissionResource × PermissionTarget

def appIdentityKey : AppIdentity → String
  | .desktopId id | .flatpakId id | .waylandAppId id | .executablePath id => id
  | .unknown => "unknown"

def permissionResourceKey : PermissionResource → String
  | .screenshot => "Screenshot"
  | .screencast => "Screencast"
  | .screenShareWindow => "ScreenShareWindow"
  | .screenShareOutput => "ScreenShareOutput"
  | .aiChat => "AiChat"
  | .microphone => "Microphone"
  | .camera => "Camera"
  | .clipboardRead => "ClipboardRead"
  | .clipboardWrite => "ClipboardWrite"
  | .remoteInput => "RemoteInput"
  | .notifications => "Notifications"
  | .fileOpen => "FileOpen"
  | .fileSave => "FileSave"

def permissionTargetKey : PermissionTarget → String
  | .global => "global"
  | .named name => name

def permissionKey (rule : RuleId) : PermissionKey :=
  (appIdentityKey rule.1, permissionResourceKey rule.2.1, permissionTargetKey rule.2.2)

def PermissionState.ruleId (state : PermissionState) : RuleId :=
  (state.app, state.resource, state.target)

def PersistedPermissionEntry.key (entry : PersistedPermissionEntry) : PermissionKey :=
  (entry.appIdentity, entry.resource, entry.target)

/-! The entries of the file. -/

def parseResource : String → Option PermissionResource
  | "AiChat" => some .aiChat
  | "Screenshot" => some .screenshot
  | "Screencast" => some .screencast
  | "ScreenShareWindow" => some .screenShareWindow
  | "ScreenShareOutput" => some .screenShareOutput
  | "Microphone" => some .microphone
  | "Camera" => some .camera
  | "ClipboardRead" => some .clipboardRead
  | "ClipboardWrite" => some .clipboardWrite
  | "RemoteInput" => some .remoteInput
  | "Notifications" => some .notifications
  | "FileOpen" => some .fileOpen
  | "FileSave" => some .fileSave
  | _ => none

def parseTarget (target : String) : PermissionTarget :=
  if target = "global" then .global else .named target

def decisionText : PermissionDecision → String
  | .allow => "Allow"
  | .deny => "Deny"
  | .ask => "Ask"

def parseDecision : String → Option PermissionDecision
  | "Allow" => some .allow
  | "Deny" => some .deny
  | "Ask" => some .ask
  | _ => none

def scopeText : PermissionScope → String
  | .once => "Once"
  | .session => "Session"
  | .persistent => "Persistent"

def parseScope : String → Option PermissionScope
  | "Once" => some .once
  | "Session" => some .session
  | "Persistent" => some .persistent
  | _ => none

def stateToPersistedEntry (key : PermissionKey) (state : PermissionState) :
    PersistedPermissionEntry :=
  { appIdentity := key.1, resource := key.2.1, target := key.2.2,
    decision := decisionText state.decision, scope := scopeText state.scope,
    updatedAtUnix := state.updatedAt.seconds }

def persistedEntryToState (entry : PersistedPermissionEntry) : Option PermissionState := do
  let resource ← parseResource entry.resource
  let decision ← parseDecision entry.decision
  let scope ← parseScope entry.scope
  return { app := .unknown, resource, target := parseTarget entry.target, decision, scope,
           updatedAt := SystemTime.ofSeconds entry.updatedAtUnix }

/-! The store. -/

/-- The rules by their flattened keys. A rule is stored under its own resource and target. -/
structure PersistentPermissionStore where
  entries : BTreeMap PermissionKey PermissionState
  keyed : ∀ (key : PermissionKey) state, entries[key]? = some state →
    key.2 = (permissionResourceKey state.resource, permissionTargetKey state.target)

namespace PersistentPermissionStore

def empty : PersistentPermissionStore where
  entries := ∅
  keyed key state h := by simp at h

def get (store : PersistentPermissionStore) (rule : RuleId) : Option PermissionState :=
  store.entries[permissionKey rule]?.map fun state => { state with app := rule.1 }

/-- `set` and `revoke` change the entries before they save them. -/
def set (store : PersistentPermissionStore) (state : PermissionState) :
    PersistentPermissionStore where
  entries := store.entries.insert (permissionKey state.ruleId) state
  keyed key other h := by
    rw [Std.ExtTreeMap.getElem?_insert] at h
    split at h
    case isTrue heq =>
      cases h
      rw [← Std.LawfulEqCmp.eq_of_compare heq]
      rfl
    case isFalse => exact store.keyed key other h

def revoke (store : PersistentPermissionStore) (rule : RuleId) : PersistentPermissionStore where
  entries := store.entries.erase (permissionKey rule)
  keyed key other h := store.keyed key other (getElem?_of_erase h)

end PersistentPermissionStore

/-- One turn of the loop of `load_from_path`. -/
def loadEntry (entries : BTreeMap PermissionKey PermissionState) (entry : PersistedPermissionEntry)
    : BTreeMap PermissionKey PermissionState :=
  match persistedEntryToState entry with
  | some state => entries.insert entry.key state
  | none => entries

theorem parseResource_eq_some {text : String} {res : PermissionResource}
    (h : parseResource text = some res) : permissionResourceKey res = text := by
  unfold parseResource at h
  split at h <;> cases h <;> rfl

theorem permissionTargetKey_parseTarget (tgt : String) :
    permissionTargetKey (parseTarget tgt) = tgt := by
  unfold parseTarget
  by_cases h : tgt = "global"
  · rw [if_pos h, h]
    rfl
  · rw [if_neg h]
    rfl

theorem keyed_of_entry {e : PersistedPermissionEntry} {st : PermissionState}
    (h : persistedEntryToState e = some st) : e.key.2 =
      (permissionResourceKey st.resource, permissionTargetKey st.target) := by
  simp only [persistedEntryToState, bind_eq_bind, bind_eq_some_iff,
    pure_def, some.injEq] at h
  obtain ⟨res, hr, decision, -, sc, -, rfl⟩ := h
  simp only [PersistedPermissionEntry.key, parseResource_eq_some hr,
    permissionTargetKey_parseTarget]

/-- The store that the entries of a file make. -/
def loadEntries (file : List PersistedPermissionEntry) : PersistentPermissionStore where
  entries := file.foldl loadEntry ∅
  keyed key state h := by
    induction file using List.reverseRecOn with
    | nil => simp at h
    | append_singleton file entry ih =>
      rw [List.foldl_append, List.foldl_cons, List.foldl_nil, loadEntry] at h
      split at h
      case h_1 loaded hloaded =>
        rw [Std.ExtTreeMap.getElem?_insert] at h
        split at h
        case isTrue heq =>
          cases h
          rw [← Std.LawfulEqCmp.eq_of_compare heq]
          exact keyed_of_entry hloaded
        case isFalse => exact ih h
      case h_2 => exact ih h

/-- The TOML serializer: it may refuse a file, and it reads back what it writes. -/
structure TomlCodec where
  encode : List PersistedPermissionEntry → Option String
  decode : String → Option (List PersistedPermissionEntry)
  decode_encode : ∀ file text, encode file = some text → decode text = some file

/-- `load_from_path`. A file that cannot be read or parsed makes an empty store. -/
def loadFromPath (codec : TomlCodec) (contents : Option String) : PersistentPermissionStore :=
  match contents.bind codec.decode with
  | some file => loadEntries file
  | none => PersistentPermissionStore.empty

/-- `Saves codec store text`: a save of the store can write the text. The map iterates over its
entries in no particular order. -/
def Saves (codec : TomlCodec) (store : PersistentPermissionStore) (text : String) : Prop :=
  ∃ file, file.Perm (store.entries.toList.map fun entry => stateToPersistedEntry entry.1 entry.2) ∧
    codec.encode file = some text

end FocalDesk
