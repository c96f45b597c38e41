import FocalDesk.Secret.Store
import FocalDesk.Library.Transition

/-! The master key of a user's secrets, wrapped under a password. -/
namespace FocalDesk

variable {passwords : List UInt8 → Prop}

/-- The key derivations and the AEAD. What was encrypted is decrypted under the same password, and
refused under another one of the passwords in use. -/
structure KeyCrypto (passwords : List UInt8 → Prop) where
  Key : Type
  argon2 : List UInt8 → List UInt8 → Option Key
  legacyKek : List UInt8 → List UInt8 → Key
  encrypt : Key → List UInt8 → List UInt8 → List UInt8
  decrypt : Key → List UInt8 → List UInt8 → Option (List UInt8)
  decrypt_encrypt : ∀ key nonce plain, decrypt key nonce (encrypt key nonce plain) = some plain
  length_encrypt : ∀ key nonce plain, (encrypt key nonce plain).length = plain.length + 16
  argon2_rejects : ∀ p q salt key key' nonce plain, passwords p → passwords q → q ≠ p →
    argon2 p salt = some key → argon2 q salt = some key' →
      decrypt key' nonce (encrypt key nonce plain) = none
  legacy_rejects : ∀ p q salt nonce plain, passwords p → passwords q → q ≠ p →
    decrypt (legacyKek q salt) nonce (encrypt (legacyKek p salt) nonce plain) = none

structure KeySalt where
  bytes : List UInt8
  length_bytes : bytes.length = 16

/-- A master key of 32 bytes. -/
structure MasterKey where
  bytes : List UInt8
  length_bytes : bytes.length = 32
deriving DecidableEq

inductive KeyWrapError where
  | format
  | badPassword
  | crypto
deriving DecidableEq

/-- `b"FKEY1"` -/
def magicV1 : List UInt8 := [70, 75, 69, 89, 49]

/-- `b"FKEY2"` -/
def magicV2 : List UInt8 := [70, 75, 69, 89, 50]

/-- Memory, iterations and lanes, as the bytes of three big-endian numbers. -/
def argonParams : List UInt8 := [0, 1, 0, 0, 0, 0, 0, 3, 0, 0, 0, 1]

def legacyWrappedLen : ℕ := 81

def wrappedLen : ℕ := 93

namespace KeyCrypto
variable (crypto : KeyCrypto passwords)

def wrap (password : List UInt8) (master : MasterKey) (salt : KeySalt) (nonce : SecretNonce) :
    Except KeyWrapError (List UInt8) :=
  match crypto.argon2 password salt.bytes with
  | none => .error .crypto
  | some key =>
    .ok (magicV2 ++ (argonParams ++ (salt.bytes ++ (nonce.bytes ++
      crypto.encrypt key nonce.bytes master.bytes))))

def finishUnwrap (plain : List UInt8) : Except KeyWrapError MasterKey :=
  if h : plain.length = 32 then .ok ⟨plain, h⟩ else .error .format

/-- A ciphertext opened with a key that was derived. -/
def openWith (key : crypto.Key) (nonce cipher : List UInt8) : Except KeyWrapError MasterKey :=
  match crypto.decrypt key nonce cipher with
  | none => .error .badPassword
  | some plain => finishUnwrap plain

def unwrapV1 (password wrapped : List UInt8) : Except KeyWrapError MasterKey :=
  crypto.openWith (crypto.legacyKek password ((wrapped.drop 5).take 16))
    ((wrapped.drop 21).take 12) (wrapped.drop 33)

def unwrap (password wrapped : List UInt8) : Except KeyWrapError MasterKey :=
  if wrapped.length = legacyWrappedLen ∧ wrapped.take 5 = magicV1 then
    crypto.unwrapV1 password wrapped
  else if wrapped.length ≠ wrappedLen ∨ wrapped.take 5 ≠ magicV2 then .error .format
  else if (wrapped.drop 5).take 12 ≠ argonParams then .error .format
  else
    match crypto.argon2 password ((wrapped.drop 17).take 16) with
    | none => .error .crypto
    | some key => crypto.openWith key ((wrapped.drop 33).take 12) (wrapped.drop 45)

def rewrap (old new wrapped : List UInt8) (salt : KeySalt) (nonce : SecretNonce) :
    Except KeyWrapError (List UInt8) :=
  match crypto.unwrap old wrapped with
  | .error error => .error error
  | .ok master => crypto.wrap new master salt nonce

/-- A wrapped file of either format that holds a master key under a password. -/
inductive Wraps (master : MasterKey) (p : List UInt8) : List UInt8 → Prop where
  | v1 (salt : KeySalt) (nonce : SecretNonce) : Wraps master p
      (magicV1 ++ (salt.bytes ++ (nonce.bytes ++
        crypto.encrypt (crypto.legacyKek p salt.bytes) nonce.bytes master.bytes)))
  | v2 (salt : KeySalt) (nonce : SecretNonce) (key : crypto.Key)
      (hkey : crypto.argon2 p salt.bytes = some key) : Wraps master p
      (magicV2 ++ (argonParams ++ (salt.bytes ++ (nonce.bytes ++
        crypto.encrypt key nonce.bytes master.bytes))))

end KeyCrypto

def needsUpgrade (wrapped : List UInt8) : Bool :=
  wrapped.length == legacyWrappedLen && magicV1.isPrefixOf wrapped

namespace KeyCrypto

variable {crypto : KeyCrypto passwords} {master master' : MasterKey} {p q wrapped : List UInt8}
  {key key' : crypto.Key} {salt : KeySalt} {nonce : SecretNonce}

theorem wraps_of_wrap (h : crypto.wrap p master salt nonce = .ok wrapped) :
    crypto.Wraps master p wrapped := by
  unfold wrap at h
  cases hk : crypto.argon2 p salt.bytes with
  | none =>
    rw [hk] at h
    cases h
  | some key =>
    rw [hk] at h
    obtain rfl := Except.ok.inj h
    exact .v2 salt nonce key hk

theorem finishUnwrap_master (master : MasterKey) : finishUnwrap master.bytes = .ok master := by
  rw [finishUnwrap, dif_pos master.length_bytes]

theorem openWith_self : crypto.openWith key nonce.bytes
    (crypto.encrypt key nonce.bytes master.bytes) = .ok master := by
  rw [openWith, crypto.decrypt_encrypt]
  exact finishUnwrap_master master

theorem unwrap_v1 (q : List UInt8) (salt : KeySalt) (nonce : SecretNonce) (key : crypto.Key)
    (master : MasterKey) :
    crypto.unwrap q (magicV1 ++ (salt.bytes ++ (nonce.bytes ++
        crypto.encrypt key nonce.bytes master.bytes))) =
      crypto.openWith (crypto.legacyKek q salt.bytes) nonce.bytes
        (crypto.encrypt key nonce.bytes master.bytes) := by
  have hs := salt.length_bytes
  have hn := nonce.length_bytes
  have hc := crypto.length_encrypt key nonce.bytes master.bytes
  rw [master.length_bytes] at hc
  generalize crypto.encrypt key nonce.bytes master.bytes = cipher at hc ⊢
  have hm : magicV1.length = 5 := rfl
  unfold unwrap
  rw [if_pos]
  · unfold unwrapV1
    have hs21 : (magicV1 ++ (salt.bytes ++ (nonce.bytes ++ cipher))).drop 21 =
        nonce.bytes ++ cipher := by
      rw [← List.append_assoc, List.drop_left' (by simp [hm, hs])]
    have hs33 : (magicV1 ++ (salt.bytes ++ (nonce.bytes ++ cipher))).drop 33 = cipher := by
      rw [← List.append_assoc, ← List.append_assoc, List.drop_left' (by simp [hm, hs, hn])]
    rw [List.drop_left' hm, List.take_left' hs, hs21, List.take_left' hn, hs33]
  · refine ⟨?_, List.take_left' hm⟩
    simp only [List.length_append, hm, hs, hn, hc, legacyWrappedLen]

theorem unwrap_v2 (q : List UInt8) (salt : KeySalt) (nonce : SecretNonce) (key : crypto.Key)
    (master : MasterKey) :
    crypto.unwrap q (magicV2 ++ (argonParams ++ (salt.bytes ++ (nonce.bytes ++
        crypto.encrypt key nonce.bytes master.bytes)))) =
      (crypto.argon2 q salt.bytes).elim (.error .crypto) fun key' =>
        crypto.openWith key' nonce.bytes (crypto.encrypt key nonce.bytes master.bytes) := by
  have hs := salt.length_bytes
  have hn := nonce.length_bytes
  have hc := crypto.length_encrypt key nonce.bytes master.bytes
  rw [master.length_bytes] at hc
  generalize crypto.encrypt key nonce.bytes master.bytes = cipher at hc ⊢
  have hm : magicV2.length = 5 := rfl
  have hp : argonParams.length = 12 := rfl
  have hl : (magicV2 ++ (argonParams ++ (salt.bytes ++ (nonce.bytes ++ cipher)))).length =
      wrappedLen := by
    simp only [List.length_append, hm, hp, hs, hn, hc, wrappedLen]
  have hs17 : (magicV2 ++ (argonParams ++ (salt.bytes ++ (nonce.bytes ++ cipher)))).drop 17 =
      salt.bytes ++ (nonce.bytes ++ cipher) := by
    rw [← List.append_assoc, List.drop_left' (by simp [hm, hp])]
  have hs33 : (magicV2 ++ (argonParams ++ (salt.bytes ++ (nonce.bytes ++ cipher)))).drop 33 =
      nonce.bytes ++ cipher := by
    rw [← List.append_assoc, ← List.append_assoc, List.drop_left' (by simp [hm, hp, hs])]
  have hs45 : (magicV2 ++ (argonParams ++ (salt.bytes ++ (nonce.bytes ++ cipher)))).drop 45 =
      cipher := by
    rw [← List.append_assoc, ← List.append_assoc, ← List.append_assoc,
      List.drop_left' (by simp [hm, hp, hs, hn])]
  unfold unwrap
  rw [hl, List.take_left' hm, List.drop_left' hm, List.take_left' hp, hs17,
    List.take_left' hs, hs33, List.take_left' hn, hs45]
  rw [if_neg (by decide), if_neg (by decide), if_neg (by decide)]
  cases crypto.argon2 q salt.bytes <;> rfl

/-- Among the passwords in use exactly one opens a wrapped file, and it gives the master key. -/
theorem Wraps.unwrap_iff (h : crypto.Wraps master p wrapped) (hp : passwords p) (hq : passwords q)
    : crypto.unwrap q wrapped = .ok master' ↔ q = p ∧ master' = master := by
  constructor
  · intro hok
    by_cases hs : q = p
    · subst hs
      refine ⟨rfl, ?_⟩
      cases h with
      | v1 salt nonce =>
        rw [unwrap_v1, openWith_self] at hok
        exact (Except.ok.inj hok).symm
      | v2 salt nonce key hk =>
        rw [unwrap_v2, hk, Option.elim_some] at hok
        exact (Except.ok.inj ((openWith_self).symm.trans hok)).symm
    · cases h with
      | v1 salt nonce =>
        rw [unwrap_v1, openWith, crypto.legacy_rejects p q _ _ _ hp hq hs] at hok
        cases hok
      | v2 salt nonce key hk =>
        rw [unwrap_v2] at hok
        cases hk' : crypto.argon2 q salt.bytes with
        | none =>
          rw [hk'] at hok
          cases hok
        | some key' =>
          rw [hk', Option.elim_some] at hok
          simp only [openWith, crypto.argon2_rejects p q _ _ _ _ _ hp hq hs hk hk'] at hok
          cases hok
  · rintro ⟨rfl, rfl⟩
    cases h with
    | v1 salt nonce =>
      rw [unwrap_v1]
      exact openWith_self
    | v2 salt nonce key hk =>
      rw [unwrap_v2, hk, Option.elim_some]
      exact openWith_self

end KeyCrypto

end FocalDesk

/-! The PAM module: who writes the wrapped key, and what is staged for the broker. -/
namespace FocalDesk

inductive PamResult where
  | success
  | ignore
deriving DecidableEq

/-! Files that are replaced by a rename. -/

/-- The steps of `write_owned`, and of `write_system_credential`. -/
inductive WriteStep where
  | openParent
  | random
  | openTemporary
  | chown
  | chmod
  | write
  | syncFile
  | rename
  | syncParent
deriving DecidableEq

/-- A step fails, or the machine stops at it; a rename that was not synced may then be lost. -/
inductive WriteFault where
  | error
  | crash (renamed : Bool)
deriving DecidableEq

/-- What a write meets: everything works, or a fault at one of its steps. -/
abbrev WriteSurroundings := Option (WriteStep × WriteFault)

inductive WriteResult where
  | done
  | failed
  | crashed
deriving DecidableEq

/-- The rename took place, and is not lost. -/
def WriteSurroundings.replaces : WriteSurroundings → Bool
  | none => true
  | some (.syncParent, .error) => true
  | some (.syncParent, .crash renamed) => renamed
  | some (.rename, .crash renamed) => renamed
  | some _ => false

def WriteSurroundings.result : WriteSurroundings → WriteResult
  | none => .done
  | some (_, .error) => .failed
  | some (_, .crash _) => .crashed

/-- What is at a path after a write to it. -/
def WriteSurroundings.write {α : Type} (around : WriteSurroundings) (old : Option α) (new : α) :
    Option α :=
  if around.replaces then some new else old

/-- The file at the wrapped-key path. It is trusted if it is a regular file of the user that
nobody else may use. -/
structure KeyFile where
  data : List UInt8
  trusted : Bool
deriving DecidableEq

inductive ReadOwnedError where
  | notFound
  | other
deriving DecidableEq

/-- `read_owned` with the limits of a wrapped key. -/
def readOwned (file : Option KeyFile) (fails : Bool) : Except ReadOwnedError (List UInt8) :=
  if fails then .error .other
  else
    match file with
    | none => .error .notFound
    | some file =>
      if file.trusted = false ∨ file.data.length < legacyWrappedLen ∨
          wrappedLen < file.data.length then .error .other
      else .ok file.data

/-! The calls. -/

/-- A call of `pam_sm_open_session`: what it gets from PAM, draws and meets. -/
structure OpenSessionCall where
  password : Option (List UInt8)
  /-- The user id, if the user is known. -/
  uid : Option ℕ
  lockAcquired : Bool
  readFails : Bool
  storeExists : Bool
  drawnMaster : MasterKey
  salt : KeySalt
  nonce : SecretNonce
  writing : WriteSurroundings
  staging : WriteSurroundings
  credentialRemoved : Bool

/-- A call of `pam_sm_chauthtok`. -/
structure ChangePasswordCall where
  updates : Bool
  old : Option (List UInt8)
  new : Option (List UInt8)
  uid : Option ℕ
  lockAcquired : Bool
  readFails : Bool
  salt : KeySalt
  nonce : SecretNonce
  writing : WriteSurroundings

inductive PamCall where
  | openSession (call : OpenSessionCall)
  | changePassword (call : ChangePasswordCall)

/-- The files of one user. The last three fields are for the record: how many master keys were
generated, the passwords of the last rewrap, and those of the last one that could unwrap. -/
structure PamState where
  file : Option KeyFile
  credential : Option MasterKey
  generated : ℕ
  attempted : Option (List UInt8 × List UInt8)
  rewrapped : Option (List UInt8 × List UInt8)

variable {passwords : List UInt8 → Prop} (crypto : KeyCrypto passwords)

namespace PamState

/-- `write_owned` of a wrapped key. -/
def writeKey (state : PamState) (around : WriteSurroundings) (data : List UInt8) : PamState :=
  { state with file := around.write state.file { data, trusted := true } }

/-- Staging the credential, starting the broker and removing the credential. -/
def stage (state : PamState) (call : OpenSessionCall) (master : MasterKey) : PamState :=
  let credential := call.staging.write state.credential master
  match call.staging.result with
  | .done => { state with credential := if call.credentialRemoved then none else credential }
  | .failed => { state with credential }
  | .crashed => { state with credential }

/-- A file in the old format is wrapped again under the same password. -/
def upgrade (state : PamState) (call : OpenSessionCall) (password wrapped : List UInt8)
    (master : MasterKey) : PamState × WriteResult :=
  if needsUpgrade wrapped then
    match crypto.wrap password master call.salt call.nonce with
    | .error _ => (state, .failed)
    | .ok upgraded => (state.writeKey call.writing upgraded, call.writing.result)
  else (state, .done)

/-- The first login, without a wrapped key. -/
def firstLogin (state : PamState) (call : OpenSessionCall) (password : List UInt8) : PamState :=
  if call.storeExists then state
  else
    match crypto.wrap password call.drawnMaster call.salt call.nonce with
    | .error _ => { state with generated := state.generated + 1 }
    | .ok wrapped =>
      let written :=
        ({ state with generated := state.generated + 1 } : PamState).writeKey call.writing wrapped
      match call.writing.result with
      | .done => written.stage call call.drawnMaster
      | _ => written

/-- `pam_sm_open_session` -/
def openSession (state : PamState) (call : OpenSessionCall) : PamState × PamResult :=
  match call.password with
  | none => (state, .success)
  | some password =>
    match call.uid with
    | none => (state, .success)
    | some uid =>
      if uid = 0 ∨ call.lockAcquired = false then (state, .success)
      else
        match readOwned state.file call.readFails with
        | .error .other => (state, .success)
        | .error .notFound => (state.firstLogin crypto call password, .success)
        | .ok wrapped =>
          match crypto.unwrap password wrapped with
          | .error _ => (state, .success)
          | .ok master =>
            let upgraded := state.upgrade crypto call password wrapped master
            match upgraded.2 with
            | .crashed => (upgraded.1, .success)
            | _ => (upgraded.1.stage call master, .success)

/-- `pam_sm_chauthtok` -/
def changePassword (state : PamState) (call : ChangePasswordCall) : PamState × PamResult :=
  if call.updates = false then (state, .ignore)
  else
    match call.old, call.new with
    | some old, some new =>
      if call.uid.isNone ∨ call.lockAcquired = false then (state, .ignore)
      else
        match readOwned state.file call.readFails with
        | .error _ => (state, .ignore)
        | .ok wrapped =>
          let attempted := { state with attempted := some (old, new) }
          match crypto.unwrap old wrapped with
          | .error _ => (attempted, .success)
          | .ok _ =>
            let rewrapping := { attempted with rewrapped := some (old, new) }
            match crypto.rewrap old new wrapped call.salt call.nonce with
            | .error _ => (rewrapping, .success)
            | .ok rewrapped => (rewrapping.writeKey call.writing rewrapped, .success)
    | _, _ => (state, .ignore)

/-- Calls are serialized by the provision lock. -/
def step (state : PamState) : PamCall → Option PamState
  | .openSession call => some (state.openSession crypto call).1
  | .changePassword call => some (state.changePassword crypto call).1

end PamState

end FocalDesk
