import FocalDesk.Keyring.Pam

/-! The master key of a user stays the same through logins, password changes and crashes. -/
namespace FocalDesk
open Library

variable {passwords : List UInt8 → Prop} {crypto : KeyCrypto passwords} {master master' : MasterKey}
  {first p password wrapped : List UInt8} {state st' : PamState} {calls : List PamCall}
  {env : WriteSurroundings} {file : KeyFile} {fails : Bool}

/-- The passwords that a call brings are among those in use. -/
def PamCall.uses (passwords : List UInt8 → Prop) : PamCall → Prop
  | .openSession call => ∀ p ∈ call.password, passwords p
  | .changePassword call => (∀ p ∈ call.old, passwords p) ∧ ∀ p ∈ call.new, passwords p

namespace PamState

/-- A user whose wrapped key was put there before. -/
def holding (file : KeyFile) : PamState where
  file := some file
  credential := none
  generated := 0
  attempted := none
  rewrapped := none

/-- The file holds the master key under a password of the last rewrap, no other key was generated
and no other key is staged. -/
structure Holds (crypto : KeyCrypto passwords) (master : MasterKey) (first p : List UInt8)
    (state : PamState) : Prop where
  file : ∃ file, state.file = some file ∧ crypto.Wraps master p file.data
  inUse : passwords p
  password : state.rewrapped.elim (p = first) fun last => p = last.1 ∨ p = last.2
  generated : state.generated = 0
  credential : state.credential = none ∨ state.credential = some master

theorem write_cases {α : Type} (env : WriteSurroundings) (old : Option α) (new : α) :
    env.write old new = some new ∨ env.write old new = old := by
  unfold WriteSurroundings.write
  split
  · exact .inl rfl
  · exact .inr rfl

theorem readOwned_eq_ok (h : readOwned (some file) fails = .ok wrapped) : wrapped = file.data := by
  unfold readOwned at h
  split at h
  · cases h
  · dsimp only at h
    split at h
    · cases h
    · exact (Except.ok.inj h).symm

theorem readOwned_ne_notFound : readOwned (some file) fails ≠ .error .notFound := by
  intro h
  unfold readOwned at h
  split at h
  · cases h
  · dsimp only at h
    split at h <;> cases h

namespace Holds

/-- The file is replaced by another one that holds the key under the same password, or stays. -/
theorem writeKey (h : state.Holds crypto master first p) (hw : crypto.Wraps master p wrapped)
    (env : WriteSurroundings) : (state.writeKey env wrapped).Holds crypto master first p := by
  obtain ⟨file, hf, hold⟩ := h.file
  refine ⟨?_, h.inUse, h.password, h.generated, h.credential⟩
  rcases write_cases env state.file { data := wrapped, trusted := true } with hn | hs
  · exact ⟨_, hn, hw⟩
  · exact ⟨file, hs.trans hf, hold⟩

theorem stage (h : state.Holds crypto master first p) (call : OpenSessionCall) :
    (state.stage call master).Holds crypto master first p := by
  have hw : call.staging.write state.credential master = none ∨
      call.staging.write state.credential master = some master := by
    rcases write_cases call.staging state.credential master with hn | hs
    · exact .inr hn
    · rw [hs]
      exact h.credential
  unfold PamState.stage
  dsimp only
  split
  · refine ⟨h.file, h.inUse, h.password, h.generated, ?_⟩
    dsimp only
    split
    · exact .inl rfl
    · exact hw
  · exact ⟨h.file, h.inUse, h.password, h.generated, hw⟩
  · exact ⟨h.file, h.inUse, h.password, h.generated, hw⟩

theorem upgrade (h : state.Holds crypto master first p) (call : OpenSessionCall)
    (wrapped : List UInt8) :
    (state.upgrade crypto call p wrapped master).1.Holds crypto master first p := by
  unfold PamState.upgrade
  split
  · cases hw : crypto.wrap p master call.salt call.nonce with
    | error error => exact h
    | ok upgraded => exact h.writeKey (KeyCrypto.wraps_of_wrap hw) call.writing
  · exact h

theorem openSession (h : state.Holds crypto master first p) {call : OpenSessionCall}
    (hus : ∀ q ∈ call.password, passwords q) :
    (state.openSession crypto call).1.Holds crypto master first p := by
  obtain ⟨file, hf, hw⟩ := h.file
  unfold PamState.openSession
  split
  · exact h
  · rename_i password hp
    split
    · exact h
    · split
      · exact h
      · split
        · exact h
        · rename_i hm
          rw [hf] at hm
          exact absurd hm readOwned_ne_notFound
        · rename_i wrapped hr
          rw [hf] at hr
          obtain rfl := readOwned_eq_ok hr
          split
          · exact h
          · rename_i opened ho
            obtain ⟨rfl, rfl⟩ := (hw.unwrap_iff h.inUse (hus password hp)).mp ho
            have hu := h.upgrade call file.data
            dsimp only
            split
            · exact hu
            · exact hu.stage call

/-- A rewrap leaves the key under the old password or puts it under the new one. -/
theorem changePassword (h : state.Holds crypto master first p) {call : ChangePasswordCall}
    (hn : ∀ q ∈ call.new, passwords q) (hold : ∀ q ∈ call.old, passwords q) :
    ∃ q, (state.changePassword crypto call).1.Holds crypto master first q := by
  obtain ⟨file, hf, hw⟩ := h.file
  unfold PamState.changePassword
  split
  · exact ⟨p, h⟩
  · split
    · rename_i old new hc hcn
      split
      · exact ⟨p, h⟩
      · split
        · exact ⟨p, h⟩
        · rename_i wrapped hre
          rw [hf] at hre
          obtain rfl := readOwned_eq_ok hre
          dsimp only
          split
          · exact ⟨p, ⟨file, hf, hw⟩, h.inUse, h.password, h.generated, h.credential⟩
          · rename_i opened ho
            obtain ⟨rfl, rfl⟩ := (hw.unwrap_iff h.inUse (hold old hc)).mp ho
            have hk : Holds crypto opened first old
                { state with attempted := some (old, new), rewrapped := some (old, new) } :=
              ⟨⟨file, hf, hw⟩, h.inUse, .inl rfl, h.generated, h.credential⟩
            split
            · exact ⟨old, hk⟩
            · rename_i rewrapped hr
              rw [KeyCrypto.rewrap, ho] at hr
              rcases write_cases call.writing state.file { data := rewrapped, trusted := true } with
                hwr | hs
              · exact ⟨new, ⟨_, hwr, KeyCrypto.wraps_of_wrap hr⟩, hn new hcn,
                  .inr rfl, h.generated, h.credential⟩
              · exact ⟨old, ⟨file, hs.trans hf, hw⟩, h.inUse, .inl rfl, h.generated, h.credential⟩
    · exact ⟨p, h⟩

end Holds

theorem step_holds {call : PamCall} (hs : state.step crypto call = some st')
    (hu : call.uses passwords) (h : ∃ p, state.Holds crypto master first p) :
    ∃ p, st'.Holds crypto master first p := by
  obtain ⟨p, h⟩ := h
  cases call with
  | openSession call =>
    cases hs
    exact ⟨p, h.openSession hu⟩
  | changePassword call =>
    cases hs
    exact h.changePassword hu.2 hu.1

end PamState

/-- Through any sequence of logins and password changes, with every fault of a write, the file holds
the same master key under exactly one of the passwords in use, which is one of the two of the last
rewrap that could unwrap the file; no key is generated, and none but this one is staged. -/
theorem master_key_stable (crypto : KeyCrypto passwords) (hfirst : passwords first)
    (hwraps : crypto.Wraps master first file.data) (huses : ∀ call ∈ calls, call.uses passwords)
    (hrun : run (PamState.step crypto) (PamState.holding file) calls = some state) :
    ∃ file p, state.file = some file ∧ passwords p ∧
      (state.rewrapped.elim (p = first) fun last => p = last.1 ∨ p = last.2) ∧
      (∀ q master', passwords q →
        (crypto.unwrap q file.data = .ok master' ↔ q = p ∧ master' = master)) ∧
      state.generated = 0 ∧ (state.credential = none ∨ state.credential = some master) := by
  have hm : Meets (PamState.step crypto) (fun _ call => call.uses passwords)
      (PamState.holding file) calls := meets_of_forall fun call hc _ => huses call hc
  have hs : ∃ p, (PamState.holding file).Holds crypto master first p :=
    ⟨first, ⟨file, rfl, hwraps⟩, hfirst, rfl, rfl, .inl rfl⟩
  obtain ⟨p, h⟩ := run_invariant_of_meets PamState.step_holds hm hrun hs
  obtain ⟨file', hf, hwraps'⟩ := h.file
  exact ⟨file', p, hf, h.inUse, h.password,
    fun q master' hq => hwraps'.unwrap_iff h.inUse hq, h.generated, h.credential⟩

/-! A password change, and one that got the old password wrong. -/

/-- A key derivation for passwords of one byte, and a cipher that appends its key. -/
def byteCrypto : KeyCrypto fun p => p.length = 1 where
  Key := UInt8
  argon2 password _ := password.head?
  legacyKek password _ := password.headD 0
  encrypt key _ plain := plain ++ List.replicate 16 key
  decrypt key _ cipher :=
    if cipher.drop (cipher.length - 16) = List.replicate 16 key then
      some (cipher.take (cipher.length - 16))
    else none
  decrypt_encrypt key nonce plain := by simp
  length_encrypt key nonce plain := by simp
  argon2_rejects p q salt key key' nonce plain hp hq hne hkey hkey' := by
    obtain ⟨a, rfl⟩ := List.length_eq_one_iff.mp hp
    obtain ⟨b, rfl⟩ := List.length_eq_one_iff.mp hq
    obtain rfl := Option.some.inj hkey
    obtain rfl := Option.some.inj hkey'
    have hab : a ≠ b := by
      rintro rfl
      exact hne rfl
    simp [hab]
  legacy_rejects p q salt nonce plain hp hq hne := by
    obtain ⟨a, rfl⟩ := List.length_eq_one_iff.mp hp
    obtain ⟨b, rfl⟩ := List.length_eq_one_iff.mp hq
    have hab : a ≠ b := by
      rintro rfl
      exact hne rfl
    simp [hab]

def sampleMaster : MasterKey := ⟨List.replicate 32 7, rfl⟩

def sampleSalt : KeySalt := ⟨List.replicate 16 0, rfl⟩

def sampleNonce : SecretNonce := ⟨List.replicate 12 7, rfl⟩

/-- An old wrapped key under the password `[1]`. -/
def legacyFile : KeyFile where
  data := magicV1 ++ (sampleSalt.bytes ++ (sampleNonce.bytes ++
    byteCrypto.encrypt (byteCrypto.legacyKek [1] sampleSalt.bytes) sampleNonce.bytes
      sampleMaster.bytes))
  trusted := true

theorem wraps_legacyFile : byteCrypto.Wraps sampleMaster [1] legacyFile.data :=
  .v1 sampleSalt sampleNonce

def changePasswordCall (old new : List UInt8) (writing : WriteSurroundings) : PamCall :=
  .changePassword
    { updates := true, old := some old, new := some new, uid := some 1000, lockAcquired := true
      readFails := false, salt := sampleSalt, nonce := sampleNonce, writing }

/-- The machine stops at the rename of the first change; the second one works. -/
def stabilityCalls : List PamCall :=
  [changePasswordCall [1] [2] (some (.rename, .crash false)), changePasswordCall [1] [3] none]

theorem master_key_stable_sample : ∃ state file p,
    run (PamState.step byteCrypto) (PamState.holding legacyFile) stabilityCalls = some state ∧
      state.file = some file ∧ (p = [1] ∨ p = [3]) ∧
      byteCrypto.unwrap p file.data = .ok sampleMaster := by
  obtain ⟨state, hru, hr⟩ : ∃ state,
      run (PamState.step byteCrypto) (PamState.holding legacyFile) stabilityCalls = some state ∧
        decide (state.rewrapped = some ([1], [3])) = true := exists_run_of_any (by decide +kernel)
  obtain ⟨file, p, hf, hp, hl, hu, -, -⟩ := master_key_stable byteCrypto rfl
    wraps_legacyFile (by simp [stabilityCalls, changePasswordCall, PamCall.uses]) hru
  rw [of_decide_eq_true hr] at hl
  exact ⟨state, file, p, hru, hf, hl, (hu p sampleMaster hp).mpr ⟨rfl, rfl⟩⟩

/-- After a change with a wrong old password the file opens under neither of its passwords. -/
theorem wrong_old_password_keeps_file :
    ¬ ∀ (passwords : List UInt8 → Prop) (crypto : KeyCrypto passwords) (master : MasterKey)
      (first old new : List UInt8) (file : KeyFile) (calls : List PamCall) (state : PamState),
      passwords first → crypto.Wraps master first file.data →
      (∀ call ∈ calls, call.uses passwords) →
      run (PamState.step crypto) (PamState.holding file) calls = some state →
      state.attempted = some (old, new) →
      ∃ file p, state.file = some file ∧ (p = old ∨ p = new) ∧
        crypto.unwrap p file.data = .ok master := by
  intro h
  obtain ⟨state, hr, hs⟩ : ∃ state,
      run (PamState.step byteCrypto) (PamState.holding legacyFile)
          [changePasswordCall [2] [3] none] = some state ∧
        (decide (state.attempted = some ([2], [3])) && decide (state.file = some legacyFile)) =
          true := exists_run_of_any (by decide +kernel)
  rw [Bool.and_eq_true, decide_eq_true_eq, decide_eq_true_eq] at hs
  obtain ⟨file, p, hfi, hp, hu⟩ := h _ byteCrypto sampleMaster [1] [2] [3] legacyFile _ state
    rfl wraps_legacyFile (by simp [changePasswordCall, PamCall.uses]) hr hs.1
  obtain rfl := Option.some.inj (hs.2.symm.trans hfi)
  have hi : p.length = 1 := by rcases hp with rfl | rfl <;> rfl
  have hf := ((KeyCrypto.Wraps.unwrap_iff wraps_legacyFile rfl hi).mp hu).1
  rcases hp with rfl | rfl
  · exact absurd hf (by decide)
  · exact absurd hf (by decide)

end FocalDesk
