import FocalDesk.Registry.Store
import Std.Data.String.ToNat

/-! What a registry has written, and whether it can read it back. -/
namespace FocalDesk
open Library List Prod Nat RegistryChange

variable {gates : RegistryGates} {disk next : RegistryDisk gates.Scenario}
  {policy : FaiRegistryPolicy} {change : RegistryChange gates.Scenario}
  {bundle : FaiBundle gates.Scenario} {c : Coordinates}

inductive FaiRegistryCall (Scenario : Type) where
  | initializePolicy (registryId : String)
  | change (change : RegistryChange Scenario)

/-- A run consists of calls that succeed. -/
def registryStep (gates : RegistryGates) (disk : RegistryDisk gates.Scenario) :
    FaiRegistryCall gates.Scenario → Option (RegistryDisk gates.Scenario)
  | .initializePolicy registryId => (disk.initializePolicy registryId).toOption.map Prod.fst
  | .change change => (change.perform gates disk).toOption.map Prod.fst

/-- The indented texts that a call writes are short enough for their readers, and the text of
a bundle reads back as the bundle. -/
def Writable (gates : RegistryGates) (disk : RegistryDisk gates.Scenario) :
    FaiRegistryCall gates.Scenario → Prop
  | .initializePolicy _ => True
  | .change change =>
    (∀ policy ∈ disk.policy, byteLen (change.changed policy).pretty ≤ maxPolicyBytes) ∧
      ∀ bundle ∈ change.bundle?,
        gates.prettyLen bundle ≤ maxBundleBytes ∧ gates.readBundle bundle = .ok bundle

instance [DecidableEq gates.Scenario] : (call : FaiRegistryCall gates.Scenario) →
    Decidable (Writable gates disk call)
  | .initializePolicy _ => isTrue trivial
  | .change change =>
    inferInstanceAs (Decidable
      ((∀ policy ∈ disk.policy, byteLen (change.changed policy).pretty ≤ maxPolicyBytes) ∧
        ∀ bundle ∈ change.bundle?,
          gates.prettyLen bundle ≤ maxBundleBytes ∧ gates.readBundle bundle = .ok bundle))

/-- The registry reads its policy and its catalog, which lists every published package once,
and it reads every published bundle that was not revoked. -/
structure RegistryDisk.ReadsBack (gates : RegistryGates) (disk : RegistryDisk gates.Scenario)
    (now : ℕ) : Prop where
  policy : ∃ policy, disk.readPolicy = .ok policy
  catalog : ∃ signed, disk.catalog gates now = .ok signed ∧
    (signed.catalog.packages.map FaiListedEntry.coordinates).Perm disk.packages.keys
  package : ∀ policy (c : Coordinates) bundle, disk.policy = some policy → disk.packages[c]? = some bundle →
    policy.isRevoked c.1 c.2 = false → disk.package gates c.1 c.2 = .ok bundle

/-! What is on the disk. -/

/-- A bundle file is stored under its coordinates, its text can be read, and it is sound. -/
structure SoundFile (gates : RegistryGates) (c : Coordinates) (bundle : FaiBundle gates.Scenario)
    : Prop where
  coordinates : bundle.coordinates = c
  path : packagePath c.1 c.2 = .ok c
  short : gates.prettyLen bundle ≤ maxBundleBytes
  reads : gates.readBundle bundle = .ok bundle
  sound : ∀ error, ∃ inspection, inspectSound gates.toPackageGates bundle error = .ok inspection

structure RegistryDisk.Readable (gates : RegistryGates) (disk : RegistryDisk gates.Scenario) :
    Prop where
  policy : ∃ policy, disk.readPolicy = .ok policy
  sequence : ∃ sequence, disk.sequence = some sequence
  files : ∀ c bundle, disk.packages[c]? = some bundle → SoundFile gates c bundle

/-! Policies. -/

theorem decodeFixed_isOk {n : ℕ} {v : String} : (∃ bytes, decodeFixed n v = .ok bytes) ↔
    byteLen v = n * 2 ∧ allChars isAsciiHexdigit v := by
  simp only [decodeFixed, bind_eq_ok, bailIf_eq_ok, pure_eq_ok, not_or, not_not,
    Bool.not_eq_false, ne_eq]
  constructor
  · rintro ⟨-, -, h, -⟩
    exact h
  · intro h
    exact ⟨_, (), h, rfl⟩

/-- What `validate_policy` asks of a policy. -/
structure FaiRegistryPolicy.Valid (policy : FaiRegistryPolicy) : Prop where
  version : policy.version = privateRegistryVersion
  registryId : isIdentifier 80 policy.registryId = true
  signers : ∀ id key, policy.approvedSigners[id]? = some key →
    isIdentifier 80 id = true ∧ byteLen key = 64 ∧ allChars isAsciiHexdigit key = true

theorem validateRegistryId_eq_ok {v kind : String} {u : Unit} :
    validateRegistryId v kind = .ok u ↔ isIdentifier 80 v := by
  simp [validateRegistryId]

theorem validateSigner_eq_ok {id key : String} : validateSigner id key = .ok () ↔
    isIdentifier 80 id ∧ byteLen key = 64 ∧ allChars isAsciiHexdigit key := by
  rw [validateSigner, unit_bind_eq_ok, validateRegistryId_eq_ok, bind_eq_ok, and_congr_right_iff]
  intro _
  rw [← decodeFixed_isOk (n := 32)]
  simp [pure, Except.pure]

theorem validate_iff : policy.validate = .ok () ↔ policy.Valid := by
  simp only [FaiRegistryPolicy.validate, unit_bind_eq_ok, bailIf_eq_ok, not_not, ne_eq,
    validateRegistryId_eq_ok, checkAll_eq_ok, validateSigner_eq_ok]
  constructor
  · rintro ⟨hv, hid, h⟩
    refine ⟨hv, hid, ?_⟩
    intro id key hk
    exact h (id, key) (Std.ExtTreeMap.mem_toList_iff_getElem?_eq_some.mpr hk)
  · rintro ⟨hv, hid, h⟩
    refine ⟨hv, hid, ?_⟩
    intro signer hs
    exact h _ _ (Std.ExtTreeMap.mem_toList_iff_getElem?_eq_some.mp hs)

theorem hexdigit_lt {d : Char} (h : isAsciiHexdigit d) : d.toNat < 128 := by
  simp only [isAsciiHexdigit, isAsciiDigit, Bool.or_eq_true, Bool.and_eq_true, decide_eq_true_eq,
    Char.le_def, UInt32.le_iff_toNat_le] at h
  have hn : ('9' : Char).val.toNat = 57 := rfl
  have hl : ('f' : Char).val.toNat = 102 := rfl
  have hu : ('F' : Char).val.toNat = 70 := rfl
  simp only [Char.toNat]
  omega

theorem lowercase_hexdigit {d : Char} (h : isAsciiHexdigit d) :
    d.utf8Size = 1 ∧ isAsciiHexdigit (toAsciiLowercaseChar d) ∧
      (toAsciiLowercaseChar d).utf8Size = 1 := by
  have ha : ∀ n < 128, isAsciiHexdigit (Char.ofNat n) →
      (Char.ofNat n).utf8Size = 1 ∧ isAsciiHexdigit (toAsciiLowercaseChar (Char.ofNat n)) ∧
        (toAsciiLowercaseChar (Char.ofNat n)).utf8Size = 1 := by decide
  have hd := ha d.toNat (hexdigit_lt h)
  rw [Char.ofNat_toNat] at hd
  exact hd h

theorem toAsciiLowercase_hex {key : String} (h : allChars isAsciiHexdigit key) :
    byteLen (toAsciiLowercase key) = byteLen key ∧
      allChars isAsciiHexdigit (toAsciiLowercase key) := by
  have hc : ∀ d ∈ key.toList, isAsciiHexdigit d := all_eq_true.mp h
  have hk : byteLen key = key.toList.length := by
    rw [← byteLen_ofList fun d hd => (lowercase_hexdigit (hc d hd)).1, String.ofList_toList]
  constructor
  · rw [toAsciiLowercase, byteLen_ofList, length_map, hk]
    intro d hd
    obtain ⟨d, hm, rfl⟩ := mem_map.mp hd
    exact (lowercase_hexdigit (hc d hm)).2.2
  · rw [toAsciiLowercase, allChars, String.toList_ofList, all_eq_true]
    intro d hd
    obtain ⟨d, hm, rfl⟩ := mem_map.mp hd
    exact (lowercase_hexdigit (hc d hm)).2.1

theorem valid_changed (h : policy.Valid) (hc : change.check disk = .ok ()) :
    (change.changed policy).Valid := by
  cases change with
  | publish bundle => exact h
  | revoke pid ver rsn now => exact ⟨h.version, h.registryId, h.signers⟩
  | approveSigner signer =>
    refine ⟨h.version, h.registryId, ?_⟩
    intro id key hk
    obtain ⟨hid, hle, hh⟩ := (validateSigner_eq_ok).mp hc
    simp only [changed, Std.ExtTreeMap.getElem?_insert] at hk
    split at hk
    case isTrue heq =>
      cases hk
      obtain ⟨hs, hl⟩ := toAsciiLowercase_hex hh
      exact ⟨Std.LawfulEqCmp.eq_of_compare heq ▸ hid, hs.trans hle, hl⟩
    case isFalse => exact h.signers id key hk

/-! A call leaves a registry readable. -/

theorem perform_eq_ok {reply : RegistryReply} (h : change.perform gates disk = .ok (next, reply)) :
    change.check disk = .ok () ∧ ∃ policy wr sequence, disk.readPolicy = .ok policy ∧
      change.write gates disk policy = .ok wr ∧ wr.disk.sequence = some sequence ∧
      next = { wr.disk with sequence := some (saturatingAdd sequence 1) } := by
  simp only [perform, RegistryDisk.bumpSequence, RegistryDisk.readSequence,
    bind_eq_ok, okOr_eq_ok, pure_eq_ok, mk.injEq] at h
  obtain ⟨u, hc, policy, hp, wr, hw, bumped, ⟨sequence, hs, rfl⟩, rfl, -⟩ := h
  exact ⟨hc, policy, wr, sequence, hp, hw, hs, rfl⟩

theorem soundFile_insert {inspection : FaiPackageInspection} {err : String}
    {pkgs : BTreeMap Coordinates (FaiBundle gates.Scenario)}
    (hf : ∀ c bundle, pkgs[c]? = some bundle → SoundFile gates c bundle)
    (hi : inspectSound gates.toPackageGates bundle err = .ok inspection)
    (hp : packagePath bundle.manifest.id bundle.manifest.version = .ok bundle.coordinates)
    (hs : gates.prettyLen bundle ≤ maxBundleBytes)
    (hr : gates.readBundle bundle = .ok bundle) (c : Coordinates)
    (other : FaiBundle gates.Scenario)
    (ho : (pkgs.insert bundle.coordinates bundle)[c]? = some other) :
    SoundFile gates c other := by
  rw [Std.ExtTreeMap.getElem?_insert] at ho
  split at ho
  case isTrue heq =>
    cases ho
    obtain rfl : bundle.coordinates = c := Std.LawfulEqCmp.eq_of_compare heq
    refine ⟨rfl, hp, hs, hr, fun err => ⟨inspection, ?_⟩⟩
    exact inspectSound_eq_ok.mpr (inspectSound_eq_ok.mp hi)
  case isFalse => exact hf c other ho

theorem RegistryDisk.Readable.perform {reply : RegistryReply} (h : disk.Readable gates)
    (hwr : Writable gates disk (.change change))
    (hp : change.perform gates disk = .ok (next, reply)) : next.Readable gates := by
  obtain ⟨hc, policy, wr, sequence, hpo, hw, hse, rfl⟩ := perform_eq_ok hp
  obtain ⟨hf, -, hv⟩ := readPolicy_eq_ok.mp hpo
  obtain ⟨hs, hb⟩ := hwr
  rcases write_cases hw with ⟨-, -, hd⟩ | ⟨bundle, inspection, err, rfl, hi, hpa, -, -, hd⟩
  · rw [hd]
    refine ⟨⟨change.changed policy, readPolicy_eq_ok.mpr ⟨rfl, hs policy hf, ?_⟩⟩,
      ⟨_, rfl⟩, h.files⟩
    exact (validate_iff).mpr (valid_changed ((validate_iff).mp hv) hc)
  · rw [hd]
    obtain ⟨hl, hr⟩ := hb bundle rfl
    exact ⟨⟨policy, readPolicy_eq_ok.mpr (readPolicy_eq_ok.mp hpo)⟩, ⟨_, rfl⟩,
      soundFile_insert h.files hi hpa hl hr⟩

/-- The policy that a new registry starts with. -/
def newPolicy (registryId : String) : FaiRegistryPolicy :=
  { version := privateRegistryVersion, registryId, approvedSigners := ∅, revoked := [] }

theorem byteLen_newPolicy (registryId : String) :
    byteLen (newPolicy registryId).pretty = byteLen (quoted registryId) + 80 := by
  have he : (∅ : BTreeMap String String).toList = [] := by decide
  have hs : (newPolicy registryId).pretty =
      "\x7b\n  \"version\": 1,\n  \"registry_id\": " ++ (quoted registryId ++
        ",\n  \"approved_signers\": \x7b\x7d,\n  \"revoked\": []\n\x7d") := by
    simp only [FaiRegistryPolicy.pretty, newPolicy, prettyObject, prettyArray, bracketed,
      map_cons, map_nil, List.isEmpty, commaLines, he, if_true, Bool.false_eq_true,
      if_false, String.append_assoc]
    rfl
  have hp : byteLen "\x7b\n  \"version\": 1,\n  \"registry_id\": " = 35 := by decide
  have ha :
      byteLen ",\n  \"approved_signers\": \x7b\x7d,\n  \"revoked\": []\n\x7d" = 45 := by
    decide
  rw [hs, byteLen_append, byteLen_append]
  omega

theorem byteLen_newPolicy_le {registryId : String} (h : isIdentifier 80 registryId) :
    byteLen (newPolicy registryId).pretty ≤ maxPolicyBytes := by
  have hl : byteLen registryId ≤ 80 := by
    simp only [isIdentifier, Bool.and_eq_true, decide_eq_true_eq] at h
    exact h.1.2
  have hq := byteLen_quoted_le registryId
  rw [byteLen_newPolicy, maxPolicyBytes]
  omega

theorem readable_opened {registryId : String}
    (h : registryStep gates .opened (.initializePolicy registryId) = some next) :
    next.Readable gates ∧ next = { RegistryDisk.opened with
      policy := some (newPolicy registryId), sequence := some 0 } := by
  simp only [registryStep, Option.map_eq_some_iff, toOption_eq_some,
    RegistryDisk.initializePolicy, RegistryDisk.opened, unit_bind_eq_ok, pure_eq_ok,
    validateRegistryId_eq_ok] at h
  obtain ⟨-, ⟨hid, rfl⟩, rfl⟩ := h
  refine ⟨⟨⟨newPolicy registryId, ?_⟩, ⟨0, rfl⟩, ?_⟩, rfl⟩
  · refine readPolicy_eq_ok.mpr ⟨rfl, byteLen_newPolicy_le hid, (validate_iff).mpr ⟨rfl, hid, ?_⟩⟩
    intro id key hk
    simp [newPolicy] at hk
  · intro c bundle hb
    simp at hb

theorem readable_step {call : FaiRegistryCall gates.Scenario}
    (h : registryStep gates disk call = some next) (hwr : Writable gates disk call)
    (hr : disk.Readable gates) : next.Readable gates := by
  cases call with
  | initializePolicy registryId =>
    obtain ⟨policy, hpo⟩ := hr.policy
    have hf := (readPolicy_eq_ok.mp hpo).1
    simp only [registryStep, Option.map_eq_some_iff, toOption_eq_some,
      RegistryDisk.initializePolicy, hf, bind_eq_ok, pure_eq_ok] at h
    obtain ⟨-, ⟨u, -, policy, -, rfl⟩, rfl⟩ := h
    exact hr
  | change change =>
    obtain ⟨⟨disk', reply⟩, hp, rfl⟩ := Option.map_eq_some_iff.mp h
    exact hr.perform hwr (toOption_eq_some.mp hp)

/-! A readable registry reads everything back. -/

theorem scanFile_of_sound {c : Coordinates} (h : SoundFile gates c bundle)
    (policy : FaiRegistryPolicy) :
    ∃ e, scanFile gates policy bundle = .ok (some e) ∧ e.coordinates = c := by
  obtain ⟨inspection, hi⟩ := h.sound "registry contains an invalid package"
  refine ⟨policy.entry bundle inspection, ?_, h.coordinates⟩
  rw [scanFile, if_neg (not_lt.mpr h.short), h.reads]
  simp only [bind, Except.bind, hi]
  rfl

theorem scanFiles_of_sound (policy : FaiRegistryPolicy)
    (fs : List (Coordinates × FaiBundle gates.Scenario))
    (h : ∀ file ∈ fs, SoundFile gates file.1 file.2) :
    ∃ found, scanFiles gates policy (fs.map snd) = .ok found ∧
      found.map FaiListedEntry.coordinates = fs.map fst := by
  induction fs with
  | nil => exact ⟨[], rfl, rfl⟩
  | cons file fs ih =>
    obtain ⟨hfi, hf⟩ := forall_mem_cons.mp h
    obtain ⟨e, he, hc⟩ := scanFile_of_sound hfi policy
    obtain ⟨found, hfo, hm⟩ := ih hf
    refine ⟨e :: found, ?_, ?_⟩
    · rw [map_cons, scanFiles, he, hfo]
      rfl
    · rw [map_cons, map_cons, hc, hm]

theorem RegistryDisk.Readable.catalog (h : disk.Readable gates) (now : ℕ) :
    ∃ signed, disk.catalog gates now = .ok signed ∧
      (signed.catalog.packages.map FaiListedEntry.coordinates).Perm disk.packages.keys := by
  obtain ⟨policy, hp⟩ := h.policy
  obtain ⟨sequence, hs⟩ := h.sequence
  obtain ⟨found, hf, hm⟩ := scanFiles_of_sound policy disk.packages.toList
    fun file hfi => h.files _ _ (Std.ExtTreeMap.mem_toList_iff_getElem?_eq_some.mp hfi)
  refine ⟨signCatalog gates policy sequence now found, ?_, ?_⟩
  · simp only [RegistryDisk.catalog, RegistryDisk.readSequence, hp, hs, okOr, hf,
      bind, Except.bind, pure, Except.pure]
  · rw [← Std.ExtTreeMap.map_fst_toList_eq_keys, ← hm]
    exact (perm_insertionSort _ found).map _

theorem RegistryDisk.Readable.package {c : Coordinates} (h : disk.Readable gates)
    (hp : disk.policy = some policy) (hb : disk.packages[c]? = some bundle)
    (hr : policy.isRevoked c.1 c.2 = false) :
    disk.package gates c.1 c.2 = .ok bundle := by
  obtain ⟨found, hfo⟩ := h.policy
  obtain ⟨hs, -⟩ := readPolicy_eq_ok.mp hfo
  obtain rfl : policy = found := Option.some.inj (hp.symm.trans hs)
  have hf := h.files c bundle hb
  obtain ⟨inspection, hi⟩ := hf.sound "registry package verification failed"
  simp only [RegistryDisk.package, hfo, hr, hf.path, hb, hf.reads,
    hi, okOr, bailIf, not_lt.mpr hf.short, bind, Except.bind, pure, Except.pure,
    Bool.false_eq_true, if_false]

theorem RegistryDisk.Readable.readsBack (h : disk.Readable gates) (now : ℕ) :
    disk.ReadsBack gates now :=
  ⟨h.policy, h.catalog now, fun _ _ _ hp hb => h.package hp hb⟩

/-- A registry whose texts are all short enough for its readers reads everything back. -/
theorem registry_reads_back (gates : RegistryGates) (registryId : String)
    (calls : List (FaiRegistryCall gates.Scenario)) (final : RegistryDisk gates.Scenario) (now : ℕ)
    (hwritable : Meets (registryStep gates) (Writable gates) .opened
      (.initializePolicy registryId :: calls))
    (hrun : run (registryStep gates) .opened (.initializePolicy registryId :: calls) =
      some final) : final.ReadsBack gates now := by
  obtain ⟨disk, hd, hre⟩ := run_cons_eq_some.mp hrun
  have hr := (readable_opened hd).1
  exact (run_invariant_of_meets readable_step (hwritable.2 disk hd) hre hr).readsBack now

/-- Gates that everything passes, for bundles far below the limit. -/
def openRegistryGates : RegistryGates where
  toPackageGates := { openGates with digestHex := fun _ => String.ofList (List.replicate 64 'd') }
  prettyLen _ := 4096
  readBundle bundle := .ok bundle
  signingPublicKeyHex := String.ofList (List.replicate 64 'a')
  sign _ := String.ofList (List.replicate 128 '0')
  verifies _ _ _ := .ok ()

instance : DecidableEq openRegistryGates.Scenario := inferInstanceAs (DecidableEq Unit)

/-- A signer is approved, and a package of hers is published. -/
def publishedCalls : List (FaiRegistryCall openRegistryGates.Scenario) :=
  [.initializePolicy "private", .change (.approveSigner (exampleSigner "alice")),
    .change (.publish (exampleBundle "base" "1" "base-routine" []))]

theorem registry_reads_back_sample :
    Meets (registryStep openRegistryGates) (Writable openRegistryGates) .opened publishedCalls ∧
      ∃ final, run (registryStep openRegistryGates) .opened publishedCalls = some final ∧
        ("base", "1") ∈ final.packages ∧ final.ReadsBack openRegistryGates 0 := by
  obtain ⟨hw, final, hr, hp⟩ :
      Meets (registryStep openRegistryGates) (Writable openRegistryGates) .opened publishedCalls ∧
        ∃ final, run (registryStep openRegistryGates) .opened publishedCalls = some final ∧
          decide (("base", "1") ∈ final.packages) = true :=
    exists_run_of_checked (by decide +kernel)
  exact ⟨hw, final, hr, of_decide_eq_true hp,
    registry_reads_back openRegistryGates "private" _ final 0 hw hr⟩

/-! A policy that its reader refuses. -/

/-- Signers under the first numbers, each with a key of its own length. -/
def approvals (n : ℕ) : List (FaiRegistryCall openRegistryGates.Scenario) :=
  (List.range n).map fun i => .change (.approveSigner (exampleSigner (toString i)))

theorem isIdentifier_toString {n : ℕ} (h : n < 10 ^ 80) :
    isIdentifier 80 (toString n) := by
  have hdi : ∀ d ∈ toDigits 10 n, d.isDigit :=
    fun d hd => isDigit_of_mem_toDigits (by omega) (by omega) hd
  have hdg : ∀ d : Char, d.isDigit → isAsciiDigit d ∧ d.utf8Size = 1 := by
    intro d hd
    have ha : isAsciiDigit d := by
      simpa [Char.isDigit, isAsciiDigit, Char.le_def] using hd
    have hh : isAsciiHexdigit d := by simp [isAsciiHexdigit, ha]
    exact ⟨ha, (lowercase_hexdigit hh).1⟩
  have hl : (toDigits 10 n).length ≤ 80 :=
    (length_toDigits_le_iff (by omega) (by omega)).mpr h
  have ht : toString n = String.ofList (toDigits 10 n) := toString_eq_ofList_toDigits
  have hb : byteLen (toString n) = (toDigits 10 n).length := by
    rw [ht, byteLen_ofList fun d hd => (hdg d (hdi d hd)).2]
  simp only [isIdentifier, Bool.and_eq_true, decide_eq_true_eq]
  refine ⟨⟨?_, hb ▸ hl⟩, ?_⟩
  · intro he
    have hp := length_toDigits_pos (b := 10) (n := n)
    rw [he] at hb
    have : byteLen "" = 0 := rfl
    omega
  · rw [ht, allChars, String.toList_ofList, all_eq_true]
    intro d hd
    rw [(hdg d (hdi d hd)).1, Bool.or_true, Bool.true_or, Bool.true_or]

/-- The signers of a policy are the first numbers. -/
structure Approved (n : ℕ) (disk : RegistryDisk openRegistryGates.Scenario) : Prop where
  policy : ∃ policy, disk.policy = some policy ∧ policy.approvedSigners.size = n ∧
    ∀ id key, policy.approvedSigners[id]? = some key →
      key = (exampleSigner "").publicKeyHex ∧ ∃ i < n, id = toString i
  sequence : ∃ sequence, disk.sequence = some sequence

variable {disk : RegistryDisk openRegistryGates.Scenario}

theorem Approved.step {n : ℕ}
    (h : Approved n disk) (hn : n < 10 ^ 80) (hr : ∃ policy, disk.readPolicy = .ok policy) :
    ∃ next, registryStep openRegistryGates disk
      (.change (.approveSigner (exampleSigner (toString n)))) = some next ∧ Approved (n + 1) next := by
  obtain ⟨policy, hp, hsi, hs⟩ := h.policy
  obtain ⟨sequence, hse⟩ := h.sequence
  obtain ⟨found, hf⟩ := hr
  obtain rfl : policy = found := Option.some.inj (hp.symm.trans (readPolicy_eq_ok.mp hf).1)
  have hk : byteLen (exampleSigner "").publicKeyHex = 64 ∧
      allChars isAsciiHexdigit (exampleSigner "").publicKeyHex ∧
      toAsciiLowercase (exampleSigner "").publicKeyHex = (exampleSigner "").publicKeyHex := by
    refine ⟨by decide, ?_, ?_⟩
    · rw [exampleSigner, allChars, String.toList_ofList]
      rfl
    · rw [exampleSigner, toAsciiLowercase, String.toList_ofList, map_replicate]
      rfl
  have hc : validateSigner (toString n) (exampleSigner "").publicKeyHex = .ok () :=
    (validateSigner_eq_ok).mpr ⟨isIdentifier_toString hn, hk.1, hk.2.1⟩
  have hne : toString n ∉ policy.approvedSigners := by
    intro hm
    obtain ⟨key, hg⟩ := exists_getElem?_of_mem hm
    obtain ⟨-, i, hi, heq⟩ := hs _ _ hg
    exact absurd (repr_injective heq) (by omega)
  refine ⟨{ disk with
    policy := some (changed policy
      (.approveSigner (exampleSigner (toString n)) : RegistryChange openRegistryGates.Scenario))
    sequence := some (saturatingAdd sequence 1) }, ?_, ⟨_, rfl, ?_, ?_⟩, _, rfl⟩
  · have hc' : (approveSigner (exampleSigner (toString n))).check disk =
        .ok () := hc
    simp only [registryStep, perform, hc', hf, write,
      RegistryDisk.bumpSequence, RegistryDisk.readSequence, hse, okOr, bind, Except.bind,
      pure, Except.pure, Except.toOption, Option.map_some, changed]
  · simp only [changed, exampleSigner]
    rw [Std.ExtTreeMap.size_insert, if_neg (Std.ExtTreeMap.mem_iff_contains.not.mp hne), hsi]
  · intro id key hg
    simp only [changed, exampleSigner, Std.ExtTreeMap.getElem?_insert] at hg
    split at hg
    case isTrue heq =>
      cases hg
      exact ⟨hk.2.2, n, lt_succ_self n, (Std.LawfulEqCmp.eq_of_compare heq).symm⟩
    case isFalse =>
      obtain ⟨hsa, i, hi, heq⟩ := hs id key hg
      exact ⟨hsa, i, lt_succ_of_lt hi, heq⟩

/-- Each signer takes more than sixty-four bytes of the policy's text. -/
theorem Approved.long {n : ℕ}
    (h : Approved n disk) (hr : ∃ policy, disk.readPolicy = .ok policy) :
    n * 64 ≤ maxPolicyBytes := by
  obtain ⟨policy, hpo, hsz, hs⟩ := h.policy
  obtain ⟨found, hf⟩ := hr
  obtain ⟨hsa, hsh, -⟩ := readPolicy_eq_ok.mp hf
  obtain rfl : policy = found := Option.some.inj (hpo.symm.trans hsa)
  have hq : 64 ≤ byteLen (quoted (exampleSigner "").publicKeyHex) := by decide
  have ho : (policy.approvedSigners.toList.map fun signer => (signer.1, quoted signer.2)).length
      * 64 ≤ byteLen (prettyObject 1
        (policy.approvedSigners.toList.map fun signer => (signer.1, quoted signer.2))) := by
    rw [← length_map (f := fun mem : String × String =>
      quoted mem.1 ++ ": " ++ mem.2)]
    refine le_byteLen_bracketed fun part hp => ?_
    obtain ⟨mem, hm, rfl⟩ := mem_map.mp hp
    obtain ⟨signer, hsi, rfl⟩ := mem_map.mp hm
    obtain ⟨hk, -⟩ := hs _ _ (Std.ExtTreeMap.mem_toList_iff_getElem?_eq_some.mp hsi)
    rw [byteLen_append, hk]
    exact hq.trans (Nat.le_add_left _ _)
  have hw : byteLen (quoted "approved_signers" ++ ": " ++ prettyObject 1
      (policy.approvedSigners.toList.map fun signer => (signer.1, quoted signer.2))) ≤
        byteLen policy.pretty :=
    byteLen_le_bracketed (by simp)
  rw [length_map, Std.ExtTreeMap.length_toList, hsz] at ho
  rw [byteLen_append] at hw
  omega

/-- After enough approvals a registry cannot read its own policy any more. -/
theorem policy_outgrows_reader :
    ¬ ∀ (gates : RegistryGates) (registryId : String) (calls : List (FaiRegistryCall gates.Scenario))
      (final : RegistryDisk gates.Scenario) (now : ℕ),
      run (registryStep gates) .opened (.initializePolicy registryId :: calls) = some final →
        final.ReadsBack gates now := by
  intro h
  have ha : ∀ n < 10 ^ 80, ∃ final, run (registryStep openRegistryGates) .opened
      (.initializePolicy "private" :: approvals n) = some final ∧ Approved n final := by
    intro n hn
    induction n with
    | zero =>
      refine ⟨{ RegistryDisk.opened with
        policy := some (newPolicy "private"), sequence := some 0 }, rfl,
        ⟨_, rfl, rfl, fun id key hk => ?_⟩, 0, rfl⟩
      simp [newPolicy] at hk
    | succ n ih =>
      obtain ⟨disk, hr, hd⟩ := ih (by omega)
      have hre := (h openRegistryGates "private" (approvals n) disk 0 hr).policy
      obtain ⟨next, hs, hne⟩ := hd.step (by omega) hre
      refine ⟨next, ?_, hne⟩
      rw [approvals, range_succ, map_append, ← cons_append]
      exact run_append_eq_some.mpr ⟨disk, hr, run_cons_eq_some.mpr ⟨next, hs, rfl⟩⟩
  obtain ⟨final, hr, hf⟩ := ha 8193 (by omega)
  have hl := hf.long (h openRegistryGates "private" _ final 0 hr).policy
  rw [maxPolicyBytes] at hl
  omega

end FocalDesk
