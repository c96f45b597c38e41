import FocalDesk.Registry.ReadBack
import FocalDesk.Registry.Service

/-! Clients of a registry and catalogs older than the one that they have accepted. -/
namespace FocalDesk
open Library List Std.ExtTreeMap

variable {gates : RegistryGates} {disk next : RegistryDisk gates.Scenario}
  {service svc' : RegistryService gates.Scenario} {policy pol' : FaiRegistryPolicy}
  {entry older newer : FaiListedEntry} {file : FaiBundle gates.Scenario}
  {event : RegistryEvent gates.Scenario} {handler : RegistryHandler gates.Scenario}
  {produced : List FaiSignedCatalog} {signed : FaiSignedCatalog} {undo : RegistryUndo} {id : ℕ}

/-- A later entry for the same package file, revoked if the earlier one is. -/
structure FaiListedEntry.Covers (newer older : FaiListedEntry) : Prop where
  coordinates : newer.coordinates = older.coordinates
  digest : newer.digestSha256 = older.digestSha256
  revoked : older.revoked = true → newer.revoked = true

theorem FaiListedEntry.Covers.refl (entry : FaiListedEntry) : entry.Covers entry :=
  ⟨rfl, rfl, id⟩

theorem FaiListedEntry.Covers.trans (h : newer.Covers entry) (h' : entry.Covers older) :
    newer.Covers older :=
  ⟨h.coordinates.trans h'.coordinates, h.digest.trans h'.digest,
    fun hr => h.revoked (h'.revoked hr)⟩

/-- A catalog has every package and every revocation of another one. -/
def FaiRegistryCatalog.Covers (newer older : FaiRegistryCatalog) : Prop :=
  ∀ entry ∈ older.packages, ∃ entry' ∈ newer.packages, entry'.Covers entry

/-- After a client has accepted one catalog, the registry has none that it accepts and that
lacks something of the first. -/
def RollbackProtected (gates : RegistryGates) (produced : List FaiSignedCatalog) : Prop :=
  ∀ accepted ∈ produced, ∀ later ∈ produced, ∀ key previous,
    verifyRegistryCatalog gates accepted key previous = .ok () →
      verifyRegistryCatalog gates later key (some accepted.catalog.sequence) = .ok () →
        later.catalog.Covers accepted.catalog

/-- The change has written its content and has not returned yet. -/
def ChangeStage.undo? : ChangeStage → Option RegistryUndo
  | .written undo | .sequenceRead undo _ | .failed undo => some undo
  | .starting | .checked | .policyRead _ => none

def RegistryHandler.undo? {Scenario : Type} : RegistryHandler Scenario → Option RegistryUndo
  | .change _ stage => stage.undo?
  | .catalog _ => none

/-- What one handler's next step asks for. -/
def RegistryHandler.Careful {Scenario : Type} (service : RegistryService Scenario) (id : ℕ)
    (outcome : WriteOutcome) : RegistryHandler Scenario → Prop
  | .change _ (.policyRead _) => (∀ other ∈ service.handlers.keys, other = id) ∧ outcome ≠ .unsynced
  | .change _ (.sequenceRead _ sequence) => sequence < 18446744073709551615
  | .change _ (.failed _) => outcome ≠ .refused
  | _ => True

/-- A change writes its content when no other call is in flight, and no call starts until it has
returned; the write does not fail halfway, a write that must be taken back can be, and the
sequence is not at its end. -/
def Alone (service : RegistryService gates.Scenario) : RegistryEvent gates.Scenario → Prop
  | .change _ _ | .catalog _ =>
    ∀ call ∈ service.handlers.toList, call.2.undo?.isNone = true
  | .advance id outcome _ => ∀ handler ∈ service.handlers[id]?, handler.Careful service id outcome

instance {Scenario : Type} (service : RegistryService Scenario) (id : ℕ) (outcome : WriteOutcome) :
    (handler : RegistryHandler Scenario) → Decidable (handler.Careful service id outcome)
  | .change _ (.policyRead _) => inferInstanceAs
    (Decidable ((∀ other ∈ service.handlers.keys, other = id) ∧ outcome ≠ .unsynced))
  | .change _ (.sequenceRead _ sequence) =>
    inferInstanceAs (Decidable (sequence < 18446744073709551615))
  | .change _ (.failed _) => inferInstanceAs (Decidable (outcome ≠ .refused))
  | .change _ .starting | .change _ .checked | .change _ (.written _) | .catalog _ => isTrue trivial

instance (service : RegistryService gates.Scenario) :
    (event : RegistryEvent gates.Scenario) → Decidable (Alone service event)
  | .change _ _ | .catalog _ => inferInstanceAs
    (Decidable (∀ call ∈ service.handlers.toList, call.2.undo?.isNone = true))
  | .advance id outcome _ => inferInstanceAs
    (Decidable (∀ handler ∈ service.handlers[id]?, handler.Careful service id outcome))

/-! What the files show. -/

/-- The entries that a catalog of these files lists. -/
def Shows (gates : RegistryGates) (disk : RegistryDisk gates.Scenario) (entry : FaiListedEntry) :
    Prop :=
  ∃ policy, disk.policy = some policy ∧ ∃ c file, disk.packages[(c : Coordinates)]? = some file ∧
    scanFile gates policy file = .ok (some entry)

/-- Everything that was shown is still shown. -/
def Grown (gates : RegistryGates) (disk next : RegistryDisk gates.Scenario) : Prop :=
  ∀ entry, Shows gates disk entry → ∃ entry', Shows gates next entry' ∧ entry'.Covers entry

theorem scanFile_eq_some : scanFile gates policy file = .ok (some entry) ↔
    ¬ maxBundleBytes < gates.prettyLen file ∧ ∃ bun inspection,
      gates.readBundle file = .ok bun ∧
      inspectSound gates.toPackageGates bun "registry contains an invalid package" =
        .ok inspection ∧ policy.entry bun inspection = entry := by
  unfold scanFile
  split
  case isTrue hl => simp [hl]
  case isFalse hs =>
    simp only [bind_eq_ok, pure_eq_ok, Option.some.injEq, hs, not_false_eq_true, true_and]
    constructor
    · rintro ⟨bun, hb, inspection, hi, he⟩
      exact ⟨bun, inspection, hb, hi, he⟩
    · rintro ⟨bun, inspection, hb, hi, he⟩
      exact ⟨bun, hb, inspection, hi, he⟩

/-- A policy with more revocations shows the same files. -/
theorem scanFile_covers (h : ∀ c, (policy.revocation c).isSome → (pol'.revocation c).isSome)
    (he : scanFile gates policy file = .ok (some entry)) :
    ∃ e', scanFile gates pol' file = .ok (some e') ∧ e'.Covers entry := by
  obtain ⟨hs, bun, inspection, hb, hi, rfl⟩ := (scanFile_eq_some).mp he
  refine ⟨pol'.entry bun inspection, (scanFile_eq_some).mpr ⟨hs, bun, inspection, hb, hi, rfl⟩, ?_⟩
  exact ⟨rfl, rfl, h bun.coordinates⟩

theorem revocation_changed {ch : RegistryChange gates.Scenario} {c : Coordinates}
    (h : (policy.revocation c).isSome) :
    ((ch.changed policy).revocation c).isSome := by
  cases ch with
  | approveSigner signer => exact h
  | publish bun => exact h
  | revoke pid ver rsn now =>
    simp only [FaiRegistryPolicy.revocation, RegistryChange.changed, find?_append,
      Option.isSome_or, Bool.or_eq_true] at h ⊢
    exact .inl h

/-- A write shows more, and taking it back leaves what was there. -/
theorem write_grows {ch : RegistryChange gates.Scenario}
    {wr : RegistryWrite gates.Scenario} (hpo : disk.policy = some policy)
    (h : ch.write gates disk policy = .ok wr) :
    wr.disk.restore wr.undo = disk ∧ Grown gates disk wr.disk := by
  rcases write_cases h with ⟨-, hu, hd⟩ | ⟨bun, inspection, err, -, -, -, hn, hu, hd⟩
  · rw [hu, hd]
    refine ⟨?_, ?_⟩
    · rw [RegistryDisk.restore, ← hpo]
    · rintro entry ⟨found, hf, c, file, hfi, hs⟩
      obtain rfl : policy = found := Option.some.inj (hpo.symm.trans hf)
      obtain ⟨e', hs', hc⟩ := scanFile_covers (fun c => revocation_changed) hs
      exact ⟨e', ⟨ch.changed policy, rfl, c, file, hfi, hs'⟩, hc⟩
  · rw [hu, hd]
    refine ⟨?_, ?_⟩
    · have hp : (disk.packages.insert bun.coordinates bun).erase bun.coordinates =
          disk.packages := by
        refine Std.ExtTreeMap.ext_getElem? fun c => ?_
        rw [getElem?_erase, Std.ExtTreeMap.getElem?_insert]
        split
        case isTrue heq =>
          rw [← Std.LawfulEqCmp.eq_of_compare heq]
          exact (Std.ExtTreeMap.getElem?_eq_none hn).symm
        case isFalse => rfl
      rw [RegistryDisk.restore, hp]
    · rintro entry ⟨found, hf, c, file, hfi, hs⟩
      refine ⟨entry, ⟨found, hf, c, file, ?_, hs⟩, .refl entry⟩
      have hne : bun.coordinates ≠ c := by
        rintro rfl
        exact hn (mem_of_getElem? hfi)
      rw [Std.ExtTreeMap.getElem?_insert, if_neg, hfi]
      intro heq
      exact hne (Std.LawfulEqCmp.eq_of_compare heq)

/-! The catalogs that were handed out, beside the files. -/

/-- No catalog is ahead of the files, the files show all that the catalogs list, and a catalog
with the current sequence lists all that the files show. -/
structure Settled (gates : RegistryGates) (disk : RegistryDisk gates.Scenario)
    (produced : List FaiSignedCatalog) : Prop where
  below : ∀ signed ∈ produced, ∃ sequence, disk.sequence = some sequence ∧
    signed.catalog.sequence ≤ sequence
  shown : ∀ signed ∈ produced, ∀ entry ∈ signed.catalog.packages,
    ∃ entry', Shows gates disk entry' ∧ entry'.Covers entry
  current : ∀ signed ∈ produced, disk.sequence = some signed.catalog.sequence →
    ∀ entry, Shows gates disk entry → ∃ entry' ∈ signed.catalog.packages, entry'.Covers entry

theorem Settled.grow (h : Settled gates disk produced) (hg : Grown gates disk next)
    (hb : ∀ signed ∈ produced, ∃ seq, next.sequence = some seq ∧
      signed.catalog.sequence < seq) : Settled gates next produced := by
  constructor
  · intro signed hs
    obtain ⟨seq, hse, hlt⟩ := hb signed hs
    exact ⟨seq, hse, hlt.le⟩
  · intro signed hs entry he
    obtain ⟨e', hsh, hc⟩ := h.shown signed hs entry he
    obtain ⟨entry'', hsh', hc'⟩ := hg e' hsh
    exact ⟨entry'', hsh', hc'.trans hc⟩
  · intro signed hs hcu
    obtain ⟨seq, hse, hlt⟩ := hb signed hs
    rw [hcu] at hse
    cases hse
    exact absurd hlt (lt_irrefl _)

/-- What a call in flight has read is what the files hold. -/
def CatalogStage.Fresh (gates : RegistryGates) (disk : RegistryDisk gates.Scenario) :
    CatalogStage → Prop
  | .starting => True
  | .policyRead policy => disk.policy = some policy
  | .sequenceRead policy sequence => disk.policy = some policy ∧ disk.sequence = some sequence
  | .scanning policy sequence remaining found =>
    disk.policy = some policy ∧ disk.sequence = some sequence ∧
      ∃ scanned, scanned ++ remaining = disk.packages.keys ∧ ∀ entry, entry ∈ found ↔
        ∃ c ∈ scanned, ∃ file, disk.packages[(c : Coordinates)]? = some file ∧
          scanFile gates policy file = .ok (some entry)

def RegistryHandler.Fresh (gates : RegistryGates) (disk : RegistryDisk gates.Scenario) :
    RegistryHandler gates.Scenario → Prop
  | .change _ .starting | .change _ .checked => True
  | .change _ (.policyRead policy) => disk.policy = some policy
  | .change _ _ => False
  | .catalog stage => stage.Fresh gates disk

/-- Of any two catalogs the one with the greater sequence has all that the other one has. -/
def Ordered (produced : List FaiSignedCatalog) : Prop :=
  ∀ older ∈ produced, ∀ newer ∈ produced,
    older.catalog.sequence ≤ newer.catalog.sequence → newer.catalog.Covers older.catalog

/-- No call has written its content. -/
structure Calm (gates : RegistryGates) (service : RegistryService gates.Scenario) : Prop where
  settled : Settled gates service.disk service.produced
  fresh : ∀ (id : ℕ) (handler : RegistryHandler gates.Scenario),
    service.handlers[id]? = some handler → handler.Fresh gates service.disk

/-- The only call in flight has written its content, and can take it back. -/
structure Changing (gates : RegistryGates) (service : RegistryService gates.Scenario) (id : ℕ)
    (change : RegistryChange gates.Scenario) (stage : ChangeStage) (undo : RegistryUndo) :
    Prop where
  only : ∀ (id' : ℕ) (handler : RegistryHandler gates.Scenario),
    service.handlers[id']? = some handler → id' = id ∧ handler = .change change stage
  unreturned : stage.undo? = some undo
  settled : Settled gates (service.disk.restore undo) service.produced
  grown : Grown gates (service.disk.restore undo) service.disk
  sequence : ∀ sequence, stage = .sequenceRead undo sequence → service.disk.sequence = some sequence

inductive Phase (gates : RegistryGates) (service : RegistryService gates.Scenario) : Prop where
  | calm (calm : Calm gates service)
  | changing (id : ℕ) (change : RegistryChange gates.Scenario) (stage : ChangeStage)
      (undo : RegistryUndo) (present : service.handlers[id]? = some (.change change stage))
      (changing : Changing gates service id change stage undo)

structure RegistryService.Sound (gates : RegistryGates) (service : RegistryService gates.Scenario) :
    Prop where
  ordered : Ordered service.produced
  phase : Phase gates service

/-! Handlers in flight. -/

theorem getElem?_proceed {handler? : Option (RegistryHandler gates.Scenario)} {id' : ℕ}
    (h : (service.proceed id handler?)[id']? = some handler) :
    id' = id ∧ handler? = some handler ∨ id' ≠ id ∧ service.handlers[id']? = some handler := by
  cases handler? with
  | none =>
    simp only [RegistryService.proceed, getElem?_erase] at h
    split at h
    case isTrue => cases h
    case isFalse hne => exact .inr ⟨fun heq => hne (by simp [heq]), h⟩
  | some std =>
    simp only [RegistryService.proceed, Std.ExtTreeMap.getElem?_insert] at h
    split at h
    case isTrue heq => exact .inl ⟨(Std.LawfulEqCmp.eq_of_compare heq).symm, h⟩
    case isFalse hne => exact .inr ⟨fun heq => hne (by simp [heq]), h⟩

/-- Calls that start find the files calm. -/
theorem Phase.start (h : Phase gates service)
    (ha : ∀ call ∈ service.handlers.toList, call.2.undo?.isNone) :
    Calm gates service := by
  cases h with
  | calm calm => exact calm
  | changing id ch stg undo present changing =>
    have hn := ha _ (mem_toList_iff_getElem?_eq_some.mpr present)
    rw [RegistryHandler.undo?, changing.unreturned] at hn
    cases hn

theorem Calm.proceed (h : Calm gates service) (handler? : Option (RegistryHandler gates.Scenario))
    (hf : ∀ handler, handler? = some handler → handler.Fresh gates service.disk) :
    Calm gates { service with handlers := service.proceed id handler? } := by
  refine ⟨h.settled, ?_⟩
  intro id' other ho
  rcases getElem?_proceed ho with ⟨-, hs⟩ | ⟨-, ho⟩
  · exact hf other hs
  · exact h.fresh id' other ho

/-! Changes. -/

/-- A call that returns changes nothing here. -/
theorem Calm.returned (h : Calm gates service) :
    Calm gates { service with handlers := service.proceed id none } :=
  h.proceed none fun _ hn => by cases hn

theorem Calm.change {ch : RegistryChange gates.Scenario} {stg : ChangeStage}
    {out : WriteOutcome} (h : Calm gates service)
    (hge : service.handlers[id]? = some (.change ch stg))
    (hc : (RegistryHandler.change ch stg).Careful service id out) :
    Phase gates { service with
      disk := (stg.advance gates service.disk ch out).1
      handlers := service.proceed id
        ((stg.advance gates service.disk ch out).2.map (.change ch)) } := by
  have hf := h.fresh id _ hge
  cases stg with
  | starting =>
    refine .calm (h.proceed _ fun handler hh => ?_)
    cases hch : ch.check service.disk with
    | error => simp [ChangeStage.advance, hch, Except.toOption] at hh
    | ok =>
      simp only [ChangeStage.advance, hch, Except.toOption, Option.map_some,
        Option.some.injEq] at hh
      subst hh
      trivial
  | checked =>
    refine .calm (h.proceed _ fun handler hh => ?_)
    cases hre : service.disk.readPolicy with
    | error => simp [ChangeStage.advance, hre, Except.toOption] at hh
    | ok policy =>
      simp only [ChangeStage.advance, hre, Except.toOption, Option.map_some,
        Option.some.injEq] at hh
      subst hh
      exact (readPolicy_eq_ok.mp hre).1
  | policyRead policy =>
    obtain ⟨ha, hs⟩ := hc
    cases hw : ch.write gates service.disk policy with
    | error =>
      simp only [ChangeStage.advance, hw]
      exact .calm h.returned
    | ok written =>
      obtain ⟨hr, hg⟩ := write_grows hf hw
      cases out with
      | refused =>
        simp only [ChangeStage.advance, hw]
        exact .calm h.returned
      | unsynced => exact absurd rfl hs
      | done =>
        simp only [ChangeStage.advance, hw]
        refine .changing id ch (.written written.undo) written.undo ?_ ⟨?_, rfl, ?_, ?_, ?_⟩
        · simp [RegistryService.proceed]
        · intro id' handler hh
          rcases getElem?_proceed hh with ⟨hid, hsa⟩ | ⟨hid, ho⟩
          · exact ⟨hid, (Option.some.inj hsa).symm⟩
          · exact absurd (ha id' (Std.ExtTreeMap.mem_keys.mpr (mem_of_getElem? ho))) hid
        · exact hr.symm ▸ h.settled
        · exact hr.symm ▸ hg
        · exact fun _ hst => ChangeStage.noConfusion hst
  | written undo => exact hf.elim
  | sequenceRead undo seq => exact hf.elim
  | failed undo => exact hf.elim

theorem Changing.returned {ch : RegistryChange gates.Scenario} {stg : ChangeStage}
    (h : Changing gates service id ch stg undo)
    (hs : Settled gates next service.produced) :
    Calm gates { service with disk := next, handlers := service.proceed id none } := by
  refine ⟨hs, ?_⟩
  intro id' handler hh
  rcases getElem?_proceed hh with ⟨-, hn⟩ | ⟨hid, ho⟩
  · cases hn
  · exact absurd (h.only id' handler ho).1 hid

/-- The change goes on, and can still take its write back. -/
theorem Changing.proceed {ch : RegistryChange gates.Scenario} {stg stage' : ChangeStage}
    (h : Changing gates service id ch stg undo) (hu : stage'.undo? = some undo)
    (hs : Settled gates (next.restore undo) service.produced)
    (hg : Grown gates (next.restore undo) next)
    (hse : ∀ seq, stage' = .sequenceRead undo seq → next.sequence = some seq) :
    Phase gates { service with
      disk := next, handlers := service.proceed id (some (.change ch stage')) } := by
  refine .changing id ch stage' undo ?_ ⟨?_, hu, hs, hg, hse⟩
  · simp [RegistryService.proceed]
  · intro id' handler hh
    rcases getElem?_proceed hh with ⟨hid, hsa⟩ | ⟨hid, ho⟩
    · exact ⟨hid, (Option.some.inj hsa).symm⟩
    · exact absurd (h.only id' handler ho).1 hid

theorem sequence_restore (disk : RegistryDisk gates.Scenario) (undo : RegistryUndo) :
    (disk.restore undo).sequence = disk.sequence := by
  cases undo <;> rfl

/-- The content of a change takes effect with the next sequence. -/
theorem Changing.below {ch : RegistryChange gates.Scenario} {seq : ℕ}
    (h : Changing gates service id ch (.sequenceRead undo seq) undo)
    (hr : seq < 18446744073709551615) :
    ∀ signed ∈ service.produced, signed.catalog.sequence < saturatingAdd seq 1 := by
  intro signed hs
  obtain ⟨found, hf, hle⟩ := h.settled.below signed hs
  rw [sequence_restore, h.sequence seq rfl] at hf
  cases hf
  simp only [saturatingAdd]
  omega

theorem Changing.advance {ch : RegistryChange gates.Scenario} {stg : ChangeStage}
    {out : WriteOutcome} (h : Changing gates service id ch stg undo)
    (hc : (RegistryHandler.change ch stg).Careful service id out) :
    Phase gates { service with
      disk := (stg.advance gates service.disk ch out).1
      handlers := service.proceed id
        ((stg.advance gates service.disk ch out).2.map (.change ch)) } := by
  have hu := h.unreturned
  cases stg with
  | starting => cases hu
  | checked => cases hu
  | policyRead policy => cases hu
  | written undo' =>
    obtain rfl := Option.some.inj hu
    cases hr : service.disk.readSequence with
    | error =>
      simp only [ChangeStage.advance, hr]
      exact h.proceed rfl h.settled h.grown fun _ hs => ChangeStage.noConfusion hs
    | ok seq =>
      simp only [ChangeStage.advance, hr]
      refine h.proceed rfl h.settled h.grown fun sequence' hs => ?_
      cases hs
      exact okOr_eq_ok.mp hr
  | sequenceRead undo' seq =>
    obtain rfl := Option.some.inj hu
    have hb := h.below hc
    cases out with
    | done =>
      simp only [ChangeStage.advance]
      refine .calm (h.returned (h.settled.grow h.grown fun signed hsi => ?_))
      exact ⟨_, rfl, hb signed hsi⟩
    | refused =>
      simp only [ChangeStage.advance]
      exact h.proceed rfl h.settled h.grown fun _ hs => ChangeStage.noConfusion hs
    | unsynced =>
      simp only [ChangeStage.advance]
      refine h.proceed rfl ?_ ?_ fun _ hs => ChangeStage.noConfusion hs
      · refine h.settled.grow ?_ fun signed hsi => ⟨_, sequence_restore _ _, hb signed hsi⟩
        intro entry he
        cases undo' <;> exact ⟨entry, he, .refl entry⟩
      · intro entry he
        refine h.grown entry ?_
        cases undo' <;> exact he
  | failed undo' =>
    obtain rfl := Option.some.inj hu
    cases out with
    | refused => exact absurd rfl hc
    | done => exact .calm (h.returned h.settled)
    | unsynced => exact .calm (h.returned h.settled)

/-! Catalogs. -/

theorem Calm.catalog {stg : CatalogStage} (h : Calm gates service) (now : ℕ)
    (hg : service.handlers[id]? = some (.catalog stg)) :
    Calm gates { service with
      handlers := service.proceed id ((stg.advance gates service.disk now).1.map .catalog) } := by
  have hfr : stg.Fresh gates service.disk := h.fresh id _ hg
  refine h.proceed _ fun handler hh => ?_
  obtain ⟨stage', hs, rfl⟩ := Option.map_eq_some_iff.mp hh
  change stage'.Fresh gates service.disk
  cases stg with
  | starting =>
    obtain ⟨policy, hr, rfl⟩ := Option.map_eq_some_iff.mp hs
    exact (readPolicy_eq_ok.mp (toOption_eq_some.mp hr)).1
  | policyRead policy =>
    obtain ⟨seq, hr, rfl⟩ := Option.map_eq_some_iff.mp hs
    exact ⟨hfr, okOr_eq_ok.mp (toOption_eq_some.mp hr)⟩
  | sequenceRead policy seq =>
    cases hs
    exact ⟨hfr.1, hfr.2, [], rfl, by simp⟩
  | scanning policy seq rest found =>
    cases rest with
    | nil => cases hs
    | cons c rest =>
      obtain ⟨hp, hse, scanned, hk, hfo⟩ := hfr
      cases hf : service.disk.packages[c]? with
      | none => simp [CatalogStage.advance, hf] at hs
      | some file =>
        cases hsc : scanFile gates policy file with
        | error => simp [CatalogStage.advance, hf, hsc] at hs
        | ok entry? =>
          simp only [CatalogStage.advance, hf, hsc, Option.map_some, Option.some.injEq] at hs
          subst hs
          refine ⟨hp, hse, scanned ++ [c], by simpa using hk, ?_⟩
          intro entry
          rw [mem_append, hfo]
          constructor
          · rintro (⟨c', hc', file', hf', he⟩ | he)
            · exact ⟨c', mem_append_left _ hc', file', hf', he⟩
            · rw [Option.mem_toList] at he
              exact ⟨c, by simp, file, hf, he ▸ hsc⟩
          · rintro ⟨c', hc', file', hf', he⟩
            rcases mem_append.mp hc' with hc' | hc'
            · exact .inl ⟨c', hc', file', hf', he⟩
            · obtain rfl := mem_singleton.mp hc'
              obtain rfl := Option.some.inj (hf.symm.trans hf')
              rw [hsc] at he
              exact .inr (Option.mem_toList.mpr (Except.ok.inj he))

/-- A catalog that is handed out lists what the files show, with the current sequence. -/
theorem lists_of_fresh {stg : CatalogStage} {now : ℕ}
    (h : stg.Fresh gates disk) (hs : (stg.advance gates disk now).2 = some signed) :
    disk.sequence = some signed.catalog.sequence ∧
      ∀ entry, entry ∈ signed.catalog.packages ↔ Shows gates disk entry := by
  cases stg with
  | starting => cases hs
  | policyRead policy => cases hs
  | sequenceRead policy seq => cases hs
  | scanning policy seq rest found =>
    obtain ⟨hp, hse, scanned, hk, hfo⟩ := h
    cases rest with
    | cons c rest =>
      simp only [CatalogStage.advance] at hs
      split at hs <;> cases hs
    | nil =>
      cases hs
      rw [append_nil] at hk
      subst hk
      refine ⟨hse, ?_⟩
      intro entry
      simp only [signCatalog, mem_insertionSort, hfo, Shows, hp, Option.some.injEq]
      constructor
      · rintro ⟨c, -, file, hf, hsc⟩
        exact ⟨policy, rfl, c, file, hf, hsc⟩
      · rintro ⟨_, rfl, c, file, hf, hsc⟩
        exact ⟨c, Std.ExtTreeMap.mem_keys.mpr (mem_of_getElem? hf), file, hf, hsc⟩

theorem Settled.produce (h : Settled gates disk produced)
    (hse : disk.sequence = some signed.catalog.sequence)
    (hs : ∀ entry, entry ∈ signed.catalog.packages ↔ Shows gates disk entry) :
    Settled gates disk (produced ++ [signed]) := by
  constructor
  · intro other ho
    rcases mem_append.mp ho with ho | ho
    · exact h.below other ho
    · obtain rfl := mem_singleton.mp ho
      exact ⟨_, hse, le_rfl⟩
  · intro other ho entry he
    rcases mem_append.mp ho with ho | ho
    · exact h.shown other ho entry he
    · obtain rfl := mem_singleton.mp ho
      exact ⟨entry, (hs entry).mp he, .refl entry⟩
  · intro other ho hc entry he
    rcases mem_append.mp ho with ho | ho
    · exact h.current other ho hc entry he
    · obtain rfl := mem_singleton.mp ho
      exact ⟨entry, (hs entry).mpr he, .refl entry⟩

theorem Ordered.produce (ho : Ordered produced) (h : Settled gates disk produced)
    (hse : disk.sequence = some signed.catalog.sequence)
    (hs : ∀ entry, entry ∈ signed.catalog.packages ↔ Shows gates disk entry) :
    Ordered (produced ++ [signed]) := by
  intro older holder newer hne hle
  rcases mem_append.mp holder with hold | hold <;> rcases mem_append.mp hne with hn | hn
  · exact ho older hold newer hn hle
  · obtain rfl := mem_singleton.mp hn
    intro entry he
    obtain ⟨e', hsh, hc⟩ := h.shown older hold entry he
    exact ⟨e', (hs e').mpr hsh, hc⟩
  · -- A catalog of the current sequence lists all that the new one lists.
    obtain rfl := mem_singleton.mp hold
    obtain ⟨seq, hf, hb⟩ := h.below newer hn
    rw [hse] at hf
    cases hf
    intro entry he
    refine h.current newer hn ?_ entry ((hs entry).mp he)
    rw [hse, le_antisymm hle hb]
  · obtain rfl := mem_singleton.mp hold
    obtain rfl := mem_singleton.mp hn
    exact fun entry he => ⟨entry, he, .refl entry⟩

/-! Runs. -/

theorem sound_step (hs : service.step gates event = some svc') (ha : Alone service event)
    (hso : service.Sound gates) : svc'.Sound gates := by
  cases event with
  | change id change =>
    simp only [RegistryService.step] at hs
    split at hs
    · cases hs
    · cases hs
      refine ⟨hso.ordered, .calm ?_⟩
      refine (hso.phase.start ha).proceed (some _) fun handler hh => ?_
      cases hh
      trivial
  | catalog id =>
    simp only [RegistryService.step] at hs
    split at hs
    · cases hs
    · cases hs
      refine ⟨hso.ordered, .calm ?_⟩
      refine (hso.phase.start ha).proceed (some _) fun handler hh => ?_
      cases hh
      trivial
  | advance id out now =>
    simp only [RegistryService.step] at hs
    split at hs
    case h_1 => cases hs
    case h_2 change stg hg =>
      cases hs
      have hc := ha _ hg
      refine ⟨hso.ordered, ?_⟩
      cases hso.phase with
      | calm calm => exact calm.change hg hc
      | changing id' ch' stage' undo present changing =>
        obtain ⟨rfl, hsa⟩ := changing.only id _ hg
        obtain ⟨rfl, rfl⟩ := RegistryHandler.change.inj hsa
        exact changing.advance hc
    case h_3 stg hg =>
      cases hs
      cases hso.phase with
      | changing id' ch' stage' undo present changing =>
        cases (changing.only id _ hg).2
      | calm calm =>
        have hf : stg.Fresh gates service.disk := calm.fresh id _ hg
        have hca := calm.catalog now hg
        cases hsi : (stg.advance gates service.disk now).2 with
        | none =>
          rw [Option.toList_none, append_nil]
          exact ⟨hso.ordered, .calm hca⟩
        | some signed =>
          obtain ⟨hse, hsh⟩ := lists_of_fresh hf hsi
          exact ⟨hso.ordered.produce calm.settled hse hsh,
            .calm ⟨calm.settled.produce hse hsh, hca.fresh⟩⟩

/-- A registry on some files, before any call. -/
def RegistryService.started (disk : RegistryDisk gates.Scenario) :
    RegistryService gates.Scenario :=
  { disk, handlers := ∅, produced := [] }

theorem sound_started : (RegistryService.started disk).Sound gates := by
  refine ⟨?_, .calm ⟨⟨?_, ?_, ?_⟩, ?_⟩⟩
  · intro signed hs
    cases hs
  · intro signed hs
    cases hs
  · intro signed hs
    cases hs
  · intro signed hs
    cases hs
  · intro id handler hh
    simp [RegistryService.started] at hh

theorem sequence_le_of_verify {later : FaiSignedCatalog} {key : String} {seq : ℕ}
    (h : verifyRegistryCatalog gates later key (some seq) = .ok ()) :
    seq ≤ later.catalog.sequence := by
  simp only [verifyRegistryCatalog, unit_bind_eq_ok, bailIf_eq_ok, Option.any_some,
    decide_eq_true_eq, not_lt] at h
  exact h.2.2.1

def initializedDisk (registryId : String) : RegistryDisk gates.Scenario :=
  { RegistryDisk.opened with policy := some (newPolicy registryId), sequence := some 0 }

/-- A handler takes some steps, which all go well. -/
def steps (id count : ℕ) : List (RegistryEvent openRegistryGates.Scenario) :=
  List.replicate count (.advance id .done 0)

/-- A signer is approved, and a client takes a catalog. -/
def approvedEvents : List (RegistryEvent openRegistryGates.Scenario) :=
  [.change 1 (.approveSigner (exampleSigner "alice"))] ++ steps 1 5 ++ [.catalog 2] ++ steps 2 4

/-- A second catalog is taken after a package is written and before the bump. -/
def staleEvents : List (RegistryEvent openRegistryGates.Scenario) :=
  approvedEvents ++ [.change 3 (.publish (exampleBundle "base" "1" "base-routine" []))] ++
    steps 3 3 ++ [.catalog 4] ++ steps 4 5

/-- A catalog is signed by the sample, and has the bundle that was published at the most. -/
def signedOpen (signed : FaiSignedCatalog) : Bool :=
  signed.catalog.version = privateRegistryVersion &&
    signed.signingPublicKeyHex = openRegistryGates.signingPublicKeyHex &&
    signed.signatureHex = String.ofList (List.replicate 128 '0') &&
    signed.catalog.packages.length ≤ 1 &&
    signed.catalog.packages.all fun entry =>
      entry.packageId = "base" && entry.version = "1" &&
        entry.digestSha256 = String.ofList (List.replicate 64 'd') &&
        entry.signerPublicKeyHex = String.ofList (List.replicate 64 '0')

/-- A catalog without packages is signed after one that has some. -/
def producesStale (produced : List FaiSignedCatalog) : Bool :=
  produced.any fun accepted => produced.any fun later =>
    !accepted.catalog.packages.isEmpty && later.catalog.packages.isEmpty &&
      signedOpen accepted && signedOpen later &&
      accepted.catalog.sequence ≤ later.catalog.sequence

theorem decodeFixed_replicate {c : Char} {n : ℕ}
    (hl : byteLen (String.ofList (List.replicate (n * 2) c)) = n * 2)
    (hh : isAsciiHexdigit c) :
    ∃ bytes, decodeFixed n (String.ofList (List.replicate (n * 2) c)) = .ok bytes := by
  refine decodeFixed_isOk.mpr ⟨hl, ?_⟩
  rw [allChars, String.toList_ofList, all_eq_true]
  intro d hd
  rw [eq_of_mem_replicate hd, hh]

theorem verifyEntries_open {ents : List FaiListedEntry} (hl : ents.length ≤ 1)
    (he : ∀ entry ∈ ents, entry.packageId = "base" ∧ entry.version = "1" ∧
      entry.digestSha256 = String.ofList (List.replicate 64 'd') ∧
      entry.signerPublicKeyHex = String.ofList (List.replicate 64 '0')) :
    verifyEntries [] ents = .ok () := by
  rcases ents with _ | ⟨entry, _ | ⟨e', ents⟩⟩
  · rfl
  · obtain ⟨hid, hv, hd, hk⟩ := he entry (mem_singleton_self _)
    obtain ⟨digest, hd'⟩ := decodeFixed_replicate (n := 32) (c := 'd') (by decide) (by decide)
    obtain ⟨key, hk'⟩ := decodeFixed_replicate (n := 32) (c := '0') (by decide) (by decide)
    have hid' : validateRegistryId "base" "package" = .ok () := by decide +kernel
    have hv' : validateVersion "1" = .ok () := by decide +kernel
    simp only [verifyEntries, hid, hv, hd, hk, hd', hk', hid', hv', bind, Except.bind, not_mem_nil]
    rfl
  · simp at hl

theorem verify_signedOpen {signed : FaiSignedCatalog} (prev : Option ℕ) (h : signedOpen signed)
    (hpr : prev.any (fun seq => signed.catalog.sequence < seq) = false) :
    verifyRegistryCatalog openRegistryGates signed openRegistryGates.signingPublicKeyHex prev =
      .ok () := by
  simp only [signedOpen, Bool.and_eq_true, decide_eq_true_eq, all_eq_true] at h
  obtain ⟨⟨⟨⟨hv, hk⟩, hs⟩, hl⟩, he⟩ := h
  obtain ⟨key, hk'⟩ := decodeFixed_replicate (n := 32) (c := 'a') (by decide) (by decide)
  obtain ⟨signature, hs'⟩ :=
    decodeFixed_replicate (n := 64) (c := '0') (by decide +kernel) (by decide)
  have ho : openRegistryGates.signingPublicKeyHex = String.ofList (List.replicate (32 * 2) 'a') :=
    rfl
  have hp := verifyEntries_open hl fun entry hm => by
    obtain ⟨⟨⟨hid, hv⟩, hd⟩, hk⟩ := he entry hm
    exact ⟨hid, hv, hd, hk⟩
  simp only [verifyRegistryCatalog, hv, hk, hs, hpr, ho, hk',
    hs', hp, bind, Except.bind, ne_eq, not_true_eq_false, Bool.false_eq_true]
  rfl

end FocalDesk
