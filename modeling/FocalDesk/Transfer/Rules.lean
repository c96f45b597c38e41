import FocalDesk.Transfer.Run

/-! What the calls of a transfer do to the files as long as nothing slipped. -/
namespace FocalDesk.Transfer
open Library Archive

variable {α β : Type} {w : World} {U : List TransferUndo} {R R' : Disk → Prop} {Q Q' : α → Disk → Prop}
  {S : β → Disk → Prop} {E E' : Disk → Prop} {m : M α} {f : α → M β} {a : α}

/-- Something slipped, or the files are in order and nothing was recorded on the way. -/
def Unless (R : Disk → Prop) (U : List TransferUndo) (w : World) : Prop :=
  w.slipped = true ∨ (R w.disk ∧ w.report.undo = U)

theorem Unless.mono (h : Unless R U w) (hR : ∀ d, R d → R' d) : Unless R' U w := by
  rcases h with hs | ⟨hd, hu⟩
  · exact .inl hs
  · exact .inr ⟨hR _ hd, hu⟩

/-- What has slipped stays so. -/
def Slipped (w : World) : Prop := w.slipped = true

/-- What a program does to the files: the last argument is for its errors. -/
structure Runs (R : Disk → Prop) (m : M α) (Q : α → Disk → Prop) (E : Disk → Prop) : Prop where
  triple : ∀ U, Triple (Unless R U) m (fun a => Unless (Q a) U) (Unless E U)
  steady : Keeps Slipped m

theorem runs_pure (h : ∀ d, R d → Q a d) : Runs R (pure a) Q E :=
  ⟨fun _ => triple_pure fun _ hw => hw.mono h, keeps_pure a⟩

theorem runs_throw {err : IoError} (h : ∀ d, R d → E d) : Runs R (throw err : M α) Q E :=
  ⟨fun _ => triple_throw fun _ hw => hw.mono h, keeps_throw err⟩

theorem runs_bind (hm : Runs R m Q E) (hf : ∀ a, Runs (Q a) (f a) S E) : Runs R (m >>= f) S E :=
  ⟨fun U => triple_bind (hm.triple U) fun a => (hf a).triple U,
    keeps_bind hm.steady fun a => (hf a).steady⟩

/-- A program of which only some values can be returned. -/
theorem runs_bind_value {V : α → Prop} (hm : Runs R m Q E) (hv : ∀ w a t, m w = .ok a t → V a)
    (hf : ∀ a, V a → Runs (Q a) (f a) S E) :
    Runs R (m >>= f) S E := by
  constructor
  · exact fun U => triple_bind (triple_value (hm.triple U) hv) fun a =>
      triple_and_right fun ha => (hf a ha).triple U
  · exact triple_bind (triple_value hm.steady hv) fun a =>
      triple_and_right fun ha => (hf a ha).steady

theorem runs_consequence (hm : Runs R m Q E) (hR : ∀ d, R' d → R d) (hQ : ∀ a d, Q a d → Q' a d)
    (hE : ∀ d, E d → E' d) : Runs R' m Q' E' :=
  ⟨fun U => triple_consequence (hm.triple U) (fun _ hw => hw.mono hR)
    (fun a _ hw => hw.mono (hQ a)) fun _ hw => hw.mono hE, hm.steady⟩

theorem runs_ite {c : Prop} [Decidable c] {m n : M α} (hm : c → Runs R m Q E)
    (hn : ¬ c → Runs R n Q E) : Runs R (if c then m else n) Q E := by
  by_cases hc : c
  · rw [if_pos hc]
    exact hm hc
  · rw [if_neg hc]
    exact hn hc

/-- From the files as they are now. -/
theorem runs_snapshot (h : ∀ now, Runs (fun d => R now ∧ d = now) m Q E) : Runs R m Q E := by
  constructor
  · rintro U w (hs | ⟨hd, hu⟩)
    · exact (h w.disk).triple U w (.inl hs)
    · exact (h w.disk).triple U w (.inr ⟨⟨hd, rfl⟩, hu⟩)
  · intro w hw
    exact (h w.disk).steady w hw

theorem runs_get_bind {f : World → M β} (h : ∀ w, Runs (fun d => R w.disk ∧ d = w.disk) (f w) S E) :
    Runs R (get >>= f) S E := by
  constructor
  · intro U
    apply triple_get_bind
    rintro w u ⟨heq, hw⟩
    subst heq
    refine (h u).triple U u ?_
    rcases hw with hs | ⟨hd, hu⟩
    · exact .inl hs
    · exact .inr ⟨⟨hd, rfl⟩, hu⟩
  · exact keeps_bind keeps_get fun w => (h w).steady

/-- What is known besides the files stays known. -/
theorem runs_frame (φ : Prop) (hm : Runs R m Q E) :
    Runs (fun d => φ ∧ R d) m (fun a d => φ ∧ Q a d) fun d => φ ∧ E d := by
  constructor
  · rintro U w (hs | ⟨⟨hφ, hd⟩, hu⟩)
    · exact triple_consequence hm.steady (fun _ h => h) (fun _ _ h => .inl h)
        (fun _ h => .inl h) w hs
    · exact triple_consequence (hm.triple U) (fun _ h => h) (fun _ _ h => h.mono fun _ hQ => ⟨hφ, hQ⟩)
        (fun _ h => h.mono fun _ hE => ⟨hφ, hE⟩) w (.inr ⟨hd, hu⟩)
  · exact hm.steady

theorem runs_modifyDisk {f : Disk → Disk} {Q : PUnit → Disk → Prop} (h : ∀ d, R d → Q ⟨⟩ (f d)) :
    Runs R (modifyDisk f) Q E := by
  constructor
  · intro U
    apply triple_modify
    rintro w (hs | ⟨hd, hu⟩)
    · exact .inl hs
    · exact .inr ⟨h _ hd, hu⟩
  · exact keeps_modify fun _ hw => hw

/-- An error is no end, but there are two ways to go on. -/
theorem runs_attempt_bind {f : Except IoError α → M β} (hm : Runs R m Q E)
    (hok : ∀ a, Runs (Q a) (f (.ok a)) S E') (he : ∀ err, Runs E (f (.error err)) S E') :
    Runs R (attempt m >>= f) S E' := by
  constructor
  · intro U
    apply triple_bind (triple_attempt (hm.triple U))
    rintro (err | a) w ⟨hv, hf⟩
    · exact (he err).triple U w (hf err rfl)
    · exact (hok a).triple U w (hv a rfl)
  · apply triple_bind (triple_attempt hm.steady)
    rintro (err | a) w ⟨hv, hf⟩
    · exact (he err).steady w (hf err rfl)
    · exact (hok a).steady w (hv a rfl)

/-! The calls that leave the files as they are. -/

def Quiet (m : M α) : Prop := ∀ R, Runs R m (fun _ => R) R

theorem Quiet.runs (hm : Quiet m) (hE : ∀ d, R d → E d) : Runs R m (fun _ => R) E :=
  runs_consequence (hm R) (fun _ h => h) (fun _ _ h => h) hE

theorem quiet_pure (a : α) : Quiet (pure a) := fun _ => runs_pure fun _ h => h

theorem quiet_throw (err : IoError) : Quiet (throw err : M α) := fun _ => runs_throw fun _ h => h

theorem quiet_get : Quiet (get : M World) := fun _ => ⟨fun _ => triple_get fun _ h => h, keeps_get⟩

theorem quiet_bind (hm : Quiet m) (hf : ∀ a, Quiet (f a)) : Quiet (m >>= f) :=
  fun R => runs_bind (hm R) fun a => hf a R

theorem quiet_ite {c : Prop} [Decidable c] {m n : M α} (hm : Quiet m) (hn : Quiet n) :
    Quiet (if c then m else n) :=
  fun R => runs_ite (fun _ => hm R) fun _ => hn R

/-- A change of the counters and of what the report says besides the records. -/
theorem runs_modify {f : World → World} (hd : ∀ w, (f w).disk = w.disk)
    (hu : ∀ w, (f w).report.undo = w.report.undo) (hsl : ∀ w, (f w).slipped = w.slipped) :
    Runs R (modify f) (fun _ => R) E := by
  constructor
  · intro U
    apply triple_modify
    rintro w (hs | ⟨hR, hU⟩)
    · exact .inl ((hsl w).trans hs)
    · refine .inr ⟨?_, (hu w).trans hU⟩
      rwa [hd]
  · exact keeps_modify fun w hw => (hsl w).trans hw

/-- A property that calls and checks do not touch. -/
theorem keeps_systemCall {P : World → Prop}
    (h : ∀ w faults, P w → P { w with faults }) : Keeps P systemCall := by
  rintro ⟨disk, report, entryCount, faults, checksLeft, sizes, stamps, slipped⟩ hw
  rcases faults with _ | ⟨_ | _, faults⟩
  · exact h _ [] hw
  · exact h _ faults hw
  · exact h _ faults hw

theorem triple_isCancelled {P F : World → Prop}
    (h : ∀ w checksLeft, P w → P { w with checksLeft }) :
    Triple P isCancelled (fun _ => P) F := by
  rintro ⟨disk, report, entryCount, faults, checksLeft, sizes, stamps, slipped⟩ hw
  rcases checksLeft with _ | _ | n
  · exact hw
  · exact hw
  · exact h _ (some n) hw

theorem quiet_systemCall : Quiet systemCall :=
  fun _ => ⟨fun _ => keeps_systemCall fun _ _ h => h, keeps_systemCall fun _ _ h => h⟩

theorem isCancelled_spec : Runs R isCancelled (fun _ => R) E :=
  ⟨fun _ => triple_isCancelled fun _ _ h => h, triple_isCancelled fun _ _ h => h⟩

theorem quiet_now : Quiet now := fun _ => ⟨fun _ _ hw => hw, fun _ hw => hw⟩

theorem quiet_checkCancelled : Quiet checkCancelled :=
  quiet_bind (fun _ => isCancelled_spec) fun _ => quiet_ite (quiet_throw _) (quiet_pure _)

theorem quiet_applyMetadata : Quiet applyMetadata :=
  quiet_bind quiet_systemCall fun _ => quiet_systemCall

theorem pushError_spec (err : ReportError) : Runs R (pushError err) (fun _ => R) E :=
  runs_modify (fun _ => rfl) (fun _ => rfl) fun _ => rfl

theorem skipRoot_spec : Runs R skipRoot (fun _ => R) E :=
  runs_modify (fun _ => rfl) (fun _ => rfl) fun _ => rfl

theorem markCancelled_spec : Runs R markCancelled (fun _ => R) E :=
  runs_modify (fun _ => rfl) (fun _ => rfl) fun _ => rfl

variable (path : Path)

theorem symlinkMetadata_spec :
    Runs R (symlinkMetadata path) (fun node d => R d ∧ getKey path d.fs = some node) R := by
  apply runs_bind (quiet_systemCall R)
  intro _
  apply runs_get_bind
  intro w
  unfold lookupNode
  rcases hn : getKey path w.disk.fs with _ | node
  · exact runs_throw fun d hd => hd.2 ▸ hd.1
  · apply runs_pure
    rintro d ⟨hR, rfl⟩
    exact ⟨hR, hn⟩

theorem quiet_symlinkMetadata : Quiet (symlinkMetadata path) :=
  fun _ => runs_consequence (symlinkMetadata_spec path) (fun _ h => h) (fun _ _ h => h.1)
    fun _ h => h

theorem quiet_scanAll {scan : Path → M ℕ} (hs : ∀ path, Quiet (scan path)) (ps : List Path)
    (total : ℕ) : Quiet (scanAll scan ps total) := by
  induction ps generalizing total with
  | nil => exact quiet_pure total
  | cons path ps ih =>
    apply quiet_bind (hs path)
    intro bytes
    exact quiet_ite (quiet_throw _) (ih _)

theorem quiet_scanEntry (depth : ℕ) (path : Path) : Quiet (scanEntry depth path) := by
  induction depth generalizing path with
  | zero => exact quiet_bind quiet_checkCancelled fun _ => quiet_throw _
  | succ depth ih =>
    apply quiet_bind quiet_checkCancelled
    intro _
    refine quiet_bind (fun _ => runs_modify ?_ ?_ ?_) ?_
    · exact fun _ => rfl
    · exact fun _ => rfl
    · exact fun _ => rfl
    intro _
    apply quiet_bind quiet_get
    intro w
    apply quiet_ite (quiet_throw _)
    apply quiet_bind (quiet_symlinkMetadata path)
    intro node
    rcases node with _ | data | leads | _
    · apply quiet_bind quiet_systemCall
      intro _
      exact quiet_bind quiet_get fun _ => quiet_scanAll ih _ _
    · exact quiet_pure _
    · exact quiet_pure _
    · exact quiet_throw _

/-- Once something slipped the rest is of no interest. -/
theorem slip_spec {Q : PUnit → Disk → Prop} : Runs R slip Q E :=
  ⟨fun _ => triple_modify fun _ _ => .inl rfl, triple_modify fun _ _ => rfl⟩

theorem quiet_readSize : Quiet readSize := fun _ => ⟨fun _ _ hw => hw, fun _ hw => hw⟩

/-- A read returns a byte at least. -/
theorem readSize_pos {t : World} {size : ℕ} (h : readSize w = .ok size t) : 0 < size := by
  have hb : 0 < copyBufferBytes := by decide
  cases h
  exact lt_min hb (lt_max_of_lt_left Nat.one_pos)

theorem pathExists_spec : Runs R (pathExists path)
      (fun tk d => R d ∧ (tk ↔ getKey path d.fs ≠ none)) E := by
  apply runs_attempt_bind (quiet_systemCall R)
  · intro _
    apply runs_get_bind
    intro w
    apply runs_pure
    rintro d ⟨hR, rfl⟩
    exact ⟨hR, Option.isSome_iff_ne_none⟩
  · intro err
    apply runs_get_bind
    intro w
    apply runs_ite
    · intro _
      exact runs_bind slip_spec fun _ => runs_pure fun d hd => hd
    · intro hf
      apply runs_pure
      rintro d ⟨hR, rfl⟩
      refine ⟨hR, ?_⟩
      rw [← Option.isSome_iff_ne_none]
      exact iff_of_false Bool.false_ne_true hf

/-! Names that nothing has. -/

theorem firstFree_spec (cands : List Path) :
    Runs R (firstFree cands)
      (fun free d => R d ∧ ∀ path, free = some path → path ∈ cands ∧ getKey path d.fs = none)
      E := by
  induction cands with
  | nil => exact runs_pure fun d hR => ⟨hR, nofun⟩
  | cons cand cands ih =>
    apply runs_bind (pathExists_spec cand)
    intro tk
    apply runs_ite
    · intro _
      apply runs_consequence ih (fun d h => h.1)
      · rintro free d ⟨hR, hf⟩
        exact ⟨hR, fun path hp => (hf path hp).imp_left (List.mem_cons_of_mem _)⟩
      · exact fun d h => h
    · intro ht
      apply runs_pure
      rintro d ⟨hR, he⟩
      refine ⟨hR, ?_⟩
      rintro path ⟨⟩
      exact ⟨List.mem_cons_self, not_not.mp (mt he.mpr ht)⟩

/-- A path in a folder that nothing has. -/
def FreeIn (folder : Path) (fs : FileSystem) (path : Path) : Prop :=
  (∃ name, path = folder ++ [name]) ∧ getKey path fs = none

theorem firstFree_names_spec (dir : Path) (name : ℕ → Name) (indices : List ℕ) :
    Runs R (firstFree (indices.map fun i => dir ++ [name i]))
      (fun free d => R d ∧ ∀ path, free = some path → FreeIn dir d.fs path) E := by
  apply runs_consequence (firstFree_spec _) (fun d h => h)
  · rintro free d ⟨hR, hf⟩
    refine ⟨hR, fun path hp => ?_⟩
    obtain ⟨hm, ha⟩ := hf path hp
    obtain ⟨i, -, rfl⟩ := List.mem_map.mp hm
    exact ⟨⟨name i, rfl⟩, ha⟩
  · exact fun d h => h

theorem uniqueSibling_spec (env : Surroundings) (path : Path) (suf : String) :
    Runs R (uniqueSibling env path suf) (fun free d => R d ∧ FreeIn path.dropLast d.fs free) R := by
  apply runs_ite
  · exact fun _ => runs_throw fun d hR => hR
  · intro _
    apply runs_bind (quiet_now R)
    intro stamp
    apply runs_bind (firstFree_names_spec _ _ _)
    intro free
    rcases free with _ | path
    · exact runs_throw fun d hd => hd.1
    · exact runs_pure fun d hd => ⟨hd.1, hd.2 path rfl⟩

theorem availableDestination_spec :
    Runs R (availableDestination path) (fun free d => R d ∧ FreeIn path.dropLast d.fs free) R := by
  apply runs_ite
  · exact fun _ => runs_throw fun d hR => hR
  · intro _
    apply runs_bind (firstFree_names_spec _ _ _)
    intro free
    rcases free with _ | path
    · exact runs_throw fun d hd => hd.1
    · exact runs_pure fun d hd => ⟨hd.1, hd.2 path rfl⟩

end FocalDesk.Transfer
