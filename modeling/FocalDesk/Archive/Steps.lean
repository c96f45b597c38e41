import FocalDesk.Archive.Extract

/-! What each step of an extraction does to the record. -/
namespace FocalDesk.Archive
open Library List

variable {α β : Type} {before : FileSystem} {dest p cur : Path} {w : World} {ledger : Ledger}

/-- What the record counts. -/
structure Counts where
  written : ℕ
  bytes : ℕ
  entries : ℕ

def Ledger.counts (ledger : Ledger) : Counts :=
  ⟨ledger.written, ledger.state.bytes, ledger.state.entries⟩

/-- A directory or a file that was created below a destination, or the destination itself. -/
def Inside (destination : Path) (entry : Path × Node) : Prop :=
  entry = (destination, .dir) ∨
    (destination <+: entry.1 ∧ entry.1 ≠ destination ∧ entry.2.plain = true)

/-- What holds throughout an extraction. -/
structure Extracting (before : FileSystem) (destination : Path) (ledger : Ledger) : Prop where
  formed : WellFormed ledger.fs
  rollback : Rollback before ledger.fs ledger.state.createdPaths
  inside : ∀ p ∈ ledger.state.createdPaths, destination <+: p
  made : ∀ entry ∈ ledger.made, Inside destination entry
  root : ∀ node, destination ∈ ledger.state.createdPaths →
    getKey destination ledger.fs = some node → node = .dir

/-- The programs that leave the record as it is. -/
def Quiet (m : M α) : Prop := ∀ ledger, Keeps (fun w => w.ledger = ledger) m

theorem quiet_pure (a : α) : Quiet (pure a) := fun _ => keeps_pure a

theorem quiet_throw (err : IoError) : Quiet (throw err : M α) := fun _ => keeps_throw err

theorem quiet_get : Quiet (get : M World) := fun _ => keeps_get

theorem quiet_bind {m : M α} {f : α → M β} (hm : Quiet m) (hf : ∀ a, Quiet (f a)) :
    Quiet (m >>= f) :=
  fun ledger => keeps_bind (hm ledger) fun a => hf a ledger

theorem quiet_liftExcept (res : Except IoError α) : Quiet (liftExcept res : M α) := by
  cases res with
  | ok a => exact quiet_pure a
  | error error => exact quiet_throw error

theorem quiet_ite {c : Prop} [Decidable c] {m n : M α} (hm : Quiet m) (hn : Quiet n) :
    Quiet (if c then m else n) := by
  by_cases hc : c
  · rwa [if_pos hc]
  · rwa [if_neg hc]

theorem quiet_checkCancelled : Quiet checkCancelled := by
  intro ledger w hw
  obtain ⟨start, rdr, checksLeft, faults⟩ := w
  rcases checksLeft with _ | _ | n
  · exact hw
  · exact hw
  · exact hw

theorem quiet_systemCall : Quiet systemCall := by
  intro ledger w hw
  obtain ⟨start, rdr, checksLeft, faults⟩ := w
  rcases faults with _ | ⟨_ | _, faults⟩
  · exact hw
  · exact hw
  · exact hw

theorem quiet_attempt {m : M α} (hm : Quiet m) : Quiet (attempt m) := by
  intro ledger w hw
  have hr := hm ledger w hw
  unfold attempt
  cases hre : m w with
  | ok a after => simpa [hre] using hr
  | error error after => simpa [hre] using hr

theorem run_read_end (req : ℕ) (fails : Bool) (sizes : List ℕ) (checksLeft : Option ℕ)
    (faults : List Bool) :
    read req ⟨ledger, ⟨[], fails, sizes⟩, checksLeft, faults⟩ =
      (if fails then throw ⟨.other, .system⟩ else pure [] : M (List UInt8))
        ⟨ledger, ⟨[], fails, sizes⟩, checksLeft, faults⟩ := rfl

/-- A read takes what it returns from the input. -/
theorem run_read (req : ℕ) {input : List UInt8} (hi : input ≠ []) (fails : Bool) (sizes : List ℕ)
    (checksLeft : Option ℕ) (faults : List Bool) :
    read req ⟨ledger, ⟨input, fails, sizes⟩, checksLeft, faults⟩ =
      .ok (input.take (min req (max 1 (sizes.headD req))))
        ⟨ledger, ⟨input.drop (min req (max 1 (sizes.headD req))), fails, sizes.tail⟩,
          checksLeft, faults⟩ := by
  change (if input = [] then _ else _ : M (List UInt8)) _ = _
  rw [if_neg hi]
  rfl

theorem run_readExactOrInvalid (len : ℕ) (msg : String) (input : List UInt8) (fails : Bool)
    (sizes : List ℕ) (checksLeft : Option ℕ) (faults : List Bool) :
    readExactOrInvalid len msg ⟨ledger, ⟨input, fails, sizes⟩, checksLeft, faults⟩ =
      (if len ≤ input.length then pure (input.take len)
        else if fails then throw ⟨.other, .system⟩
        else throw ⟨.invalidData, .text msg⟩ : M (List UInt8))
        ⟨ledger, ⟨input.drop len, fails, sizes⟩, checksLeft, faults⟩ := rfl

theorem quiet_read (req : ℕ) : Quiet (read req) := by
  intro ledger w hw
  obtain ⟨start, ⟨input, fails, sizes⟩, checksLeft, faults⟩ := w
  by_cases hi : input = []
  · subst hi
    rw [run_read_end]
    exact quiet_ite (quiet_throw _) (quiet_pure _) ledger _ hw
  · rw [run_read req hi]
    exact hw

theorem quiet_readExactOrInvalid (len : ℕ) (msg : String) :
    Quiet (readExactOrInvalid len msg) := by
  intro ledger w hw
  obtain ⟨start, ⟨input, fails, sizes⟩, checksLeft, faults⟩ := w
  rw [run_readExactOrInvalid]
  exact quiet_ite (quiet_pure _) (quiet_ite (quiet_throw _) (quiet_throw _)) ledger _ hw

theorem quiet_skipPadding (size : ℕ) : Quiet (skipPadding size) :=
  quiet_bind quiet_checkCancelled fun _ =>
    quiet_bind (quiet_readExactOrInvalid _ _) fun _ => quiet_pure _

theorem quiet_readTarPayload (size : ℕ) : Quiet (readTarPayload size) :=
  quiet_bind (quiet_readExactOrInvalid _ _) fun _ =>
    quiet_bind (quiet_skipPadding size) fun _ => quiet_pure _

theorem quiet_payloadRounds {consume : List UInt8 → M Unit} (hc : ∀ c, Quiet (consume c))
    (fuel rest : ℕ) : Quiet (payloadRounds consume fuel rest) := by
  induction fuel generalizing rest with
  | zero => exact quiet_pure _
  | succ fuel ih =>
    apply quiet_ite (quiet_pure _)
    apply quiet_bind quiet_checkCancelled
    intro _
    apply quiet_bind (quiet_read _)
    intro c
    apply quiet_ite (quiet_throw _)
    exact quiet_bind (hc c) fun _ => ih _

theorem quiet_skipTarPayload (size : ℕ) : Quiet (skipTarPayload size) :=
  quiet_bind (quiet_payloadRounds (fun _ => quiet_pure _) size size) fun _ => quiet_skipPadding size

theorem quiet_trailingRounds (fuel trailing : ℕ) : Quiet (trailingRounds fuel trailing) := by
  induction fuel generalizing trailing with
  | zero => exact quiet_pure _
  | succ fuel ih =>
    apply quiet_bind quiet_checkCancelled
    intro _
    apply quiet_bind (quiet_read _)
    intro c
    exact quiet_ite (quiet_pure _) (quiet_ite (quiet_throw _) (ih _))

theorem quiet_finishTarStream : Quiet finishTarStream := by
  apply quiet_bind (quiet_readExactOrInvalid _ _)
  intro snd
  apply quiet_ite (quiet_throw _)
  exact quiet_bind quiet_get fun _ => quiet_trailingRounds _ _

theorem quiet_nextHeader : Quiet nextHeader := by
  apply quiet_bind quiet_checkCancelled
  intro _
  apply quiet_bind (quiet_readExactOrInvalid _ _)
  intro hdr
  apply quiet_ite (quiet_pure _)
  apply quiet_bind (quiet_liftExcept _)
  intro _
  exact quiet_bind (quiet_liftExcept _) fun _ => quiet_pure _

theorem quiet_countStreamBytes (outputLimit size : ℕ) (tar : TarState) :
    Quiet (countStreamBytes outputLimit size tar) :=
  quiet_ite (quiet_throw _) (quiet_pure _)

theorem quiet_readMetadata (flag : UInt8) (size : ℕ) (tar : TarState) :
    Quiet (readMetadata flag size tar) := by
  apply quiet_ite (quiet_throw _)
  apply quiet_bind (quiet_readTarPayload size)
  intro data
  apply quiet_ite (quiet_pure _)
  apply quiet_ite
  · exact quiet_bind (quiet_liftExcept _) fun _ => quiet_pure _
  · exact quiet_pure _

theorem quiet_byIndex (e : ZipEntry) : Quiet (byIndex e) :=
  quiet_ite (quiet_pure _) (quiet_throw _)

theorem quiet_entryPath (e : ZipEntry) : Quiet (entryPath e) := by
  unfold entryPath
  rcases e.enclosedName with _ | name
  · exact quiet_throw _
  · exact quiet_liftExcept _

theorem quiet_setReader (input : List UInt8) (fails : Bool) : Quiet (setReader input fails) :=
  fun _ => keeps_modify fun _ h => h

/-! What a step does to the record, from a record where everything holds. -/

/-- What holds whenever an extraction stops. -/
def Stopped (before : FileSystem) (destination : Path) (w : World) : Prop :=
  Extracting before destination w.ledger

/-- What holds when the record has counted so much. -/
def At (before : FileSystem) (destination : Path) (counts : Counts) (w : World) : Prop :=
  Extracting before destination w.ledger ∧ w.ledger.counts = counts

/-- A file is open as well. -/
def Writing (before : FileSystem) (destination p : Path) (counts : Counts) (w : World) : Prop :=
  At before destination counts w ∧ p ∈ w.ledger.state.createdPaths

variable {P : Ledger → Prop} {Q : α → World → Prop} {E : World → Prop} {m : M α} {c : Counts}
  {node : Node}

theorem triple_ledger (h : ∀ ledger, P ledger → Triple (fun w => w.ledger = ledger) m Q E) :
    Triple (fun w => P w.ledger) m Q E :=
  fun w hw => h w.ledger hw w rfl

theorem Quiet.triple (hm : Quiet m) : Keeps (fun w => P w.ledger) m := by
  apply triple_ledger
  intro ledger hl
  apply triple_consequence (hm ledger)
  · exact fun _ h => h
  · rintro a w rfl
    exact hl
  · rintro w rfl
    exact hl

theorem Quiet.at (hm : Quiet m) :
    Triple (At before dest c) m (fun _ => At before dest c)
      (Stopped before dest) :=
  triple_consequence (hm.triple (P := fun ledger =>
    Extracting before dest ledger ∧ ledger.counts = c))
    (fun _ h => h) (fun _ _ h => h) fun _ h => h.1

theorem Quiet.writing (hm : Quiet m) :
    Triple (Writing before dest p c) m (fun _ => Writing before dest p c)
      (Stopped before dest) :=
  triple_consequence (hm.triple (P := fun ledger =>
    (Extracting before dest ledger ∧ ledger.counts = c) ∧ p ∈ ledger.state.createdPaths))
    (fun _ h => h) (fun _ _ h => h) fun _ h => h.1.1

variable (path : Path)

theorem create_spec (node : Node) (ledger : Ledger) :
    Triple (fun w => w.ledger = ledger) (create path node)
      (fun _ w => w.ledger = { ledger with
          fs := putKey path node ledger.fs, made := ledger.made ++ [(path, node)] } ∧
        getKey path ledger.fs = none ∧ getKey path.dropLast ledger.fs = some .dir)
      fun w => w.ledger = ledger := by
  apply triple_bind (quiet_systemCall ledger)
  intro _
  apply triple_get_bind
  intro w
  apply triple_ite
  · exact fun _ => triple_throw fun s hs => hs.2
  · intro hn
    apply triple_ite
    · exact fun _ => triple_throw fun s hs => hs.2
    · intro hp
      apply triple_modify
      rintro s ⟨rfl, rfl⟩
      exact ⟨rfl, not_not.mp hn, not_not.mp hp⟩

/-- What is created is pushed. -/
theorem pushCreated_spec (hl : Extracting before dest ledger) (hco : ledger.counts = c)
    (hb : dest <+: p) (hi : Inside dest (p, node)) (hpl : node.plain) :
    Triple (fun w => w.ledger = { ledger with
          fs := putKey p node ledger.fs, made := ledger.made ++ [(p, node)] } ∧
        getKey p ledger.fs = none ∧ getKey p.dropLast ledger.fs = some .dir)
      (pushCreated p) (fun _ => Writing before dest p c) E := by
  apply triple_modify
  rintro w ⟨hw, hn, hpa⟩
  have hp : p ≠ [] := by
    rintro rfl
    rw [dropLast_nil, hn] at hpa
    cases hpa
  have hla : p.dropLast ++ [p.getLast hp] = p := dropLast_append_getLast hp
  refine ⟨⟨⟨?_, ?_, ?_, ?_, ?_⟩, ?_⟩, ?_⟩
  · have hch : getKey (p.dropLast ++ [p.getLast hp]) ledger.fs = none := by rwa [hla]
    have hfo := hl.formed.put_new hpa hch node
    rw [hla] at hfo
    simpa only [hw] using hfo
  · simpa only [hw] using hl.rollback.create hl.formed hn hpl
  · intro q hq
    simp only [hw, mem_append, mem_singleton] at hq
    rcases hq with hq | rfl
    · exact hl.inside q hq
    · exact hb
  · intro e he
    simp only [hw, mem_append, mem_singleton] at he
    rcases he with he | rfl
    · exact hl.made e he
    · exact hi
  · intro found hc hf
    simp only [hw, mem_append, mem_singleton] at hc hf
    by_cases hr : dest = p
    · subst hr
      rw [getKey_putKey_self] at hf
      cases hf
      rcases hi with heq | ⟨-, hne, -⟩
      · cases heq
        rfl
      · exact absurd rfl hne
    · rw [getKey_putKey_of_ne hr] at hf
      exact hl.root found (hc.resolve_right hr) hf
  · simpa only [Ledger.counts, hw] using hco
  · simp only [hw, mem_append, mem_singleton, or_true]

theorem created_spec (hb : dest <+: p) (hi : Inside dest (p, node)) (hp : node.plain)
    :
    Triple (At before dest c) (create p node >>= fun _ => pushCreated p)
      (fun _ => Writing before dest p c) (Stopped before dest) := by
  apply triple_ledger (P := fun ledger => Extracting before dest ledger ∧ ledger.counts = c)
  rintro ledger ⟨hl, hc⟩
  apply triple_bind (triple_consequence (create_spec p node ledger) (fun _ h => h)
    (fun _ _ h => h) (by rintro w rfl; exact hl))
  exact fun _ => pushCreated_spec hl hc hb hi hp

theorem writeAll_spec (data : List UInt8) :
    Triple (Writing before dest p c) (writeAll p data)
      (fun _ => Writing before dest p { c with written := c.written + data.length })
      (Stopped before dest) := by
  apply triple_bind (quiet_systemCall).writing
  intro _
  apply triple_get_bind
  intro w
  rcases hn : getKey p w.ledger.fs with _ | node
  · exact triple_throw fun s hs => hs.2.1.1
  · rcases node with _ | old | leads | _
    · exact triple_throw fun s hs => hs.2.1.1
    · apply triple_modify
      rintro s ⟨rfl, ⟨he, hco⟩, hp⟩
      subst hco
      refine ⟨⟨⟨he.formed.put_file hn, he.rollback.write hp _, he.inside, he.made, ?_⟩, rfl⟩, hp⟩
      intro found hc hf
      have hne : dest ≠ p := by
        rintro rfl
        cases he.root _ hp hn
      exact he.root found hc ((getKey_putKey_of_ne hne).symm.trans hf)
    · exact triple_throw fun s hs => hs.2.1.1
    · exact triple_throw fun s hs => hs.2.1.1

/-! Directories and files. -/

theorem quiet_symlinkMetadata : Quiet (symlinkMetadata path) := by
  apply quiet_attempt
  apply quiet_bind quiet_systemCall
  intro _
  exact quiet_bind quiet_get fun w => quiet_liftExcept _

theorem ensureComponent_spec (hb : dest <+: cur) (hne : cur ≠ dest) :
    Triple (At before dest c) (ensureComponent cur)
      (fun _ => At before dest c) (Stopped before dest) := by
  apply triple_bind (quiet_symlinkMetadata cur).at
  rintro (err | node)
  · apply triple_ite
    · intro _
      exact triple_consequence (created_spec hb (.inr ⟨hb, hne, rfl⟩) rfl)
        (fun _ h => h) (fun _ _ h => h.1) fun _ h => h
    · exact fun _ => triple_throw fun _ h => h.1
  · cases node with
    | dir => exact triple_pure fun _ h => h
    | file data => exact triple_throw fun _ h => h.1
    | link leads => exact triple_throw fun _ h => h.1
    | special => exact triple_throw fun _ h => h.1

theorem ensureComponents_spec (hb : dest <+: cur) (rest : List Name) :
    Triple (At before dest c) (ensureComponents cur rest)
      (fun _ => At before dest c) (Stopped before dest) := by
  induction rest generalizing cur with
  | nil => exact triple_pure fun _ h => h
  | cons part rest ih =>
    have hn : dest <+: cur ++ [part] := hb.trans (prefix_append _ _)
    have hne : cur ++ [part] ≠ dest := by
      intro heq
      have hl := hb.length_le
      have hs := congrArg List.length heq
      simp only [length_append, length_singleton] at hs
      omega
    apply triple_bind (ensureComponent_spec hn hne)
    exact fun _ => ih hn

theorem ensureDirectory_spec : Triple (At before dest c) (ensureDirectory path dest)
      (fun _ => At before dest c) (Stopped before dest) := by
  apply triple_ite
  · intro _
    apply triple_bind (quiet_symlinkMetadata path).at
    rintro (err | node)
    · exact triple_throw fun _ h => h.1
    · cases node with
      | dir => exact triple_pure fun _ h => h
      | file data => exact triple_throw fun _ h => h.1
      | link leads => exact triple_throw fun _ h => h.1
      | special => exact triple_throw fun _ h => h.1
  · intro _
    apply triple_ite
    · exact fun _ => ensureComponents_spec (prefix_refl dest) _
    · exact fun _ => triple_throw fun _ h => h.1

theorem ensureParentDirectories_spec :
    Triple (At before dest c) (ensureParentDirectories path dest)
      (fun _ => At before dest c) (Stopped before dest) := by
  apply triple_ite
  · exact fun _ => triple_throw fun _ h => h.1
  · exact fun _ => ensureDirectory_spec _

theorem newOutputFile_spec {relative : Path} (hr : relative ≠ []) :
    Triple (At before dest c) (newOutputFile (dest ++ relative))
      (fun _ => Writing before dest (dest ++ relative) c)
      (Stopped before dest) := by
  have hb : dest <+: dest ++ relative := prefix_append _ _
  have hne : dest ++ relative ≠ dest := by
    intro heq
    exact hr (by simpa using heq)
  exact created_spec hb (.inr ⟨hb, hne, rfl⟩) rfl

/-! Counters. -/

theorem countEntry_spec :
    Triple (At before dest c) countEntry
      (fun _ => At before dest { c with entries := c.entries + 1 })
      (Stopped before dest) := by
  apply triple_modify
  rintro w ⟨h, rfl⟩
  exact ⟨⟨h.formed, h.rollback, h.inside, h.made, h.root⟩, rfl⟩

theorem nameEntry_spec (relative : Path) :
    Triple (At before dest c) (nameEntry relative) (fun _ => At before dest c)
      (Stopped before dest) := by
  apply triple_modify
  rintro w ⟨h, rfl⟩
  exact ⟨⟨h.formed, h.rollback, h.inside, h.made, h.root⟩, rfl⟩

theorem addBytes_spec (size lim : ℕ) (msg : String) :
    Triple (At before dest c) (addBytes size lim msg)
      (fun _ w => At before dest { c with bytes := c.bytes + size } w ∧
        c.bytes + size ≤ lim) (Stopped before dest) := by
  apply triple_get_bind
  intro w
  apply triple_ite
  · exact fun _ => triple_throw fun _ h => h.2.1
  · intro _
    apply triple_bind (Q := fun _ s => At before dest { c with bytes := c.bytes + size } s ∧
      w.ledger.state.bytes = c.bytes)
    · apply triple_modify
      rintro s ⟨rfl, h, rfl⟩
      exact ⟨⟨⟨h.formed, h.rollback, h.inside, h.made, h.root⟩, rfl⟩, rfl⟩
    · intro _
      apply triple_ite
      · exact fun _ => triple_throw fun _ h => h.1.1
      · intro hl
        apply triple_pure
        rintro s ⟨h, hb⟩
        exact ⟨h, by omega⟩

/-! Copies. -/

theorem read_length_le {req : ℕ} {w after : World} {c : List UInt8}
    (h : read req w = .ok c after) : c.length ≤ req := by
  obtain ⟨start, ⟨input, fails, sizes⟩, checksLeft, faults⟩ := w
  by_cases hi : input = []
  · subst hi
    cases fails with
    | true => cases h
    | false =>
      cases h
      exact Nat.zero_le _
  · rw [run_read req hi] at h
    cases h
    rw [length_take]
    omega

theorem payloadRounds_spec (fuel rest : ℕ) (hf : rest ≤ fuel) :
    Triple (Writing before dest p c) (payloadRounds (writeAll p) fuel rest)
      (fun _ => Writing before dest p { c with written := c.written + rest })
      (Stopped before dest) := by
  induction fuel generalizing rest c with
  | zero =>
    obtain rfl := Nat.le_zero.mp hf
    exact triple_pure fun _ h => h
  | succ fuel ih =>
    apply triple_ite
    · rintro rfl
      exact triple_pure fun _ h => h
    · intro hr
      apply triple_bind (quiet_checkCancelled).writing
      intro _
      apply triple_bind (triple_value (quiet_read _).writing fun _ _ _ => read_length_le)
      intro chunk
      apply triple_ite
      · exact fun _ => triple_throw fun _ h => h.1.1.1
      · intro hc
        have hp : 0 < chunk.length := length_pos_iff.mpr hc
        by_cases hl : chunk.length ≤ rest
        · apply triple_bind (triple_consequence (writeAll_spec chunk) (fun _ h => h.1)
            (fun _ _ h => h) fun _ h => h)
          intro _
          have hre := ih (c := { c with written := c.written + chunk.length })
            (rest - chunk.length) (by omega)
          have hs : c.written + chunk.length + (rest - chunk.length) = c.written + rest := by omega
          simpa only [hs] using hre
        · rintro w ⟨-, hsh⟩
          omega

theorem copyTarFile_spec (size : ℕ) :
    Triple (Writing before dest p c) (copyTarFile p size)
      (fun _ => At before dest { c with written := c.written + size })
      (Stopped before dest) := by
  apply triple_bind (payloadRounds_spec size size (Nat.le_refl size))
  intro _
  exact triple_consequence (quiet_skipPadding size).writing (fun _ h => h) (fun _ _ h => h.1)
    fun _ h => h

theorem copyRounds_spec (exp fuel copied : ℕ) :
    Triple (Writing before dest p { c with written := c.written + copied })
      (copyRounds p exp fuel copied)
      (fun total => Writing before dest p { c with written := c.written + total })
      (Stopped before dest) := by
  induction fuel generalizing copied with
  | zero => exact triple_pure fun _ h => h
  | succ fuel ih =>
    apply triple_bind (quiet_checkCancelled).writing
    intro _
    apply triple_bind (quiet_read _).writing
    intro chunk
    apply triple_ite
    · exact fun _ => triple_pure fun _ h => h
    · intro _
      apply triple_ite
      · exact fun _ => triple_throw fun _ h => h.1.1
      · intro _
        apply triple_bind (writeAll_spec chunk)
        intro _
        simpa only [Nat.add_assoc] using ih (copied + chunk.length)

theorem copyBounded_spec (exp : ℕ) :
    Triple (Writing before dest p c) (copyBounded p exp)
      (fun _ => At before dest { c with written := c.written + exp, bytes := c.bytes + exp })
      (Stopped before dest) := by
  apply triple_get_bind
  intro w
  apply triple_bind (triple_consequence (copyRounds_spec exp _ 0) (fun _ h => h.2)
    (fun _ _ h => h) fun _ h => h)
  intro copied
  apply triple_ite
  · exact fun _ => triple_throw fun _ h => h.1.1
  · intro hc
    obtain rfl := not_not.mp hc
    exact triple_consequence (addBytes_spec copied _ _) (fun _ h => h.1) (fun _ _ h => h.1)
      fun _ h => h

end FocalDesk.Archive
