import FocalDesk.Archive.Encode
import FocalDesk.Archive.Steps
import Mathlib.Data.List.Infix
import Mathlib.Logic.Function.Basic

/-! What the reader and the system do when nothing fails and nobody cancels. -/
namespace FocalDesk.Archive
open Library List Function

variable {α : Type} {L : Ledger → Prop} {input rest data : List UInt8} {m : M α}
  {P E : World → Prop} {Q : α → World → Prop}

/-- Nothing fails, and the reader has this input left. -/
def Calm (L : Ledger → Prop) (input : List UInt8) (w : World) : Prop :=
  L w.ledger ∧ w.reader.input = input ∧ w.reader.fails = false ∧ w.checksLeft = none ∧ w.faults = []

theorem triple_calm (h : ∀ led sizes, L led →
    Triple (fun w => w = ⟨led, ⟨input, false, sizes⟩, none, []⟩) m Q E) :
    Triple (Calm L input) m Q E := by
  rintro ⟨led, ⟨_, _, sizes⟩, _, _⟩ ⟨hl, rfl, rfl, rfl, rfl⟩
  exact h led sizes hl _ rfl

theorem calm_checkCancelled : Triple (Calm L input) checkCancelled (fun _ => Calm L input) E := by
  apply triple_calm
  rintro led sizes hl _ rfl
  exact ⟨hl, rfl, rfl, rfl, rfl⟩

theorem calm_systemCall : Triple (Calm L input) systemCall (fun _ => Calm L input) E := by
  apply triple_calm
  rintro led sizes hl _ rfl
  exact ⟨hl, rfl, rfl, rfl, rfl⟩

theorem calm_modifyLedger {K : Ledger → Prop} {f : Ledger → Ledger}
    (h : ∀ led, L led → K (f led)) :
    Triple (Calm L input) (modifyLedger f) (fun _ => Calm K input) E := by
  apply triple_modify
  rintro w ⟨hl, hi⟩
  exact ⟨h _ hl, hi⟩

theorem calm_liftExcept {a : α} :
    Triple (Calm L input) (liftExcept (.ok a : Except IoError α) : M α)
      (fun b w => Calm L input w ∧ b = a) E :=
  triple_pure fun _ h => ⟨h, rfl⟩

theorem calm_readExactOrInvalid {len : ℕ} (hd : data.length = len) (msg : String) :
    Triple (Calm L (data ++ rest)) (readExactOrInvalid len msg)
      (fun bytes w => Calm L rest w ∧ bytes = data) E := by
  subst hd
  apply triple_calm
  rintro led sizes hl _ rfl
  have hle : data.length ≤ (data ++ rest).length := by
    rw [length_append]
    omega
  rw [run_readExactOrInvalid, if_pos hle, take_left, drop_left]
  exact ⟨⟨hl, rfl, rfl, rfl, rfl⟩, rfl⟩

theorem calm_read {req : ℕ} (hre : 0 < req) (hi : input ≠ []) :
    Triple (Calm L input) (read req) (fun c w => Calm L (input.drop c.length) w ∧
      c = input.take c.length ∧ c ≠ [] ∧ c.length ≤ req) E := by
  apply triple_calm
  rintro led sizes hl _ rfl
  have hp : 0 < input.length := length_pos_iff.mpr hi
  have hr := @run_read led req input hi false sizes none []
  generalize hs : min req (max 1 (sizes.headD req)) = size at hr
  rw [hr]
  have hln : (input.take size).length = min size input.length := length_take
  refine ⟨⟨hl, ?_, rfl, rfl, rfl⟩, ?_, ?_, ?_⟩
  · change input.drop size = input.drop (input.take size).length
    rcases Nat.le_total size input.length with hle | hle
    · rw [hln, Nat.min_eq_left hle]
    · rw [hln, Nat.min_eq_right hle, drop_length, drop_eq_nil_of_le hle]
  · rw [hln]
    rcases Nat.le_total size input.length with hle | hle
    · rw [Nat.min_eq_left hle]
    · rw [Nat.min_eq_right hle, take_length, take_of_length_le hle]
  · apply ne_nil_of_length_pos
    omega
  · omega

/-- All of the data is consumed, in whatever pieces it comes. -/
theorem calm_payloadRounds {W : List UInt8 → Ledger → Prop} {consume : List UInt8 → M Unit}
    (hc : ∀ old c input,
      Triple (Calm (W old) input) (consume c) (fun _ => Calm (W (old ++ c)) input) E)
    (old : List UInt8) (fuel : ℕ) (hf : data.length ≤ fuel) :
    Triple (Calm (W old) (data ++ rest)) (payloadRounds consume fuel data.length)
      (fun _ => Calm (W (old ++ data)) rest) E := by
  induction fuel generalizing old data with
  | zero =>
    obtain rfl : data = [] := length_eq_zero_iff.mp (Nat.le_zero.mp hf)
    rw [append_nil]
    exact triple_pure fun _ h => h
  | succ fuel ih =>
    apply triple_ite
    · intro he
      obtain rfl : data = [] := length_eq_zero_iff.mp he
      rw [append_nil]
      exact triple_pure fun _ h => h
    · intro hne
      apply triple_bind calm_checkCancelled
      intro _
      have hre : 0 < min data.length bufferSize := by
        unfold bufferSize
        omega
      have hi : data ++ rest ≠ [] := by
        intro hn
        exact hne (by rw [(append_eq_nil_iff.mp hn).1, length_nil])
      apply triple_bind (calm_read hre hi)
      intro c
      apply triple_and_right
      rintro ⟨ht, hch, hl⟩
      rw [if_neg hch]
      have hle : c.length ≤ data.length := by omega
      have hp : 0 < c.length := length_pos_iff.mpr hch
      rw [take_append_of_le_length hle] at ht
      have hs : c ++ data.drop c.length = data := by
        conv_lhs => rw [ht]
        rw [length_take, Nat.min_eq_left hle, take_append_drop]
      rw [drop_append_of_le_length hle]
      apply triple_bind (hc old c _)
      intro _
      have hsh : (data.drop c.length).length ≤ fuel := by
        rw [length_drop]
        omega
      have hr := @ih (data.drop c.length) (old ++ c) hsh
      rwa [append_assoc, hs, length_drop] at hr

def padding (size : ℕ) : List UInt8 := List.replicate ((512 - size % 512) % 512) 0

theorem calm_skipPadding (size : ℕ) :
    Triple (Calm L (padding size ++ rest)) (skipPadding size) (fun _ => Calm L rest) E := by
  apply triple_bind calm_checkCancelled
  intro _
  apply triple_bind (calm_readExactOrInvalid length_replicate _)
  intro bytes
  apply triple_and_right
  exact fun _ => triple_pure fun _ h => h

theorem calm_readTarPayload :
    Triple (Calm L (data ++ (padding data.length ++ rest))) (readTarPayload data.length)
      (fun bytes w => Calm L rest w ∧ bytes = data) E := by
  apply triple_bind (calm_readExactOrInvalid rfl _)
  intro bytes
  apply triple_and_right
  rintro rfl
  apply triple_bind (calm_skipPadding _)
  exact fun _ => triple_pure fun _ h => ⟨h, rfl⟩

theorem calm_nextHeader {fs : TarFields} {flag : UInt8} {size : ℕ} (hs : size < 8 ^ 11) :
    Triple (Calm L (fs.header flag size ++ rest)) nextHeader
      (fun next w => Calm L rest w ∧ next = some (fs.header flag size, size)) E := by
  apply triple_bind calm_checkCancelled
  intro _
  apply triple_bind (calm_readExactOrInvalid TarFields.length_header _)
  intro hdr
  apply triple_and_right
  rintro rfl
  rw [TarFields.header_not_blank, if_neg Bool.false_ne_true, TarFields.validate_header,
    TarFields.size_header hs]
  exact triple_pure fun _ h => ⟨h, rfl⟩

/-! Two blocks of zeros are the end. -/

/-- A block that is an end mark. -/
structure EndBlock (block : List UInt8) : Prop where
  length_eq : block.length = 512
  blank_eq : blank block = true

theorem endBlock_replicate : EndBlock (List.replicate 512 0) where
  length_eq := length_replicate
  blank_eq := all_eq_true.mpr fun _ hb => decide_eq_true (eq_of_mem_replicate hb)

variable {block : List UInt8}

theorem calm_nextHeader_end (hb : EndBlock block) :
    Triple (Calm L (block ++ rest)) nextHeader (fun next w => Calm L rest w ∧ next = none) E := by
  apply triple_bind calm_checkCancelled
  intro _
  apply triple_bind (calm_readExactOrInvalid hb.length_eq _)
  intro hdr
  apply triple_and_right
  rintro rfl
  rw [hb.blank_eq, if_pos rfl]
  exact triple_pure fun _ h => ⟨h, rfl⟩

theorem calm_read_end (req : ℕ) :
    Triple (Calm L []) (read req) (fun c w => Calm L [] w ∧ c = []) E := by
  apply triple_calm
  rintro led sizes hl _ rfl
  exact ⟨⟨hl, rfl, rfl, rfl, rfl⟩, rfl⟩

theorem calm_finishTarStream (hb : EndBlock block) :
    Triple (Calm L (block ++ [])) finishTarStream (fun _ => Calm L []) E := by
  apply triple_bind (calm_readExactOrInvalid hb.length_eq _)
  intro snd
  apply triple_and_right
  rintro rfl
  rw [hb.blank_eq, if_neg (Ne.symm Bool.false_ne_true)]
  apply triple_get_bind
  intro w
  apply triple_bind (triple_consequence calm_checkCancelled (fun _ h => h.2) (fun _ _ h => h)
    fun _ h => h)
  intro _
  apply triple_bind (calm_read_end bufferSize)
  intro c
  apply triple_and_right
  rintro rfl
  exact triple_pure fun _ h => h

/-! What there is below a destination. -/

/-- The nodes by their paths from a destination. -/
abbrev View := Path → Option Node

structure Shows (before : FileSystem) (destination : Path) (view : View) (names : List Path)
    (bytes : ℕ) (ledger : Ledger) : Prop where
  formed : WellFormed ledger.fs
  inside : ∀ r, getKey (destination ++ r) ledger.fs = view r
  outside : ∀ q, ¬ destination <+: q → getKey q ledger.fs = getKey q before
  names_eq : ledger.names = names
  bytes_eq : ledger.state.bytes = bytes

variable {pre : FileSystem} {dst : Path} {view : View} {ns : List Path} {bytes : ℕ}
  {node : Node} {r : Path} {part : Name} {old : List UInt8}

theorem calm_get_bind {f : World → M α}
    (h : ∀ w, L w.ledger → Triple (Calm L input) (f w) Q E) :
    Triple (Calm L input) (get >>= f) Q E := by
  apply triple_get_bind
  rintro w t ⟨rfl, hc⟩
  exact h t hc.1 t hc

/-- A new node in a file system. -/
theorem Shows.put {led after : Ledger}
    (h : Shows pre dst view ns bytes led) (hf : WellFormed after.fs)
    (hfs : after.fs = putKey (dst ++ r) node led.fs) (hn : after.names = led.names)
    (hb : after.state.bytes = led.state.bytes) :
    Shows pre dst (update view r (some node)) ns bytes after where
  formed := hf
  inside q := by
    rw [hfs]
    by_cases hq : q = r
    · subst hq
      rw [getKey_putKey_self, update_self]
    · have hne : dst ++ q ≠ dst ++ r := by
        intro heq
        exact hq (append_cancel_left heq)
      rw [getKey_putKey_of_ne hne, update_of_ne hq, h.inside]
  outside q hq := by
    have hne : q ≠ dst ++ r := by
      rintro rfl
      exact hq (prefix_append _ _)
    rw [hfs, getKey_putKey_of_ne hne, h.outside q hq]
  names_eq := hn.trans h.names_eq
  bytes_eq := hb.trans h.bytes_eq

theorem calm_create (hp : view r = some .dir) (hn : view (r ++ [part]) = none) :
    Triple (Calm (Shows pre dst view ns bytes) input)
      (create (dst ++ (r ++ [part])) node)
      (fun _ => Calm (Shows pre dst
        (update view (r ++ [part]) (some node)) ns bytes) input) E := by
  apply triple_bind calm_systemCall
  intro _
  apply calm_get_bind
  intro w hw
  have hd : (dst ++ (r ++ [part])).dropLast = dst ++ r := by
    rw [← append_assoc, dropLast_concat]
  rw [if_neg (by rw [hw.inside, hn]; exact fun h => h rfl),
    if_neg (by rw [hd, hw.inside, hp]; exact fun h => h rfl)]
  apply calm_modifyLedger
  intro led hl
  refine hl.put ?_ rfl rfl rfl
  have hdi : getKey (dst ++ r) led.fs = some .dir := by
    rw [hl.inside, hp]
  have ha : getKey (dst ++ r ++ [part]) led.fs = none := by
    rw [append_assoc, hl.inside, hn]
  have hpu := hl.formed.put_new hdi ha node
  rwa [append_assoc] at hpu

theorem calm_pushCreated (path : Path) :
    Triple (Calm (Shows pre dst view ns bytes) input) (pushCreated path)
      (fun _ => Calm (Shows pre dst view ns bytes) input) E := by
  apply calm_modifyLedger
  rintro led ⟨hf, hi, ho, hn, hb⟩
  exact ⟨hf, hi, ho, hn, hb⟩

theorem calm_writeAll (hf : view r = some (.file old)) (c : List UInt8) :
    Triple (Calm (Shows pre dst view ns bytes) input)
      (writeAll (dst ++ r) c)
      (fun _ => Calm (Shows pre dst
        (update view r (some (.file (old ++ c)))) ns bytes) input) E := by
  apply triple_bind calm_systemCall
  intro _
  apply calm_get_bind
  intro w hw
  have hn : getKey (dst ++ r) w.ledger.fs = some (.file old) := by
    rw [hw.inside, hf]
  simp only [hn]
  apply calm_modifyLedger
  intro led hl
  have hold : getKey (dst ++ r) led.fs = some (.file old) := by
    rw [hl.inside, hf]
  exact hl.put (hl.formed.put_file hold) rfl rfl rfl

/-- Only directories lead to a path in a directory, so it is just not there. -/
theorem missing_kind {fs : FileSystem} {p : Path} {name : Name} (hfs : WellFormed fs)
    (hp : getKey p fs = some .dir) (hne : getKey (p ++ [name]) fs = none) :
    (missing fs (p ++ [name])).kind = .notFound := by
  unfold missing
  rw [if_neg]
  intro han
  obtain ⟨above, ha, hn⟩ := any_eq_true.mp han
  rw [mem_inits, prefix_concat_iff] at ha
  rcases ha with rfl | ha
  · rw [hne] at hn
    cases hn
  · have hd : getKey above fs = some .dir := by
      by_cases heq : above = p
      · rwa [heq]
      · exact hfs.above hp ha heq
    rw [hd] at hn
    cases hn

theorem run_symlinkMetadata (p : Path) (led : Ledger) (rdr : Reader) :
    symlinkMetadata p ⟨led, rdr, none, []⟩ = .ok (lookupNode led.fs p) ⟨led, rdr, none, []⟩ := by
  change attempt (liftExcept (lookupNode led.fs p) : M Node) ⟨led, rdr, none, []⟩ = _
  rcases lookupNode led.fs p with err | node
  · rfl
  · rfl

theorem calm_symlinkMetadata_dir (hd : view r = some .dir) :
    Triple (Calm (Shows pre dst view ns bytes) input)
      (symlinkMetadata (dst ++ r))
      (fun res w => Calm (Shows pre dst view ns bytes) input w ∧ res = .ok .dir) E := by
  apply triple_calm
  rintro led sizes hl _ rfl
  rw [run_symlinkMetadata, lookupNode, hl.inside, hd]
  exact ⟨⟨hl, rfl, rfl, rfl, rfl⟩, rfl⟩

theorem calm_symlinkMetadata_missing (hp : view r = some .dir) (hn : view (r ++ [part]) = none) :
    Triple (Calm (Shows pre dst view ns bytes) input)
      (symlinkMetadata (dst ++ (r ++ [part])))
      (fun res w => Calm (Shows pre dst view ns bytes) input w ∧
        ∃ err, res = .error err ∧ err.kind = .notFound) E := by
  apply triple_calm
  rintro led sizes hl _ rfl
  have hd : getKey (dst ++ r) led.fs = some .dir := by
    rw [hl.inside, hp]
  have ha : getKey (dst ++ r ++ [part]) led.fs = none := by
    rw [append_assoc, hl.inside, hn]
  have hk := missing_kind hl.formed hd ha
  rw [append_assoc] at hk
  rw [run_symlinkMetadata, lookupNode, hl.inside, hn]
  exact ⟨⟨hl, rfl, rfl, rfl, rfl⟩, _, rfl, hk⟩

/-! Directories on the way. -/

/-- One directory, if it is not there. -/
def withDir (view : View) (r : Path) : View :=
  if view r = none then Function.update view r (some .dir) else view

/-- The directories from one path to another. -/
def withDirs : View → Path → List Name → View
  | view, _, [] => view
  | view, front, part :: rest => withDirs (withDir view (front ++ [part])) (front ++ [part]) rest

theorem withDir_apply (view : View) (r q : Path) :
    withDir view r q = if view q = none ∧ q = r then some .dir else view q := by
  unfold withDir
  by_cases hq : q = r
  · subst hq
    by_cases hn : view q = none
    · simp [hn]
    · simp [hn]
  · by_cases hn : view r = none
    · simp [hn, hq]
    · simp [hn, hq]

/-- Nothing but directories is in the way of a directory. -/
def Free (view : View) (front : Path) (rest : List Name) : Prop :=
  ∀ q, front <+: q → q ≠ front → q <+: front ++ rest → view q = none ∨ view q = some .dir

theorem calm_ensureComponent (hp : view r = some .dir)
    (hf : view (r ++ [part]) = none ∨ view (r ++ [part]) = some .dir) :
    Triple (Calm (Shows pre dst view ns bytes) input)
      (ensureComponent (dst ++ (r ++ [part])))
      (fun _ => Calm (Shows pre dst (withDir view (r ++ [part])) ns bytes) input)
      E := by
  rcases hf with hn | hd
  · have hv : withDir view (r ++ [part]) = update view (r ++ [part]) (some .dir) :=
      if_pos hn
    rw [hv]
    apply triple_bind (calm_symlinkMetadata_missing hp hn)
    intro res
    apply triple_and_right
    rintro ⟨err, rfl, hk⟩
    simp only [hk, if_true]
    apply triple_bind (calm_create hp hn)
    exact fun _ => calm_pushCreated _
  · have hv : withDir view (r ++ [part]) = view := if_neg (by rw [hd]; exact nofun)
    rw [hv]
    apply triple_bind (calm_symlinkMetadata_dir hd)
    intro res
    apply triple_and_right
    rintro rfl
    exact triple_pure fun _ h => h

theorem Free.next {ns : List Name} (h : Free view r (part :: ns)) :
    Free (withDir view (r ++ [part])) (r ++ [part]) ns := by
  intro q hu hne hq
  rw [withDir_apply, if_neg (fun h => hne h.2)]
  apply h q ((prefix_append _ _).trans hu)
  · rintro rfl
    have hl := hu.length_le
    rw [length_append, length_singleton] at hl
    omega
  · rwa [append_assoc] at hq

theorem withDirs_apply (view : View) (front : Path) (ns : List Name) (q : Path) :
    withDirs view front ns q =
      if view q = none ∧ front <+: q ∧ q ≠ front ∧ q <+: front ++ ns then some .dir
      else view q := by
  induction ns generalizing view front with
  | nil =>
    rw [if_neg]
    · rfl
    · rintro ⟨-, hu, hne, hq⟩
      rw [append_nil] at hq
      exact hne (hq.eq_of_length_le hu.length_le)
  | cons part ns ih =>
    rw [withDirs, ih, withDir_apply]
    by_cases hq : q = front ++ [part]
    · subst hq
      have hu : front <+: front ++ [part] := prefix_append _ _
      have hne : front ++ [part] ≠ front := by simp
      have hto : front ++ [part] <+: front ++ part :: ns := ⟨ns, by simp⟩
      by_cases hn : view (front ++ [part]) = none
      · simp [hn, hto]
      · simp [hn]
    · have hs : (front ++ [part] <+: q ∧ q ≠ front ++ [part] ∧ q <+: front ++ [part] ++ ns) ↔
          (front <+: q ∧ q ≠ front ∧ q <+: front ++ part :: ns) := by
        constructor
        · rintro ⟨hu, -, hto⟩
          refine ⟨(prefix_append _ _).trans hu, ?_, by rwa [append_assoc] at hto⟩
          rintro rfl
          have hl := hu.length_le
          rw [length_append, length_singleton] at hl
          omega
        · rintro ⟨⟨rest, rfl⟩, hne, hto⟩
          rw [prefix_append_right_inj] at hto
          rcases rest with _ | ⟨fst, rest⟩
          · exact absurd (append_nil front) hne
          · obtain ⟨rfl, ht⟩ := cons_prefix_cons.mp hto
            refine ⟨⟨rest, by simp⟩, hq, ?_⟩
            rw [append_assoc, prefix_append_right_inj]
            exact hto
      simp only [hq, and_false, if_false, hs]

theorem calm_ensureComponents (hd : view r = some .dir) {parts : List Name} (hf : Free view r parts)
    :
    Triple (Calm (Shows pre dst view ns bytes) input)
      (ensureComponents (dst ++ r) parts)
      (fun _ => Calm (Shows pre dst (withDirs view r parts) ns bytes) input) E := by
  induction parts generalizing view r with
  | nil => exact triple_pure fun _ h => h
  | cons part parts ih =>
    rw [ensureComponents, append_assoc]
    have hp := hf (r ++ [part]) (prefix_append _ _) (by simp) ⟨parts, by simp⟩
    apply triple_bind (calm_ensureComponent hd hp)
    intro _
    refine ih ?_ hf.next
    rw [withDir_apply]
    rcases hp with hn | hs
    · rw [if_pos ⟨hn, rfl⟩]
    · rw [hs, if_neg (fun h => nomatch h.1)]

theorem calm_ensureDirectory (hr : view [] = some .dir) (hf : Free view [] r) :
    Triple (Calm (Shows pre dst view ns bytes) input)
      (ensureDirectory (dst ++ r) dst)
      (fun _ => Calm (Shows pre dst (withDirs view [] r) ns bytes) input) E := by
  apply triple_ite
  · intro hs
    obtain rfl : r = [] := by simpa using hs
    apply triple_bind (calm_symlinkMetadata_dir hr)
    intro res
    apply triple_and_right
    rintro rfl
    exact triple_pure fun _ h => h
  · intro _
    rw [if_pos (prefix_append dst r), drop_left]
    have hc : Triple (Calm (Shows pre dst view ns bytes) input)
        (ensureComponents (dst ++ []) r)
        (fun _ => Calm (Shows pre dst (withDirs view [] r) ns bytes) input) E :=
      calm_ensureComponents hr hf
    rwa [append_nil] at hc

theorem calm_ensureParentDirectories (hr : r ≠ []) (hro : view [] = some .dir)
    (hf : Free view [] r.dropLast) :
    Triple (Calm (Shows pre dst view ns bytes) input)
      (ensureParentDirectories (dst ++ r) dst)
      (fun _ => Calm (Shows pre dst (withDirs view [] r.dropLast) ns bytes) input)
      E := by
  have hne : dst ++ r ≠ [] := by simp [hr]
  rw [ensureParentDirectories, if_neg hne, dropLast_append_of_ne_nil hr]
  exact calm_ensureDirectory hro hf

theorem calm_newOutputFile (hp : view r = some .dir) (hn : view (r ++ [part]) = none) :
    Triple (Calm (Shows pre dst view ns bytes) input)
      (newOutputFile (dst ++ (r ++ [part])))
      (fun _ => Calm (Shows pre dst
        (update view (r ++ [part]) (some (.file []))) ns bytes) input) E := by
  apply triple_bind (calm_create hp hn)
  exact fun _ => calm_pushCreated _

theorem calm_copyTarFile (view : View) (r : Path) :
    Triple (Calm (Shows pre dst (update view r (some (.file []))) ns bytes)
        (data ++ (padding data.length ++ rest)))
      (copyTarFile (dst ++ r) data.length)
      (fun _ => Calm (Shows pre dst (update view r (some (.file data))) ns
        bytes) rest) E := by
  have hr : ∀ old c input, Triple
      (Calm (Shows pre dst (update view r (some (.file old))) ns bytes) input)
      (writeAll (dst ++ r) c)
      (fun _ => Calm (Shows pre dst
        (update view r (some (.file (old ++ c)))) ns bytes) input) E := by
    intro old c input
    have hf : update view r (some (.file old)) r = some (.file old) :=
      update_self _ _ _
    have hs : update (update view r (some (.file old))) r
        (some (.file (old ++ c))) = update view r (some (.file (old ++ c))) :=
      update_idem _ _ _
    rw [← hs]
    exact calm_writeAll hf c
  apply triple_bind (calm_payloadRounds (W := fun old => Shows pre dst
    (update view r (some (.file old))) ns bytes) hr [] data.length (Nat.le_refl _))
  exact fun _ => calm_skipPadding _

/-! Counters. -/

theorem calm_addBytes {size lim : ℕ} (hl : bytes + size ≤ lim) (hm : lim ≤ u64Max) (msg : String) :
    Triple (Calm (Shows pre dst view ns bytes) input) (addBytes size lim msg)
      (fun _ => Calm (Shows pre dst view ns (bytes + size)) input) E := by
  apply calm_get_bind
  intro w hw
  rw [hw.bytes_eq, if_neg (by omega), if_neg (by omega)]
  apply triple_bind (Q := fun _ => Calm (Shows pre dst view ns (bytes + size)) input)
  · apply calm_modifyLedger
    rintro led ⟨hf, hi, ho, hn, rfl⟩
    exact ⟨hf, hi, ho, hn, rfl⟩
  · exact fun _ => triple_pure fun _ h => h

theorem calm_countEntry :
    Triple (Calm (Shows pre dst view ns bytes) input) countEntry
      (fun _ => Calm (Shows pre dst view ns bytes) input) E := by
  apply calm_modifyLedger
  rintro led ⟨hf, hi, ho, hn, hb⟩
  exact ⟨hf, hi, ho, hn, hb⟩

theorem calm_nameEntry (relative : Path) :
    Triple (Calm (Shows pre dst view ns bytes) input) (nameEntry relative)
      (fun _ => Calm (Shows pre dst view (ns ++ [relative]) bytes) input) E := by
  apply calm_modifyLedger
  rintro led ⟨hf, hi, ho, rfl, hb⟩
  exact ⟨hf, hi, ho, rfl, hb⟩

end FocalDesk.Archive
