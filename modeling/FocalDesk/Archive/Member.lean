import FocalDesk.Archive.Calm

/-! The members of an archive, and how one is extracted. -/
namespace FocalDesk.Archive
open Library List Function

/-- A record with a long name. -/
structure LongRecord where
  fields : TarFields
  name : List UInt8
  zeros : ℕ
  name_zero : 0 ∉ name

structure PaxHeader where
  fields : TarFields
  records : List PaxRecord

/-- A directory or a file, and the records that an encoder writes for it. -/
structure Member where
  path : Path
  content : Option (List UInt8)
  fields : TarFields
  oldStyle : Bool
  long : Option LongRecord
  pax : Option PaxHeader
  longFirst : Bool

def encodeRecord (fields : TarFields) (flag : UInt8) (payload : List UInt8) : List UInt8 :=
  fields.header flag payload.length ++ (payload ++ padding payload.length)

namespace LongRecord

def payload (record : LongRecord) : List UInt8 := record.name ++ List.replicate record.zeros 0

def encode (record : LongRecord) : List UInt8 := encodeRecord record.fields 76 record.payload

end LongRecord

def PaxHeader.encode (header : PaxHeader) : List UInt8 :=
  encodeRecord header.fields 120 (encodePax header.records)

namespace Member

def flag (m : Member) : UInt8 :=
  match m.content with
  | none => 53
  | some _ => if m.oldStyle then 0 else 48

def data (m : Member) : List UInt8 := m.content.getD []

def node (m : Member) : Node := m.content.elim .dir .file

/-- The path in the PAX header. -/
def paxName (m : Member) : Option (List UInt8) := m.pax.bind fun header => paxPath header.records none

def longRecords (m : Member) : List UInt8 := m.long.elim [] LongRecord.encode

def paxRecords (m : Member) : List UInt8 := m.pax.elim [] PaxHeader.encode

def metadata (m : Member) : List UInt8 :=
  if m.longFirst then m.longRecords ++ m.paxRecords else m.paxRecords ++ m.longRecords

def encode (m : Member) : List UInt8 := m.metadata ++ encodeRecord m.fields m.flag m.data

/-- How many records a member has. -/
def records (m : Member) : ℕ := m.long.toList.length + m.pax.toList.length + 1

/-- Every name that is written for a member is its own path. -/
structure Faithful (m : Member) : Prop where
  long : ∀ record ∈ m.long, safeRelativePath record.name = .ok m.path
  pax : ∀ name ∈ m.paxName, safeRelativePath name = .ok m.path
  header : m.long = none → m.paxName = none → safeRelativePath m.fields.rawPath = .ok m.path

end Member

def encodeMembers (members : List Member) : List UInt8 := members.flatMap Member.encode

/-- An archive that an encoder may write for some paths, within the limits of the extraction. -/
structure Encoded (limit : ℕ) (members : List Member) : Prop where
  faithful : ∀ m ∈ members, m.Faithful
  distinct : (members.map Member.path).Nodup
  records : (members.map Member.records).sum ≤ maxEntries
  long : ∀ m ∈ members, ∀ record ∈ m.long, record.payload.length ≤ maxMetadataBytes
  pax : ∀ m ∈ members, ∀ header ∈ m.pax, (encodePax header.records).length ≤ maxMetadataBytes
  entries : ∀ m ∈ members, m.data.length ≤ maxEntryBytes
  bytes : (members.map fun m => m.data.length).sum ≤ limit
  stream : (encodeMembers members).length ≤ saturatingAdd limit (16 * 1024 * 1024)

/-- No member is below a file. -/
def FilesAreLeaves (members : List Member) : Prop :=
  ∀ m ∈ members, m.content ≠ none → ∀ other ∈ members, m.path <+: other.path → other.path = m.path

/-- What the members say is below a destination. -/
def tree (members : List Member) : View := fun r =>
  if r = [] then some .dir
  else match members.find? fun m => m.path = r with
    | some m => some m.node
    | none => if members.any fun m => r <+: m.path then some .dir else none

/-- A long name is left after a member if there was a path as well. -/
def longNameLeft (pending : Bool) (m : Member) : Bool :=
  if m.paxName = none then false else pending || m.long.isSome

/-- No member without a name record of its own comes while a long name is left. -/
def keepsNames : Bool → List Member → Bool
  | _, [] => true
  | pending, m :: members =>
    !(pending && m.long.isNone && (m.paxName = none)) && keepsNames (longNameLeft pending m) members

/-- The extraction returns with the members' paths as the names of its entries and the members'
tree below the destination. -/
def Decodes (destination : Path) (limit : ℕ) (members : List Member) (w : World) : Prop :=
  ∃ after, extractTar destination limit w = .ok () after ∧
    after.ledger.names = members.map Member.path ∧
    (∀ r, getKey (destination ++ r) after.ledger.fs = tree members r) ∧
    ∀ q, ¬ destination <+: q → getKey q after.ledger.fs = getKey q w.ledger.fs

variable {mems done : List Member} {m : Member} {lim : ℕ} {dest : Path} {r : Path}
  {before : FileSystem} {rest : List UInt8} {tar : TarState} {E : World → Prop}

/-! The tree grows with each member. -/

theorem tree_nil : tree [] = fun r => if r = [] then some .dir else none := by
  funext r
  rfl

theorem tree_root (mems : List Member) : tree mems [] = some .dir := rfl

theorem tree_append (done : List Member) (m : Member) (r : Path)
    (hfr : ∀ other ∈ done, other.path ≠ m.path) :
    tree (done ++ [m]) r =
      if r = m.path ∧ r ≠ [] then some m.node
      else if tree done r = none ∧ r <+: m.path then some .dir
      else tree done r := by
  by_cases hr : r = []
  · subst hr
    simp [tree]
  · by_cases hs : r = m.path
    · subst hs
      have hn : done.find? (fun other => other.path = m.path) = none := by
        rw [find?_eq_none]
        intro other hot
        simpa using hfr other hot
      simp [tree, hr, find?_append, hn]
    · have ho : [m].find? (fun other => other.path = r) = none := by
        simp [Ne.symm hs]
      rw [if_neg (fun h => hs h.1)]
      rcases hf : done.find? (fun other => other.path = r) with _ | found
      · by_cases ha : (done.any fun other => decide (r <+: other.path))
        · by_cases hto : r <+: m.path
          · simp [tree, hr, find?_append, hf, ho, any_append, ha, hto]
          · simp [tree, hr, find?_append, hf, ho, any_append, ha, hto]
        · rw [Bool.not_eq_true] at ha
          by_cases hto : r <+: m.path
          · simp [tree, hr, find?_append, hf, ho, any_append, ha, hto]
          · simp [tree, hr, find?_append, hf, ho, any_append, ha, hto]
      · simp [tree, hr, find?_append, hf]

theorem tree_of_find_some (hr : r ≠ []) (h : mems.find? (fun m => m.path = r) = some m) :
    tree mems r = some m.node := by
  simp [tree, hr, h]

theorem tree_of_find_none (hr : r ≠ []) (h : mems.find? (fun m => m.path = r) = none) :
    tree mems r = if ∃ m ∈ mems, r <+: m.path then some .dir else none := by
  simp [tree, hr, h]

/-- What is on the way to a new member is a directory or not there. -/
theorem tree_free (hfi : ∀ other ∈ done, other.content ≠ none → ¬ other.path <+: r) {q : Path}
    (hq : q <+: r) : tree done q = none ∨ tree done q = some .dir := by
  by_cases hr : q = []
  · subst hr
    exact .inr rfl
  · rcases hf : done.find? (fun other => other.path = q) with _ | found
    · rw [tree_of_find_none hr hf]
      by_cases hb : ∃ m ∈ done, q <+: m.path
      · exact .inr (if_pos hb)
      · exact .inl (if_neg hb)
    · right
      have hp : found.path = q := by simpa using find?_some hf
      by_cases hc : found.content = none
      · rw [tree_of_find_some hr hf, Member.node, hc]
        rfl
      · exact absurd (hp ▸ hq) (hfi found (mem_of_find?_eq_some hf) hc)

/-- A directory is added by the directories on the way to it. -/
theorem tree_directory (hf : ∀ other ∈ done, other.path ≠ m.path) (hd : m.content = none)
    (hfr : tree done m.path = none ∨ tree done m.path = some .dir) (hr : m.path ≠ []) :
    withDirs (tree done) [] m.path = tree (done ++ [m]) := by
  funext r
  rw [withDirs_apply, tree_append done m r hf]
  by_cases hs : r = m.path
  · subst hs
    have hn : m.node = .dir := by rw [Member.node, hd]; rfl
    rcases hfr with hno | hso
    · simp [hr, hn, hno]
    · simp [hr, hn, hso]
  · by_cases he : r = []
    · subst he
      simp [tree_root]
    · simp [hs, he]

theorem prefix_dropLast_iff {p : Path} (hp : p ≠ []) (hne : r ≠ p) : r <+: p.dropLast ↔ r <+: p := by
  have hl : p.dropLast ++ [p.getLast hp] = p := dropLast_append_getLast hp
  constructor
  · intro h
    exact h.trans (List.dropLast_prefix p)
  · intro h
    rw [← hl, prefix_concat_iff, hl] at h
    exact h.resolve_left hne

/-- A file is added after the directories on the way to it. -/
theorem tree_file {data : List UInt8} (hf : ∀ other ∈ done, other.path ≠ m.path)
    (hfi : m.content = some data) (hr : m.path ≠ []) :
    update (withDirs (tree done) [] m.path.dropLast) m.path (some (.file data)) =
      tree (done ++ [m]) := by
  funext r
  rw [tree_append done m r hf]
  by_cases hs : r = m.path
  · subst hs
    have hn : m.node = .file data := by rw [Member.node, hfi]; rfl
    rw [update_self, if_pos ⟨rfl, hr⟩, hn]
  · rw [update_of_ne hs, withDirs_apply]
    by_cases he : r = []
    · subst he
      simp [tree_root]
    · simp [hs, he, prefix_dropLast_iff hr hs]

/-! One record. -/

theorem length_padding (size : ℕ) : (padding size).length = (512 - size % 512) % 512 :=
  length_replicate

theorem length_encodeRecord (fields : TarFields) (flag : UInt8) (payload : List UInt8) :
    (encodeRecord fields flag payload).length =
      512 + (payload.length + (padding payload.length).length) := by
  simp only [encodeRecord, length_append, TarFields.length_header]

theorem saturatingAdd_of_le {a b : ℕ} (h : a + b ≤ 18446744073709551615) :
    saturatingAdd a b = a + b := Nat.min_eq_left h

/-- A payload is padded to whole blocks. -/
theorem paddedSize_eq {size : ℕ} (hs : size ≤ 536870912) :
    saturatingAdd 512 (saturatingAdd size 511 / 512 * 512) =
      512 + (size + (padding size).length) := by
  have hr : saturatingAdd size 511 = size + 511 := saturatingAdd_of_le (by omega)
  rw [hr, length_padding, saturatingAdd_of_le (by omega)]
  omega

/-- The stream up to a record is within its limit. -/
theorem countStreamBytes_eq {size : ℕ} (hs : size ≤ maxEntryBytes)
    (hst : tar.streamBytes + (512 + (size + (padding size).length)) ≤
      saturatingAdd lim (16 * 1024 * 1024)) :
    countStreamBytes lim size tar = pure { tar with
      streamBytes := tar.streamBytes + (512 + (size + (padding size).length)) } := by
  have hb : saturatingAdd lim (16 * 1024 * 1024) ≤ u64Max := Nat.min_le_right _ _
  unfold countStreamBytes
  simp only [paddedSize_eq hs]
  rw [if_neg]
  omega

variable {L K : Ledger → Prop} {fs : TarFields} {flag : UInt8} {pl input : List UInt8}
  {tar' : TarState} {left : ℕ} {Q : Unit → World → Prop}

/-- A record is read, and then the others are. -/
theorem calm_tarRecords_record (hs : pl.length ≤ maxEntryBytes)
    (hre : Triple (Calm L (pl ++ (padding pl.length ++ rest)))
      (tarRecord dest lim (fs.header flag pl.length) pl.length tar)
      (fun next w => Calm K rest w ∧ next = tar') E)
    (hr : Triple (Calm K rest) (tarRecords dest lim left tar') Q E) :
    Triple (Calm L (encodeRecord fs flag pl ++ rest))
      (tarRecords dest lim (left + 1) tar) Q E := by
  have ho : pl.length < 8 ^ 11 := Nat.lt_of_le_of_lt hs (by decide)
  have hi : encodeRecord fs flag pl ++ rest =
      fs.header flag pl.length ++ (pl ++ (padding pl.length ++ rest)) := by
    simp only [encodeRecord, append_assoc]
  rw [hi]
  apply triple_bind (calm_nextHeader ho)
  intro next
  apply triple_and_right
  rintro rfl
  apply triple_bind hre
  intro next
  apply triple_and_right
  rintro rfl
  exact hr

/-- The name in a long record, without the zeros. -/
theorem nulTerminated_payload (r : LongRecord) : nulTerminated r.payload = r.name :=
  nulTerminated_append r.name_zero r.zeros

theorem calm_tarRecord_long {r : LongRecord}
    (hsi : r.payload.length ≤ maxMetadataBytes)
    (hs : tar.streamBytes + r.encode.length ≤ saturatingAdd lim (16 * 1024 * 1024)) :
    Triple (Calm L (r.payload ++ (padding r.payload.length ++ rest)))
      (tarRecord dest lim (r.fields.header 76 r.payload.length) r.payload.length tar)
      (fun next w => Calm L rest w ∧ next = { tar with
        pendingLongName := some r.name
        streamBytes := tar.streamBytes + r.encode.length }) E := by
  have he : r.payload.length ≤ maxEntryBytes := Nat.le_trans hsi (by decide)
  rw [LongRecord.encode, length_encodeRecord] at *
  unfold tarRecord
  rw [countStreamBytes_eq he hs, TarFields.typeFlag_header]
  apply triple_bind (triple_pure (Q := fun next w => Calm L
    (r.payload ++ (padding r.payload.length ++ rest)) w ∧ next = { tar with
      streamBytes := tar.streamBytes +
        (512 + (r.payload.length + (padding r.payload.length).length)) })
    fun _ h => ⟨h, rfl⟩)
  intro next
  apply triple_and_right
  rintro rfl
  rw [if_pos (by decide), readMetadata, if_neg (Nat.not_lt.mpr hsi)]
  apply triple_bind calm_readTarPayload
  intro data
  apply triple_and_right
  rintro rfl
  rw [if_pos rfl, nulTerminated_payload]
  exact triple_pure fun _ h => ⟨h, rfl⟩

theorem calm_tarRecord_pax {hdr : PaxHeader}
    (hs : (encodePax hdr.records).length ≤ maxMetadataBytes)
    (hst : tar.streamBytes + hdr.encode.length ≤ saturatingAdd lim (16 * 1024 * 1024)) :
    Triple (Calm L (encodePax hdr.records ++
        (padding (encodePax hdr.records).length ++ rest)))
      (tarRecord dest lim (hdr.fields.header 120 (encodePax hdr.records).length)
        (encodePax hdr.records).length tar)
      (fun next w => Calm L rest w ∧ next = { tar with
        pendingPaxPath := paxPath hdr.records none
        streamBytes := tar.streamBytes + hdr.encode.length }) E := by
  have he : (encodePax hdr.records).length ≤ maxEntryBytes := Nat.le_trans hs (by decide)
  have hp : parsePaxPath (encodePax hdr.records) = .ok (paxPath hdr.records none) :=
    parsePaxPath_encodePax _ (Nat.lt_of_le_of_lt hs (by decide))
  rw [PaxHeader.encode, length_encodeRecord] at *
  generalize encodePax hdr.records = pl at *
  unfold tarRecord
  rw [countStreamBytes_eq he hst, TarFields.typeFlag_header]
  apply triple_bind (triple_pure (Q := fun next w => Calm L
    (pl ++ (padding pl.length ++ rest)) w ∧ next = { tar with
      streamBytes := tar.streamBytes + (512 + (pl.length + (padding pl.length).length)) })
    fun _ h => ⟨h, rfl⟩)
  intro next
  apply triple_and_right
  rintro rfl
  rw [if_pos (by decide), readMetadata, if_neg (Nat.not_lt.mpr hs)]
  apply triple_bind calm_readTarPayload
  intro data
  apply triple_and_right
  rintro rfl
  rw [if_neg (by decide), if_pos rfl, hp]
  exact triple_pure fun _ h => ⟨h, rfl⟩

/-! The records before an entry. -/

def withLong (long : Option LongRecord) (tar : TarState) : TarState :=
  { tar with
    pendingLongName := long.elim tar.pendingLongName fun record => some record.name
    streamBytes := tar.streamBytes + (long.elim [] LongRecord.encode).length }

def withPax (pax : Option PaxHeader) (tar : TarState) : TarState :=
  { tar with
    pendingPaxPath := pax.elim tar.pendingPaxPath fun header => paxPath header.records none
    streamBytes := tar.streamBytes + (pax.elim [] PaxHeader.encode).length }

theorem calm_long {long : Option LongRecord}
    (hsi : ∀ r ∈ long, r.payload.length ≤ maxMetadataBytes)
    (hs : tar.streamBytes + (long.elim [] LongRecord.encode).length ≤
      saturatingAdd lim (16 * 1024 * 1024))
    (hr : Triple (Calm L rest) (tarRecords dest lim left (withLong long tar)) Q E) :
    Triple (Calm L (long.elim [] LongRecord.encode ++ rest))
      (tarRecords dest lim (left + long.toList.length) tar) Q E := by
  cases long with
  | none => exact hr
  | some r =>
    have hre := hsi r rfl
    exact calm_tarRecords_record (Nat.le_trans hre (by decide)) (calm_tarRecord_long hre hs) hr

theorem calm_pax {pax : Option PaxHeader}
    (hsi : ∀ hdr ∈ pax, (encodePax hdr.records).length ≤ maxMetadataBytes)
    (hs : tar.streamBytes + (pax.elim [] PaxHeader.encode).length ≤
      saturatingAdd lim (16 * 1024 * 1024))
    (hr : Triple (Calm L rest) (tarRecords dest lim left (withPax pax tar)) Q E) :
    Triple (Calm L (pax.elim [] PaxHeader.encode ++ rest))
      (tarRecords dest lim (left + pax.toList.length) tar) Q E := by
  cases pax with
  | none => exact hr
  | some hdr =>
    have hh := hsi hdr rfl
    exact calm_tarRecords_record (Nat.le_trans hh (by decide)) (calm_tarRecord_pax hh hs) hr

/-- What the records of a member leave for its entry. -/
def afterMetadata (m : Member) (tar : TarState) : TarState where
  pendingLongName := m.long.elim tar.pendingLongName fun record => some record.name
  pendingPaxPath := m.pax.elim tar.pendingPaxPath fun header => paxPath header.records none
  streamBytes := tar.streamBytes + m.metadata.length

theorem calm_metadata (hl : ∀ r ∈ m.long, r.payload.length ≤ maxMetadataBytes)
    (hp : ∀ hdr ∈ m.pax, (encodePax hdr.records).length ≤ maxMetadataBytes)
    (hs : tar.streamBytes + m.metadata.length ≤ saturatingAdd lim (16 * 1024 * 1024))
    (hr : Triple (Calm L rest) (tarRecords dest lim left (afterMetadata m tar)) Q E) :
    Triple (Calm L (m.metadata ++ rest))
      (tarRecords dest lim (left + (m.long.toList.length + m.pax.toList.length)) tar)
      Q E := by
  unfold Member.metadata at *
  by_cases hf : m.longFirst
  · have ha : afterMetadata m tar = withPax m.pax (withLong m.long tar) := by
      simp only [afterMetadata, withPax, withLong, Member.metadata, if_pos hf,
        length_append, Member.longRecords, Member.paxRecords, Nat.add_assoc]
    simp only [if_pos hf, append_assoc, length_append] at *
    rw [ha] at hr
    have hle : left + (m.long.toList.length + m.pax.toList.length) =
        left + m.pax.toList.length + m.long.toList.length := by omega
    rw [hle]
    unfold Member.longRecords Member.paxRecords at *
    apply calm_long hl (by omega)
    apply calm_pax hp _ hr
    simp only [withLong]
    omega
  · have ha : afterMetadata m tar = withLong m.long (withPax m.pax tar) := by
      simp only [afterMetadata, withPax, withLong, Member.metadata, if_neg hf,
        length_append, Member.longRecords, Member.paxRecords, Nat.add_assoc]
    simp only [if_neg hf, append_assoc, length_append] at *
    rw [ha] at hr
    rw [← Nat.add_assoc]
    unfold Member.longRecords Member.paxRecords at *
    apply calm_pax hp (by omega)
    apply calm_long hl _ hr
    simp only [withPax]
    omega

/-! An entry. -/

/-- A member that can be added to those before it. -/
structure Addable (done : List Member) (m : Member) : Prop where
  fresh : ∀ other ∈ done, other.path ≠ m.path
  files : ∀ other ∈ done, other.content ≠ none → ¬ other.path <+: m.path
  below : m.content ≠ none → ∀ other ∈ done, ¬ m.path <+: other.path

def bytesOf (members : List Member) : ℕ := (members.map fun m => m.data.length).sum

/-- The members that were extracted. -/
abbrev Extracted (before : FileSystem) (destination : Path) (done : List Member) : Ledger → Prop :=
  Shows before destination (tree done) (done.map Member.path) (bytesOf done)

theorem Addable.free (h : Addable done m) {q : Path} (hq : q <+: m.path) :
    tree done q = none ∨ tree done q = some .dir := tree_free h.files hq

theorem Addable.absent (h : Addable done m) (hf : m.content ≠ none) (hr : m.path ≠ []) :
    tree done m.path = none := by
  have hfi : done.find? (fun other => other.path = m.path) = none := by
    rw [find?_eq_none]
    intro other ho
    simpa using h.fresh other ho
  rw [tree_of_find_none hr hfi, if_neg]
  rintro ⟨other, ho, hb⟩
  exact h.below hf other ho hb

/-- The directory or the file of a member, with its name and its bytes counted. -/
theorem calm_extractTarOutput (h : Addable done m) (hr : m.path ≠ []) {ns : List Path}
    (hl : bytesOf done + m.data.length ≤ lim) (hm : lim ≤ u64Max) :
    Triple (Calm (Shows before dest (tree done) ns (bytesOf done))
        (m.data ++ (padding m.data.length ++ rest)))
      (extractTarOutput dest lim m.flag m.path m.data.length)
      (fun _ => Calm (Shows before dest (tree (done ++ [m])) ns
        (bytesOf done + m.data.length)) rest) E := by
  rcases hc : m.content with _ | data
  · have hf : m.flag = 53 := by
      rw [Member.flag, hc]
    have hd : m.data = [] := by
      rw [Member.data, hc]
      rfl
    rw [hf, hd, extractTarOutput, if_neg (by decide), if_pos rfl, length_nil,
      Nat.add_zero, ← tree_directory h.fresh hc (h.free (prefix_refl _)) hr]
    apply triple_bind (calm_ensureDirectory (tree_root done) fun q _ _ hq => h.free hq)
    intro _
    exact calm_skipPadding 0
  · have hf : m.flag = 0 ∨ m.flag = 48 := by
      rw [Member.flag, hc]
      by_cases hold : m.oldStyle
      · exact .inl (if_pos hold)
      · exact .inr (if_neg hold)
    have hd : m.data = data := by
      rw [Member.data, hc]
      rfl
    have hla : m.path.dropLast ++ [m.path.getLast hr] = m.path := dropLast_append_getLast hr
    have hfr : Free (tree done) [] m.path.dropLast := fun q _ _ hq =>
      h.free (hq.trans (List.dropLast_prefix _))
    have ha : withDirs (tree done) [] m.path.dropLast
        (m.path.dropLast ++ [m.path.getLast hr]) = none := by
      rw [hla, withDirs_apply, if_neg, h.absent (by rw [hc]; exact nofun) hr]
      rintro ⟨-, -, -, hto⟩
      have hle := hto.length_le
      have hpa := length_pos_iff.mpr hr
      rw [nil_append, length_dropLast] at hle
      omega
    have hp : withDirs (tree done) [] m.path.dropLast m.path.dropLast = some .dir := by
      rw [withDirs_apply]
      by_cases he : m.path.dropLast = []
      · rw [he, if_neg (fun h => h.2.2.1 rfl)]
        rfl
      · rcases h.free (List.dropLast_prefix m.path) with hn | hs
        · rw [if_pos ⟨hn, List.nil_prefix, he, prefix_refl _⟩]
        · rw [hs, if_neg (fun h => nomatch h.1)]
    rw [hd] at hl
    rw [← tree_file h.fresh hc hr, hd, extractTarOutput, if_pos hf]
    apply triple_bind (calm_addBytes hl hm _)
    intro _
    apply triple_bind (calm_ensureParentDirectories hr (tree_root done) hfr)
    intro _
    have hcr : Triple (Calm (Shows before dest
          (withDirs (tree done) [] m.path.dropLast) ns (bytesOf done + data.length))
          (data ++ (padding data.length ++ rest)))
        (newOutputFile (dest ++ (m.path.dropLast ++ [m.path.getLast hr])))
        (fun _ => Calm (Shows before dest (update
          (withDirs (tree done) [] m.path.dropLast) (m.path.dropLast ++ [m.path.getLast hr])
          (some (.file []))) ns (bytesOf done + data.length))
          (data ++ (padding data.length ++ rest))) E := calm_newOutputFile hp ha
    rw [hla] at hcr
    apply triple_bind hcr
    exact fun _ => calm_copyTarFile _ _

/-- What is left after the entry of a member. -/
def nextTar (m : Member) (tar : TarState) (streamBytes : ℕ) : TarState where
  pendingLongName := if m.paxName = none then none
    else m.long.elim tar.pendingLongName fun record => some record.name
  pendingPaxPath := none
  streamBytes := streamBytes

theorem isSome_nextTar (m : Member) (tar : TarState) (streamBytes : ℕ) :
    (nextTar m tar streamBytes).pendingLongName.isSome =
      longNameLeft tar.pendingLongName.isSome m := by
  unfold nextTar longNameLeft
  by_cases hp : m.paxName = none
  · simp [hp]
  · cases hl : m.long with
    | none => simp [hp]
    | some r => simp [hp]

theorem pendingPaxPath_afterMetadata (hp : tar.pendingPaxPath = none) :
    (afterMetadata m tar).pendingPaxPath = m.paxName := by
  unfold afterMetadata Member.paxName
  cases m.pax with
  | none => exact hp
  | some hdr => rfl

/-- The name of an entry is a name of its member, unless a long name is left and the member has
none of its own. -/
theorem takeName_of_keeps (hf : m.Faithful) (hpe : tar.pendingPaxPath = none)
    (hk : ¬ (tar.pendingLongName.isSome ∧ m.long = none ∧ m.paxName = none)) (size streamBytes : ℕ)
    :
    ∃ raw, takeName (m.fields.header m.flag size) { afterMetadata m tar with streamBytes } =
        (.ok raw, nextTar m tar streamBytes) ∧ safeRelativePath raw = .ok m.path := by
  have hp := pendingPaxPath_afterMetadata (m := m) hpe
  unfold takeName nextTar
  rcases hpa : m.paxName with _ | name
  · rw [hpa] at hp
    rcases hlo : m.long with _ | r
    · have hn : tar.pendingLongName = none := by
        rcases hle : tar.pendingLongName with _ | name
        · rfl
        · exact absurd ⟨by rw [hle]; rfl, hlo, hpa⟩ hk
      have hh := hf.header hlo hpa
      have hr : m.fields.rawPath ≠ [] := by
        intro he
        have hni : safeRelativePath [] =
            .error (unsafeEntry "an archive entry has an empty path") := rfl
        rw [he, hni] at hh
        cases hh
      refine ⟨m.fields.rawPath, ?_, hh⟩
      have hl : (afterMetadata m tar).pendingLongName = none := by
        simp [afterMetadata, hlo, hn]
      simp [hp, hl, TarFields.path_header hr]
    · refine ⟨r.name, ?_, hf.long r hlo⟩
      have hl : (afterMetadata m tar).pendingLongName = some r.name := by
        simp [afterMetadata, hlo]
      simp [hp, hl]
  · rw [hpa] at hp
    refine ⟨name, ?_, hf.pax name hpa⟩
    have hl : (afterMetadata m tar).pendingLongName =
        m.long.elim tar.pendingLongName fun r => some r.name := rfl
    simp [hp, hl]

theorem length_encode (m : Member) : m.encode.length =
    m.metadata.length + (512 + (m.data.length + (padding m.data.length).length)) := by
  rw [Member.encode, length_append, length_encodeRecord]

theorem isMetadata_flag (m : Member) : isMetadata m.flag = false := by
  unfold Member.flag
  cases m.content with
  | none => rfl
  | some data =>
    cases m.oldStyle with
    | true => rfl
    | false => rfl

theorem bytesOf_append (done : List Member) (m : Member) :
    bytesOf (done ++ [m]) = bytesOf done + m.data.length := by
  simp [bytesOf]

theorem calm_tarRecord_entry (h : Addable done m) (hf : m.Faithful) (hp : tar.pendingPaxPath = none)
    (hk : ¬ (tar.pendingLongName.isSome ∧ m.long = none ∧ m.paxName = none))
    (he : m.data.length ≤ maxEntryBytes) (hl : bytesOf done + m.data.length ≤ lim)
    (hm : lim ≤ u64Max)
    (hst : tar.streamBytes + m.encode.length ≤ saturatingAdd lim (16 * 1024 * 1024)) :
    Triple (Calm (Extracted before dest done)
        (m.data ++ (padding m.data.length ++ rest)))
      (tarRecord dest lim (m.fields.header m.flag m.data.length) m.data.length
        (afterMetadata m tar))
      (fun next w => Calm (Extracted before dest (done ++ [m])) rest w ∧
        next = nextTar m tar (tar.streamBytes + m.encode.length)) E := by
  have hs : (afterMetadata m tar).streamBytes +
      (512 + (m.data.length + (padding m.data.length).length)) =
        tar.streamBytes + m.encode.length := by
    rw [length_encode]
    exact Nat.add_assoc _ _ _
  obtain ⟨raw, ht, hr⟩ := takeName_of_keeps hf hp hk m.data.length
    (tar.streamBytes + m.encode.length)
  have hro : m.path ≠ [] := safeRelativePath_ne_nil hr
  unfold tarRecord
  rw [countStreamBytes_eq he (by rwa [hs]), hs, TarFields.typeFlag_header]
  apply triple_bind (triple_pure (Q := fun next w =>
    Calm (Extracted before dest done) (m.data ++ (padding m.data.length ++ rest)) w ∧
      next = { afterMetadata m tar with streamBytes := tar.streamBytes + m.encode.length })
    fun _ h => ⟨h, rfl⟩)
  intro next
  apply triple_and_right
  rintro rfl
  rw [isMetadata_flag, if_neg Bool.false_ne_true, ht]
  apply triple_bind calm_liftExcept
  intro name
  apply triple_and_right
  rintro rfl
  rw [hr]
  apply triple_bind calm_liftExcept
  intro relative
  apply triple_and_right
  rintro rfl
  rw [if_neg (Nat.not_lt.mpr he)]
  apply triple_bind (calm_nameEntry m.path)
  intro _
  apply triple_bind (calm_extractTarOutput h hro hl hm)
  intro _
  apply triple_bind calm_countEntry
  intro _
  apply triple_pure
  intro w hw
  unfold Extracted
  rw [bytesOf_append, map_append]
  exact ⟨hw, rfl⟩

end FocalDesk.Archive
