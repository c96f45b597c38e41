import FocalDesk.Library.Utf8
import FocalDesk.Integer
import FocalDesk.Registry.Store

/-! Concurrent calls of a registry: every read and every write of a file is a step. -/
namespace FocalDesk
open Library List

/-- How a write of a file ends. One that fails when the directory is synced has replaced the
file already. -/
inductive WriteOutcome where
  | done
  | refused
  | unsynced
deriving DecidableEq

/-- What a change has done so far. -/
inductive ChangeStage where
  | starting
  | checked
  | policyRead (policy : FaiRegistryPolicy)
  | written (undo : RegistryUndo)
  | sequenceRead (undo : RegistryUndo) (sequence : ℕ)
  | failed (undo : RegistryUndo)

/-- What a `catalog` call has read so far. -/
inductive CatalogStage where
  | starting
  | policyRead (policy : FaiRegistryPolicy)
  | sequenceRead (policy : FaiRegistryPolicy) (sequence : ℕ)
  | scanning (policy : FaiRegistryPolicy) (sequence : ℕ) (remaining : List Coordinates)
      (found : List FaiListedEntry)

inductive RegistryHandler (Scenario : Type) where
  | change (change : RegistryChange Scenario) (stage : ChangeStage)
  | catalog (stage : CatalogStage)

/-- The files, the calls in flight, and the catalogs that were handed out. -/
structure RegistryService (Scenario : Type) where
  disk : RegistryDisk Scenario
  handlers : BTreeMap ℕ (RegistryHandler Scenario)
  produced : List FaiSignedCatalog

inductive RegistryEvent (Scenario : Type) where
  | change (id : ℕ) (change : RegistryChange Scenario)
  | catalog (id : ℕ)
  | advance (id : ℕ) (outcome : WriteOutcome) (now : ℕ)

/-- The next step of a change; without a stage the call has returned. -/
def ChangeStage.advance (gates : RegistryGates) (disk : RegistryDisk gates.Scenario)
    (change : RegistryChange gates.Scenario) (outcome : WriteOutcome) :
    ChangeStage → RegistryDisk gates.Scenario × Option ChangeStage
  | .starting => (disk, (change.check disk).toOption.map fun _ => .checked)
  | .checked => (disk, disk.readPolicy.toOption.map .policyRead)
  | .policyRead policy =>
    match change.write gates disk policy, outcome with
    | .error _, _ => (disk, none)
    | .ok result, .done => (result.disk, some (.written result.undo))
    | .ok _, .refused => (disk, none)
    | .ok result, .unsynced => (result.disk, none)
  | .written undo =>
    match disk.readSequence with
    | .error _ => (disk, some (.failed undo))
    | .ok sequence => (disk, some (.sequenceRead undo sequence))
  | .sequenceRead undo sequence =>
    let bumped := { disk with sequence := some (saturatingAdd sequence 1) }
    match outcome with
    | .done => (bumped, none)
    | .refused => (disk, some (.failed undo))
    | .unsynced => (bumped, some (.failed undo))
  | .failed undo =>
    -- The error of taking the write back is dropped.
    match outcome with
    | .done | .unsynced => (disk.restore undo, none)
    | .refused => (disk, none)

/-- The next step of a `catalog` call, and the catalog that it returns in the end. -/
def CatalogStage.advance (gates : RegistryGates) (disk : RegistryDisk gates.Scenario) (now : ℕ) :
    CatalogStage → Option CatalogStage × Option FaiSignedCatalog
  | .starting => (disk.readPolicy.toOption.map .policyRead, none)
  | .policyRead policy => (disk.readSequence.toOption.map (.sequenceRead policy), none)
  | .sequenceRead policy sequence =>
    (some (.scanning policy sequence disk.packages.keys []), none)
  | .scanning policy sequence [] found =>
    (none, some (signCatalog gates policy sequence now found))
  | .scanning policy sequence (c :: remaining) found =>
    match disk.packages[c]?.map (scanFile gates policy) with
    | some (.ok entry) => (some (.scanning policy sequence remaining (found ++ entry.toList)), none)
    | some (.error _) | none => (none, none)

namespace RegistryService
variable {Scenario : Type} {gates : RegistryGates}

/-- A call in flight goes on, or returns. -/
def proceed (service : RegistryService Scenario) (id : ℕ) :
    Option (RegistryHandler Scenario) → BTreeMap ℕ (RegistryHandler Scenario)
  | some handler => service.handlers.insert id handler
  | none => service.handlers.erase id

def step (gates : RegistryGates) (service : RegistryService gates.Scenario) :
    RegistryEvent gates.Scenario → Option (RegistryService gates.Scenario)
  | .change id change =>
    if id ∈ service.handlers then none
    else some { service with handlers := service.handlers.insert id (.change change .starting) }
  | .catalog id =>
    if id ∈ service.handlers then none
    else some { service with handlers := service.handlers.insert id (.catalog .starting) }
  | .advance id outcome now =>
    match service.handlers[id]? with
    | none => none
    | some (.change change stage) =>
      let advanced := stage.advance gates service.disk change outcome
      some { service with
        disk := advanced.1
        handlers := service.proceed id (advanced.2.map (.change change)) }
    | some (.catalog stage) =>
      let advanced := stage.advance gates service.disk now
      some { service with
        handlers := service.proceed id (advanced.1.map .catalog)
        produced := service.produced ++ advanced.2.toList }

end RegistryService

/-! What a client accepts. -/

/-- The entries have coordinates of their own, and hexadecimal digests and keys. -/
def verifyEntries : List Coordinates → List FaiListedEntry → Except String Unit
  | _, [] => .ok ()
  | seen, entry :: entries => do
    validateRegistryId entry.packageId "package"
    validateVersion entry.version
    let _ ← decodeFixed 32 entry.digestSha256
    let _ ← decodeFixed 32 entry.signerPublicKeyHex
    bailIf (entry.coordinates ∈ seen) "registry catalog contains duplicate package coordinates"
    verifyEntries (entry.coordinates :: seen) entries

def verifyRegistryCatalog (gates : RegistryGates) (signed : FaiSignedCatalog)
    (trustedPublicKeyHex : String) (previousSequence : Option ℕ) : Except String Unit := do
  bailIf (signed.catalog.version ≠ privateRegistryVersion)
    "unsupported private registry catalog version"
  bailIf (toAsciiLowercase signed.signingPublicKeyHex ≠ toAsciiLowercase trustedPublicKeyHex)
    "registry catalog key does not match the pinned key"
  bailIf ((previousSequence.any fun sequence => signed.catalog.sequence < sequence) = true)
    "registry catalog sequence rolled back"
  let _ ← decodeFixed 32 trustedPublicKeyHex
  let _ ← decodeFixed 64 signed.signatureHex
  gates.verifies trustedPublicKeyHex signed.catalog signed.signatureHex
  verifyEntries [] signed.catalog.packages

/-! The request of a connection. -/

/-- The bytes that have not been read, and how many of them the next reads bring, less one. -/
structure TcpStream where
  unread : List UInt8
  sizes : ℕ → ℕ

/-- A read brings nothing only at the end of the stream. -/
def TcpStream.read (stream : TcpStream) (capacity : ℕ) : List UInt8 × TcpStream :=
  let count := min capacity (stream.sizes 0 + 1)
  (stream.unread.take count, ⟨stream.unread.drop count, fun k => stream.sizes (k + 1)⟩)

inductive RequestError where
  | bail (message : String)
  | utf8
  | parseInt

structure HttpHead where
  method : String
  path : String
  contentLength : Option ℕ
  authorization : Option String

structure HttpRequest where
  method : String
  path : String
  authorization : Option String
  body : List UInt8

/-- The position of the first window that is `\r\n\r\n`. -/
def blankLine : List UInt8 → Option ℕ
  | [] => none
  | byte :: bytes =>
    if (byte :: bytes).take 4 = [13, 10, 13, 10] then some 0 else (blankLine bytes).map (· + 1)

/-- The bytes read up to the head's end, and where it ends. -/
def readHead : ℕ → List UInt8 → TcpStream → Except RequestError (List UInt8 × ℕ × TcpStream)
  | 0, _, _ => .error (.bail "HTTP request ended before headers")
  | fuel + 1, buffer, stream =>
    if 16384 ≤ buffer.length then .error (.bail "HTTP headers exceed limit")
    else
      let read := stream.read 2048
      if read.1 = [] then .error (.bail "HTTP request ended before headers")
      else match blankLine (buffer ++ read.1) with
        | some index => .ok (buffer ++ read.1, index + 4, read.2)
        | none => readHead fuel (buffer ++ read.1) read.2

/-- `split("\r\n")`, with the line being read. -/
def splitLines : List Char → List Char → List (List Char)
  | line, '\r' :: '\n' :: cs => line :: splitLines [] cs
  | line, c :: cs => splitLines (line ++ [c]) cs
  | line, [] => [line]

def HttpHead.addLine (head : HttpHead) (line : List Char) : Except RequestError HttpHead :=
  if ':' ∉ line then .error (.bail "malformed HTTP header")
  else
    let name := toAsciiLowercase (String.ofList (line.takeWhile (· ≠ ':')))
    let value := trim (String.ofList (line.dropWhile (· ≠ ':')).tail)
    if name = "content-length" then
      if head.contentLength.isSome then .error (.bail "duplicate Content-Length header")
      else match parseU64 value with
        | some length => .ok { head with contentLength := some length }
        | none => .error .parseInt
    else if name = "transfer-encoding" then
      .error (.bail "Transfer-Encoding is not supported")
    else if name = "authorization" then .ok { head with authorization := some value }
    else .ok head

def HttpHead.ofLine (line : List Char) : Except RequestError HttpHead :=
  match (splitWords [] line).map String.ofList with
  | [method, path, version] =>
    if version ≠ "HTTP/1.1" then .error (.bail "unsupported HTTP request line")
    else if method ∉ ["GET", "PUT", "POST"] then .error (.bail "unsupported HTTP method")
    else .ok ⟨method, path, none, none⟩
  | _ => .error (.bail "unsupported HTTP request line")

def parseHead (bytes : List UInt8) : Except RequestError HttpHead :=
  match String.fromUTF8? ⟨bytes.toArray⟩ with
  | none => .error .utf8
  | some headers => do
    let lines := splitLines [] headers.toList
    let head ← HttpHead.ofLine (lines.headD [])
    let head ← (lines.tail.filter (· ≠ [])).foldlM HttpHead.addLine head
    if 2097152 < head.contentLength.getD 0 then .error (.bail "HTTP request body exceeds 2 MiB")
    else .ok head

def readBody (contentLength : ℕ) : ℕ → List UInt8 → TcpStream → Except RequestError (List UInt8)
  | 0, _, _ => .error (.bail "HTTP request body ended early")
  | fuel + 1, body, stream =>
    if contentLength ≤ body.length then .ok body
    else
      let read := stream.read (min (contentLength - body.length) 16384)
      if read.1 = [] then .error (.bail "HTTP request body ended early")
      else readBody contentLength fuel (body ++ read.1) read.2

def readRequest (stream : TcpStream) : Except RequestError HttpRequest := do
  let (buffer, headerEnd, stream) ← readHead (stream.unread.length + 1) [] stream
  let head ← parseHead (buffer.take headerEnd)
  let contentLength := head.contentLength.getD 0
  let body ← readBody contentLength (stream.unread.length + 1)
    ((buffer.drop headerEnd).take contentLength) stream
  .ok ⟨head.method, head.path, head.authorization, body⟩

/-- What the bytes ask for when their head ends there. -/
def requestAt (bytes : List UInt8) (headerEnd : ℕ) : Except RequestError HttpRequest := do
  let head ← parseHead (bytes.take headerEnd)
  let contentLength := head.contentLength.getD 0
  if contentLength ≤ (bytes.drop headerEnd).length then
    .ok ⟨head.method, head.path, head.authorization, (bytes.drop headerEnd).take contentLength⟩
  else .error (.bail "HTTP request body ended early")

variable {bytes front rest buf found body : List UInt8} {strm left : TcpStream}
  {index fuel headerEnd len m : ℕ} {sizes others : ℕ → ℕ}

theorem requestAt_of_le {head : HttpHead} (hp : parseHead (bytes.take headerEnd) = .ok head)
    (hl : head.contentLength.getD 0 ≤ (bytes.drop headerEnd).length) :
    requestAt bytes headerEnd = .ok ⟨head.method, head.path, head.authorization,
      (bytes.drop headerEnd).take (head.contentLength.getD 0)⟩ := by
  rw [requestAt, hp]
  exact if_pos hl

theorem exists_of_requestAt {request : HttpRequest}
    (h : requestAt bytes headerEnd = .ok request) :
    ∃ head, parseHead (bytes.take headerEnd) = .ok head ∧
      head.contentLength.getD 0 ≤ (bytes.drop headerEnd).length ∧
        request = ⟨head.method, head.path, head.authorization,
          (bytes.drop headerEnd).take (head.contentLength.getD 0)⟩ := by
  obtain ⟨head, hp, h⟩ := bind_eq_ok.mp h
  dsimp only at h
  split_ifs at h with hl
  exact ⟨head, hp, hl, (Except.ok.inj h).symm⟩

theorem blankLine_le (h : blankLine bytes = some index) : index + 4 ≤ bytes.length := by
  induction bytes generalizing index with
  | nil => cases h
  | cons byte bytes ih =>
    rw [blankLine] at h
    split_ifs at h with ht
    · obtain rfl := Option.some.inj h
      have hl := congrArg List.length ht
      rw [length_take] at hl
      simpa using hl
    · obtain ⟨i, hi, rfl⟩ := Option.map_eq_some_iff.mp h
      exact Nat.succ_le_succ (ih hi)

/-- A blank line is found as soon as its last byte has arrived. -/
theorem blankLine_append (rest : List UInt8) : blankLine front = some index ↔
    blankLine (front ++ rest) = some index ∧ index + 4 ≤ front.length := by
  induction front generalizing index with
  | nil => exact ⟨fun h => (by cases h), fun h => (by cases h.2)⟩
  | cons byte front ih =>
    by_cases hl : 4 ≤ (byte :: front).length
    · have ht : (byte :: (front ++ rest)).take 4 = (byte :: front).take 4 :=
        take_append_of_le_length hl
      rw [cons_append, blankLine, blankLine, ht]
      split_ifs with hs
      · exact ⟨fun h => ⟨h, by rwa [← Option.some.inj h, Nat.zero_add]⟩, And.left⟩
      · cases index with
        | zero => simp
        | succ index => simp [ih]
    · exact ⟨fun h => absurd (blankLine_le h) (by omega), fun h => absurd h.2 (by omega)⟩

theorem TcpStream.read_append (strm : TcpStream) (c : ℕ) :
    (strm.read c).1 ++ (strm.read c).2.unread = strm.unread := take_append_drop _ _

theorem TcpStream.length_read (strm : TcpStream) (c : ℕ) :
    (strm.read c).1.length = min (min c (strm.sizes 0 + 1)) strm.unread.length :=
  length_take

theorem TcpStream.length_read_add (strm : TcpStream) (c : ℕ) :
    (strm.read c).1.length + (strm.read c).2.unread.length = strm.unread.length := by
  rw [← length_append, strm.read_append]

theorem blankLine_take (hi : blankLine bytes = some index) (hm : m < index + 4) :
    blankLine (bytes.take m) = none := by
  refine Option.eq_none_iff_forall_ne_some.mpr fun i hk => ?_
  obtain ⟨he, hc⟩ := (blankLine_append (bytes.drop m)).mp hk
  rw [take_append_drop, hi] at he
  obtain rfl := Option.some.inj he
  rw [length_take] at hc
  omega

theorem readHead_ok (h : readHead fuel buf strm = .ok (found, headerEnd, left)) :
    found ++ left.unread = buf ++ strm.unread ∧ found.length < 18432 ∧
      ∃ i, headerEnd = i + 4 ∧ blankLine found = some i := by
  induction fuel generalizing buf strm with
  | zero => cases h
  | succ fuel ih =>
    rw [readHead] at h
    dsimp only at h
    split_ifs at h with hl
    cases hb : blankLine (buf ++ (strm.read 2048).1) with
    | some i =>
      rw [hb] at h
      cases h
      refine ⟨by rw [append_assoc, strm.read_append], ?_, i, rfl, hb⟩
      have hc := strm.length_read 2048
      rw [length_append]
      omega
    | none =>
      rw [hb] at h
      rw [← strm.read_append 2048, ← append_assoc]
      exact ih h

theorem readHead_of_le (hn : blankLine buf = none)
    (hi : blankLine (buf ++ strm.unread) = some index) (hl : index + 4 ≤ 16384)
    (hf : strm.unread.length < fuel) :
    ∃ found left, readHead fuel buf strm = .ok (found, index + 4, left) := by
  induction fuel generalizing buf strm with
  | zero => cases hf
  | succ fuel ih =>
    have hb : buf.length < index + 4 := by
      by_contra hc
      rw [(blankLine_append _).mpr ⟨hi, Nat.le_of_not_lt hc⟩] at hn
      cases hn
    have hu := blankLine_le hi
    rw [length_append] at hu
    have hr := strm.length_read 2048
    have ha := strm.length_read_add 2048
    rw [readHead, if_neg (by omega)]
    dsimp only
    rw [if_neg (ne_nil_of_length_pos (by omega))]
    rw [← strm.read_append 2048, ← append_assoc] at hi
    cases hk : blankLine (buf ++ (strm.read 2048).1) with
    | some i =>
      obtain rfl := Option.some.inj (((blankLine_append _).mp hk).1.symm.trans hi)
      exact ⟨_, _, rfl⟩
    | none => exact ih hk hi (by omega)

/-- Reads of single bytes that find no blank line. -/
theorem readHead_single (hs : ∀ k < m, sizes k = 0) (hm : m ≤ rest.length)
    (hl : buf.length + m ≤ 16384) (hn : blankLine (buf ++ rest.take m) = none) :
    readHead (fuel + m) buf ⟨rest, sizes⟩ =
      readHead fuel (buf ++ rest.take m) ⟨rest.drop m, fun k => sizes (k + m)⟩ := by
  induction m generalizing buf rest sizes with
  | zero => simp
  | succ m ih =>
    obtain ⟨byte, rest, rfl⟩ := exists_cons_of_length_pos (Nat.lt_of_lt_of_le m.succ_pos hm)
    have hread : (TcpStream.mk (byte :: rest) sizes).read 2048 =
        ([byte], ⟨rest, fun k => sizes (k + 1)⟩) := by
      simp [TcpStream.read, hs 0 m.succ_pos]
    rw [take_succ_cons, append_cons] at hn ⊢
    have hb : blankLine (buf ++ [byte]) = none := by
      refine Option.eq_none_iff_forall_ne_some.mpr fun i hk => ?_
      exact absurd (hn.symm.trans ((blankLine_append _).mp hk).1) (by simp)
    rw [← Nat.add_assoc, readHead, if_neg (by omega)]
    dsimp only
    rw [hread, if_neg (cons_ne_nil _ _)]
    dsimp only
    rw [hb]
    exact ih (fun k hk => hs (k + 1) (Nat.succ_lt_succ hk)) (Nat.le_of_succ_le_succ hm)
      (by rw [length_append, length_singleton]; omega) hn

theorem readBody_eq (hb : body.length ≤ len) (hf : strm.unread.length < fuel) :
    readBody len fuel body strm =
      if len ≤ (body ++ strm.unread).length then .ok ((body ++ strm.unread).take len)
      else .error (.bail "HTTP request body ended early") := by
  induction fuel generalizing body strm with
  | zero => cases hf
  | succ fuel ih =>
    rw [readBody]
    by_cases hl : len ≤ body.length
    · rw [if_pos hl, if_pos (by rw [length_append]; omega),
        take_append_of_le_length hl, take_of_length_le hb]
    rw [if_neg hl]
    dsimp only
    have hr := strm.length_read (min (len - body.length) 16384)
    have ha := strm.length_read_add (min (len - body.length) 16384)
    split_ifs with he ht ht
    · rw [he, length_nil] at hr
      rw [length_append] at ht
      omega
    · rfl
    all_goals
      have hp := length_pos_of_ne_nil he
      rw [ih (by rw [length_append]; omega) (by omega), append_assoc, strm.read_append]
    · exact if_pos ht
    · exact if_neg ht

theorem readRequest_of_ok
    (h : readHead (strm.unread.length + 1) [] strm = .ok (found, headerEnd, left)) :
    readRequest strm = requestAt strm.unread headerEnd := by
  obtain ⟨happ, -, i, rfl, hi⟩ := readHead_ok h
  rw [nil_append] at happ
  have hle := blankLine_le hi
  rw [readRequest, requestAt, h, ← happ, take_append_of_le_length hle, drop_append_of_le_length hle]
  simp only [bind, Except.bind]
  cases hp : parseHead (found.take (i + 4)) with
  | error error => rfl
  | ok head =>
    dsimp only
    rw [readBody_eq (by rw [length_take]; omega) (Nat.lt_succ_self _)]
    by_cases hc : head.contentLength.getD 0 ≤ (found.drop (i + 4)).length
    · have hl : ((found.drop (i + 4)).take (head.contentLength.getD 0)).length =
          head.contentLength.getD 0 := by rw [length_take, Nat.min_eq_left hc]
      rw [take_append_of_le_length (Nat.le_of_eq hl.symm), take_take, Nat.min_self,
        take_append_of_le_length hc,
        if_pos (by rw [length_append, hl]; exact Nat.le_add_right _ _),
        if_pos (by rw [length_append]; exact Nat.le_trans hc (Nat.le_add_right _ _))]
    · rw [take_of_length_le (Nat.le_of_not_le hc)]
      split_ifs <;> rfl

/-- A request whose head ends within the limit, and one whose head ends past it. -/
theorem readRequest_of_le (hi : blankLine bytes = some index) (hl : index + 4 ≤ 16384) :
    readRequest ⟨bytes, sizes⟩ = requestAt bytes (index + 4) := by
  obtain ⟨found, left, h⟩ : ∃ found left, readHead (bytes.length + 1) [] ⟨bytes, sizes⟩ =
      .ok (found, index + 4, left) := readHead_of_le rfl hi hl (Nat.lt_succ_self _)
  exact readRequest_of_ok h

theorem exists_of_readRequest {request : HttpRequest} (h : readRequest strm = .ok request) :
    ∃ i, blankLine strm.unread = some i ∧ i + 4 < 18432 ∧
      requestAt strm.unread (i + 4) = .ok request := by
  cases hh : readHead (strm.unread.length + 1) [] strm with
  | error error =>
    rw [readRequest, hh] at h
    cases h
  | ok st =>
    obtain ⟨found, headerEnd, left⟩ := st
    obtain ⟨happ, hlt, i, rfl, hi⟩ := readHead_ok hh
    rw [readRequest_of_ok hh] at h
    have hle := blankLine_le hi
    refine ⟨i, ?_, by omega, h⟩
    rw [nil_append] at happ
    exact happ ▸ ((blankLine_append _).mp hi).1

/-- Single bytes up to the limit. -/
theorem readRequest_single (hi : blankLine bytes = some index) (hl : 16384 < index + 4) :
    (readRequest ⟨bytes, fun _ => 0⟩).toOption = none := by
  have hle := blankLine_le hi
  have hn : blankLine (bytes.take 16384) = none := blankLine_take hi hl
  obtain ⟨fuel, hf⟩ : ∃ fuel, bytes.length + 1 = fuel + 1 + 16384 :=
    ⟨bytes.length - 16384, by omega⟩
  rw [readRequest, hf, readHead_single (fun _ _ => rfl) (by omega) (Nat.le_refl _) hn, readHead,
    if_pos (by rw [nil_append, length_take]; omega)]
  rfl

/-- Single bytes up to the last one before the limit, and then all a read can bring. -/
theorem readRequest_late (hi : blankLine bytes = some index) (hl : 16384 < index + 4)
    (hu : index + 4 ≤ 18431) :
    readRequest ⟨bytes, fun k => if k < 16383 then 0 else 2047⟩ = requestAt bytes (index + 4) := by
  have hle := blankLine_le hi
  have hn : blankLine (bytes.take 16383) = none := blankLine_take hi (by omega)
  obtain ⟨fuel, hf⟩ : ∃ fuel, bytes.length + 1 = fuel + 1 + 16383 :=
    ⟨bytes.length - 16383, by omega⟩
  have hb : blankLine (bytes.take 16383 ++ (bytes.drop 16383).take 2048) = some index := by
    rw [← take_add]
    refine (blankLine_append _).mpr ⟨by rw [take_append_drop]; exact hi, ?_⟩
    rw [length_take]
    omega
  have hh : readHead (bytes.length + 1) [] ⟨bytes, fun k => if k < 16383 then 0 else 2047⟩ =
      .ok (bytes.take 16383 ++ (bytes.drop 16383).take 2048, index + 4,
        ⟨(bytes.drop 16383).drop 2048, fun _ => 2047⟩) := by
    rw [hf, readHead_single (fun _ hk => if_pos hk) (by omega) (by decide) hn, readHead,
      if_neg (by rw [nil_append, length_take]; omega)]
    have he : (bytes.drop 16383).take 2048 ≠ [] := by
      refine ne_nil_of_length_pos ?_
      rw [length_take, length_drop]
      omega
    simp [TcpStream.read, he, hb]
  exact readRequest_of_ok hh

/-- The outcome depends on the reads where a whole request has a head that ends past the limit
but within the bytes of one more read. -/
theorem read_request_segmentation (bytes : List UInt8) :
    ((∀ sizes others, (readRequest ⟨bytes, sizes⟩).toOption =
        (readRequest ⟨bytes, others⟩).toOption) ∧
      ∀ sizes request, readRequest ⟨bytes, sizes⟩ = .ok request →
        ∃ index head, blankLine bytes = some index ∧
          parseHead (bytes.take (index + 4)) = .ok head ∧
          head.contentLength.getD 0 ≤ (bytes.drop (index + 4)).length ∧
          request.body = (bytes.drop (index + 4)).take (head.contentLength.getD 0)) ↔
      ∀ index, blankLine bytes = some index → 16384 < index + 4 → index + 4 ≤ 18431 →
        ∀ head, parseHead (bytes.take (index + 4)) = .ok head →
          (bytes.drop (index + 4)).length < head.contentLength.getD 0 := by
  constructor
  · rintro ⟨hsame, -⟩ index hi hl hu head hp
    by_contra hc
    have hs := hsame (fun _ => 0) fun k => if k < 16383 then 0 else 2047
    rw [readRequest_single hi hl, readRequest_late hi hl hu,
      requestAt_of_le hp (Nat.le_of_not_lt hc)] at hs
    cases hs
  · intro hcond
    refine ⟨fun sizes others => ?_, fun sizes request h => ?_⟩
    · by_cases hw : ∃ index, blankLine bytes = some index ∧ index + 4 ≤ 16384
      · obtain ⟨index, hi, hl⟩ := hw
        rw [readRequest_of_le hi hl, readRequest_of_le hi hl]
      have hno : ∀ sizes, (readRequest ⟨bytes, sizes⟩).toOption = none := by
        intro sizes
        cases h : readRequest ⟨bytes, sizes⟩ with
        | error error => rfl
        | ok request =>
          obtain ⟨index, hi, hu, hr⟩ := exists_of_readRequest h
          obtain ⟨head, hp, hle, -⟩ := exists_of_requestAt hr
          have hl : 16384 < index + 4 := Nat.lt_of_not_le fun hl => hw ⟨index, hi, hl⟩
          exact absurd (hcond index hi hl (Nat.le_of_lt_succ hu) head hp) (Nat.not_lt_of_le hle)
      rw [hno, hno]
    · obtain ⟨index, hi, -, hr⟩ := exists_of_readRequest h
      obtain ⟨head, hp, hle, rfl⟩ := exists_of_requestAt hr
      exact ⟨index, head, hi, hp, hle, rfl⟩

/-! A request after blanks. -/

theorem toUtf8_blanks (n : ℕ) (cs : List Char) :
    toUtf8 (List.replicate n ' ' ++ cs) = List.replicate n 32 ++ toUtf8 cs := by
  induction n with
  | zero => rfl
  | succ n ih => exact congrArg (32 :: ·) ih

theorem blankLine_blanks (n : ℕ) (bytes : List UInt8) :
    blankLine (List.replicate n 32 ++ bytes) = (blankLine bytes).map (· + n) := by
  induction n with
  | zero => exact Option.map_id'.symm
  | succ n ih =>
    rw [replicate_succ, cons_append, blankLine, take_succ_cons,
      if_neg fun he => absurd (List.cons.inj he).1 (by decide), ih, Option.map_map]
    rfl

theorem splitLines_blanks (n : ℕ) (line cs : List Char) : splitLines line
    (List.replicate n ' ' ++ cs) = splitLines (line ++ List.replicate n ' ') cs := by
  induction n generalizing line with
  | zero => rw [replicate_zero, nil_append, append_nil]
  | succ n ih =>
    rw [replicate_succ, append_cons line, cons_append, ← ih]
    rfl

theorem splitWords_blanks (n : ℕ) (cs : List Char) :
    splitWords [] (List.replicate n ' ' ++ cs) = splitWords [] cs := by
  induction n with
  | zero => rfl
  | succ n ih => exact ih

theorem parseHead_blanks (n : ℕ) :
    parseHead (toUtf8 (List.replicate n ' ' ++ "GET / HTTP/1.1\r\n\r\n".toList)) =
      .ok ⟨"GET", "/", none, none⟩ := by
  generalize hc : List.replicate n ' ' ++ "GET / HTTP/1.1\r\n\r\n".toList = cs
  have he : (⟨(toUtf8 cs).toArray⟩ : ByteArray) = (String.ofList cs).toByteArray := by
    rw [String.toByteArray_ofList, ByteArray.ext_iff, List.utf8Encode, data_toByteArray]
    rfl
  have hl : splitLines [] cs =
      [List.replicate n ' ' ++ "GET / HTTP/1.1".toList, [], []] := by
    rw [← hc, splitLines_blanks]
    simp [splitLines]
  have ho : HttpHead.ofLine (List.replicate n ' ' ++ "GET / HTTP/1.1".toList) =
      .ok ⟨"GET", "/", none, none⟩ := by
    rw [HttpHead.ofLine, splitWords_blanks]
    rfl
  rw [parseHead, he, String.fromUTF8?, dif_pos (String.isValidUTF8 _)]
  dsimp only
  rw [show (String.fromUTF8 (String.ofList cs).toByteArray _).toList = cs from String.toList_ofList,
    hl, headD_cons, ho]
  rfl

theorem read_request_splits :
    ∃ bytes sizes others, (readRequest ⟨bytes, sizes⟩).toOption.isSome ∧
      (readRequest ⟨bytes, others⟩).toOption = none := by
  have hp := parseHead_blanks 16384
  rw [toUtf8_blanks] at hp
  have hi := blankLine_blanks 16384 (toUtf8 "GET / HTTP/1.1\r\n\r\n".toList)
  rw [show blankLine (toUtf8 "GET / HTTP/1.1\r\n\r\n".toList) = some 14 by decide] at hi
  generalize hb : List.replicate 16384 32 ++ toUtf8 "GET / HTTP/1.1\r\n\r\n".toList = bytes
    at hp hi
  have hl : bytes.length = 14 + 16384 + 4 := by
    rw [← hb, length_append, length_replicate]
    rfl
  refine ⟨bytes, fun k => if k < 16383 then 0 else 2047, fun _ => 0, ?_,
    readRequest_single hi (by decide)⟩
  rw [← take_of_length_le (Nat.le_of_eq hl)] at hp
  rw [readRequest_late hi (by decide) (by decide), requestAt_of_le hp (Nat.zero_le _)]
  rfl

end FocalDesk
