import FocalDesk.Archive.Header
import FocalDesk.Library.Program

/-! The extraction of an archive, call by call to the system and to the reader of the archive. -/
namespace FocalDesk.Archive
open Library

structure ExtractionState where
  createdPaths : List Path
  entries : ℕ
  bytes : ℕ

/-- What an extraction has done. The last three fields are for the record: each directory and file
at the moment it was created, how many bytes were written, and the names of the entries. -/
structure Ledger where
  fs : FileSystem
  state : ExtractionState
  made : List (Path × Node)
  written : ℕ
  names : List Path

/-- The bytes that are left. After the last one the reader ends or fails; `sizes` has how much
each call returns at most. -/
structure Reader where
  input : List UInt8
  fails : Bool
  sizes : List ℕ

/-- The checks until the user cancels, if ever, and which of the next system calls fail. -/
structure World where
  ledger : Ledger
  reader : Reader
  checksLeft : Option ℕ
  faults : List Bool

abbrev M := EStateM IoError World

def modifyLedger (f : Ledger → Ledger) : M Unit :=
  modify fun w => { w with ledger := f w.ledger }

def checkCancelled : M Unit := do
  let w ← get
  match w.checksLeft with
  | none => pure ()
  | some 0 => throw ⟨.interrupted, .text "extraction cancelled"⟩
  | some (n + 1) => set { w with checksLeft := some n }

/-! The system. -/

/-- A call fails if it is its turn to. -/
def systemCall : M Unit := do
  let w ← get
  set { w with faults := w.faults.tail }
  if w.faults.head? = some true then throw ⟨.other, .system⟩ else pure ()

def symlinkMetadata (path : Path) : M (Except IoError Node) := attempt do
  systemCall
  let w ← get
  liftExcept (lookupNode w.ledger.fs path)

/-- `create_dir`, and `open` with `create_new`. -/
def create (path : Path) (node : Node) : M Unit := do
  systemCall
  let w ← get
  if getKey path w.ledger.fs ≠ none then throw ⟨.alreadyExists, .system⟩
  else if getKey path.dropLast w.ledger.fs ≠ some .dir then throw (missing w.ledger.fs path)
  else modifyLedger fun ledger =>
    { ledger with fs := putKey path node ledger.fs, made := ledger.made ++ [(path, node)] }

def pushCreated (path : Path) : M Unit :=
  modifyLedger fun ledger =>
    { ledger with state.createdPaths := ledger.state.createdPaths ++ [path] }

/-- `write_all` to the file that was opened under a path. -/
def writeAll (path : Path) (data : List UInt8) : M Unit := do
  systemCall
  let w ← get
  match getKey path w.ledger.fs with
  | some (.file old) => modifyLedger fun ledger =>
      { ledger with
        fs := putKey path (.file (old ++ data)) ledger.fs
        written := ledger.written + data.length }
  | _ => throw ⟨.other, .system⟩

/-! The reader. -/

/-- One call of `read`: no bytes only at the end. -/
def read (requested : ℕ) : M (List UInt8) := do
  let w ← get
  if w.reader.input = [] then
    if w.reader.fails then throw ⟨.other, .system⟩ else pure []
  else
    let size := min requested (max 1 (w.reader.sizes.headD requested))
    set { w with reader := { w.reader with
      input := w.reader.input.drop size
      sizes := w.reader.sizes.tail } }
    pure (w.reader.input.take size)

def readExactOrInvalid (length : ℕ) (message : String) : M (List UInt8) := do
  let w ← get
  set { w with reader := { w.reader with input := w.reader.input.drop length } }
  if length ≤ w.reader.input.length then pure (w.reader.input.take length)
  else if w.reader.fails then throw ⟨.other, .system⟩
  else throw ⟨.invalidData, .text message⟩

def setReader (input : List UInt8) (fails : Bool) : M Unit :=
  modify fun w => { w with reader := ⟨input, fails, w.reader.sizes⟩ }

def bufferSize : ℕ := 64 * 1024

/-! Directories and files. -/

/-- One directory on the way. -/
def ensureComponent (current : Path) : M Unit := do
  let metadata ← symlinkMetadata current
  match metadata with
  | .ok .dir => pure ()
  | .ok _ => throw ⟨.alreadyExists, .notSafeFolder current⟩
  | .error error =>
    if error.kind = .notFound then do
      create current .dir
      pushCreated current
    else throw error

def ensureComponents : Path → List Name → M Unit
  | _, [] => pure ()
  | current, part :: rest => do
    ensureComponent (current ++ [part])
    ensureComponents (current ++ [part]) rest

def ensureDirectory (path destination : Path) : M Unit :=
  if path = destination then do
    let metadata ← symlinkMetadata path
    match metadata with
    | .ok .dir => pure ()
    | .ok _ => throw (unsafeEntry "the extraction folder is no longer a safe directory")
    | .error error => throw error
  else if destination <+: path then
    ensureComponents destination (path.drop destination.length)
  else throw (unsafeEntry "entry would escape the destination folder")

def ensureParentDirectories (path destination : Path) : M Unit :=
  if path = [] then throw (unsafeEntry "entry has no parent folder")
  else ensureDirectory path.dropLast destination

def newOutputFile (path : Path) : M Unit := do
  create path (.file [])
  pushCreated path

def countEntry : M Unit :=
  modifyLedger fun ledger => { ledger with state.entries := ledger.state.entries + 1 }

/-- More bytes, up to a limit. -/
def addBytes (size limit : ℕ) (message : String) : M Unit := do
  let w ← get
  if u64Max < w.ledger.state.bytes + size then
    throw (limitError "archive expands beyond the safe output limit")
  else do
    modifyLedger fun ledger => { ledger with state.bytes := ledger.state.bytes + size }
    if limit < w.ledger.state.bytes + size then throw (limitError message) else pure ()

/-! A zip archive. -/

/-- Each round but the last reads a byte, so there are no more rounds than bytes and one. -/
def copyRounds (path : Path) (expected : ℕ) : ℕ → ℕ → M ℕ
  | 0, copied => pure copied
  | fuel + 1, copied => do
    checkCancelled
    let chunk ← read bufferSize
    if chunk = [] then pure copied
    else if expected < copied + chunk.length ∨ maxEntryBytes < copied + chunk.length then
      throw (limitError "an entry expanded beyond its declared size")
    else do
      writeAll path chunk
      copyRounds path expected fuel (copied + chunk.length)

def copyBounded (path : Path) (expected : ℕ) : M Unit := do
  let w ← get
  let copied ← copyRounds path expected (w.reader.input.length + 1) 0
  if copied ≠ expected then
    throw ⟨.invalidData, .text "an entry did not match its declared size"⟩
  else addBytes copied maxExtractedBytes "archive expands beyond the 2 GiB output limit"

/-- An entry, as it is read from a zip archive. -/
structure ZipEntry where
  opens : Bool
  isSymlink : Bool
  isDir : Bool
  isFile : Bool
  size : ℕ
  enclosedName : Option (List UInt8)
  data : List UInt8
  fails : Bool

def byIndex (entry : ZipEntry) : M Unit :=
  if entry.opens then pure () else throw ⟨.invalidData, .system⟩

def entryPath (entry : ZipEntry) : M Path :=
  match entry.enclosedName with
  | none => throw (unsafeEntry "an entry contains an unsafe path")
  | some name => liftExcept (safeRelativePath name)

/-- One entry before anything is written. -/
def declareEntry (archiveSize declaredTotal : ℕ) (entry : ZipEntry) : M ℕ := do
  checkCancelled
  byIndex entry
  if entry.isSymlink then throw (unsafeEntry "symbolic links are not extracted")
  else if maxEntryBytes < entry.size then
    throw (limitError "an archive entry exceeds 512 MiB")
  else
    let total := saturatingAdd declaredTotal entry.size
    if maxExtractedBytes < total ∨
        saturatingAdd (saturatingMul archiveSize maxCompressionRatio) ratioAllowance < total then
      throw (limitError "archive expands beyond the safe output limit")
    else do
      let _ ← entryPath entry
      pure total

def declareEntries (archiveSize : ℕ) : ℕ → List ZipEntry → M Unit
  | _, [] => pure ()
  | declaredTotal, entry :: entries => do
    let total ← declareEntry archiveSize declaredTotal entry
    declareEntries archiveSize total entries

def nameEntry (relative : Path) : M Unit :=
  modifyLedger fun ledger => { ledger with names := ledger.names ++ [relative] }

/-- The directory or the file of an entry. -/
def extractZipOutput (destination relative : Path) (entry : ZipEntry) : M Unit :=
  if entry.isDir then ensureDirectory (destination ++ relative) destination
  else if entry.isFile then do
    ensureParentDirectories (destination ++ relative) destination
    newOutputFile (destination ++ relative)
    setReader entry.data entry.fails
    copyBounded (destination ++ relative) entry.size
  else throw (unsafeEntry "special archive entries are not extracted")

def extractZipEntry (destination : Path) (entry : ZipEntry) : M Unit := do
  checkCancelled
  byIndex entry
  let relative ← entryPath entry
  nameEntry relative
  extractZipOutput destination relative entry
  countEntry

def extractZipEntries (destination : Path) : List ZipEntry → M Unit
  | [] => pure ()
  | entry :: entries => do
    extractZipEntry destination entry
    extractZipEntries destination entries

def extractZip (destination : Path) (archiveSize : ℕ) (entries : List ZipEntry) : M Unit := do
  if maxEntries < entries.length then
    throw (limitError "archive contains more than 10,000 entries")
  else do
    declareEntries archiveSize 0 entries
    extractZipEntries destination entries

/-! A tar archive. -/

/-- Each round reads a byte, so the rounds are no more than the bytes that remain. -/
def payloadRounds (consume : List UInt8 → M Unit) : ℕ → ℕ → M Unit
  | 0, _ => pure ()
  | fuel + 1, remaining =>
    if remaining = 0 then pure ()
    else do
      checkCancelled
      let chunk ← read (min remaining bufferSize)
      if chunk = [] then throw ⟨.unexpectedEof, .text "truncated tar entry"⟩
      else do
        consume chunk
        payloadRounds consume fuel (remaining - chunk.length)

def skipPadding (size : ℕ) : M Unit := do
  checkCancelled
  let _ ← readExactOrInvalid ((512 - size % 512) % 512) "truncated tar padding"

def copyTarFile (path : Path) (size : ℕ) : M Unit := do
  payloadRounds (writeAll path) size size
  skipPadding size

def skipTarPayload (size : ℕ) : M Unit := do
  payloadRounds (fun _ => pure ()) size size
  skipPadding size

def readTarPayload (size : ℕ) : M (List UInt8) := do
  let data ← readExactOrInvalid size "truncated tar metadata"
  skipPadding size
  pure data

def blank (bytes : List UInt8) : Bool := bytes.all (· = 0)

def trailingRounds : ℕ → ℕ → M Unit
  | 0, _ => pure ()
  | fuel + 1, trailing => do
    checkCancelled
    let chunk ← read bufferSize
    if chunk = [] then pure ()
    else if maxMetadataBytes < trailing + chunk.length ∨ blank chunk = false then
      throw ⟨.invalidData, .text "tar archive has unexpected trailing data"⟩
    else trailingRounds fuel (trailing + chunk.length)

def finishTarStream : M Unit := do
  let second ← readExactOrInvalid 512 "tar archive is missing its second end marker"
  if blank second = false then
    throw ⟨.invalidData, .text "tar archive contains data after its end marker"⟩
  else do
    let w ← get
    trailingRounds (w.reader.input.length + 1) 0

/-- What a record leaves for the next ones. -/
structure TarState where
  pendingLongName : Option (List UInt8)
  pendingPaxPath : Option (List UInt8)
  streamBytes : ℕ

/-- A header and the size it has, or the end of the archive. -/
def nextHeader : M (Option (List UInt8 × ℕ)) := do
  checkCancelled
  let header ← readExactOrInvalid 512 "truncated tar header"
  if blank header then pure none
  else do
    liftExcept (validateTarChecksum header)
    let size ← liftExcept (parseTarNumber (slice 124 136 header))
    pure (some (header, size))

def countStreamBytes (outputLimit size : ℕ) (tar : TarState) : M TarState :=
  let paddedSize := saturatingAdd size 511 / 512 * 512
  let streamBytes := tar.streamBytes + saturatingAdd 512 paddedSize
  if u64Max < streamBytes ∨ saturatingAdd outputLimit (16 * 1024 * 1024) < streamBytes then
    throw (limitError "archive expands beyond the safe stream limit")
  else pure { tar with streamBytes }

def typeFlag (header : List UInt8) : UInt8 := header.getD 156 0

/-- A record that is about the next entry: `L`, `x` or `g`. -/
def isMetadata (flag : UInt8) : Bool := flag = 76 || flag = 120 || flag = 103

def readMetadata (flag : UInt8) (size : ℕ) (tar : TarState) : M TarState := do
  if maxMetadataBytes < size then throw (limitError "tar metadata exceeds 1 MiB")
  else do
    let data ← readTarPayload size
    if flag = 76 then pure { tar with pendingLongName := some (nulTerminated data) }
    else if flag = 120 then do
      let path ← liftExcept (parsePaxPath data)
      pure { tar with pendingPaxPath := path }
    else pure tar

/-- `pending_pax_path.take().or_else(|| pending_long_name.take())`: a long name stays if there is
a path. -/
def takeName (header : List UInt8) (tar : TarState) : Except IoError (List UInt8) × TarState :=
  match tar.pendingPaxPath with
  | some path => (.ok path, { tar with pendingPaxPath := none })
  | none => match tar.pendingLongName with
    | some name => (.ok name, { tar with pendingLongName := none })
    | none => (tarHeaderPath header, tar)

/-- The directory or the file of a record. -/
def extractTarOutput (destination : Path) (outputLimit : ℕ) (flag : UInt8) (relative : Path)
    (size : ℕ) : M Unit :=
  if flag = 0 ∨ flag = 48 then do
    addBytes size outputLimit "archive expands beyond the safe output limit"
    ensureParentDirectories (destination ++ relative) destination
    newOutputFile (destination ++ relative)
    copyTarFile (destination ++ relative) size
  else if flag = 53 then do
    ensureDirectory (destination ++ relative) destination
    skipTarPayload size
  else throw (unsafeEntry "links, devices, and special tar entries are not extracted")

def tarRecord (destination : Path) (outputLimit : ℕ) (header : List UInt8) (size : ℕ)
    (tar : TarState) : M TarState := do
  let tar ← countStreamBytes outputLimit size tar
  if isMetadata (typeFlag header) then readMetadata (typeFlag header) size tar
  else do
    let rawName ← liftExcept (takeName header tar).1
    let relative ← liftExcept (safeRelativePath rawName)
    if maxEntryBytes < size then throw (limitError "an archive entry exceeds 512 MiB")
    else do
      nameEntry relative
      extractTarOutput destination outputLimit (typeFlag header) relative size
      countEntry
      pure (takeName header tar).2

/-- The records of a stream, and how many there may still be. -/
def tarRecords (destination : Path) (outputLimit : ℕ) : ℕ → TarState → M Unit
  | 0, _ => do
    let next ← nextHeader
    match next with
    | none => finishTarStream
    | some _ => throw (limitError "archive contains more than 10,000 records")
  | left + 1, tar => do
    let next ← nextHeader
    match next with
    | none => finishTarStream
    | some (header, size) => do
      let tar ← tarRecord destination outputLimit header size tar
      tarRecords destination outputLimit left tar

def extractTar (destination : Path) (outputLimit : ℕ) : M Unit :=
  tarRecords destination outputLimit maxEntries ⟨none, none, 0⟩

/-! An archive. -/

inductive ArchiveKind where
  | zip
  | tar
  | tarGz
  | tarXz
deriving DecidableEq

/-- The library and the program that decode archives. -/
structure Decoders where
  zipArchive : List UInt8 → Option (List ZipEntry)
  gunzip : List UInt8 → List UInt8 × Bool
  unxz : List UInt8 → List UInt8 × Bool
  xzSucceeds : List UInt8 → Bool

/-- The bytes of a suffix, in lower case. -/
def utf8Bytes (text : String) : List UInt8 := text.toUTF8.toList

def toAsciiLowercase (byte : UInt8) : UInt8 := if 65 ≤ byte ∧ byte ≤ 90 then byte + 32 else byte

def endsWith (name : Name) (suffix : String) : Bool := utf8Bytes suffix <:+ name

def archiveKind (path : Path) : Option ArchiveKind :=
  path.getLast?.bind fun name =>
    if (ByteArray.mk name.toArray).validateUTF8 then
      let name := name.map toAsciiLowercase
      if endsWith name ".tar.gz" ∨ endsWith name ".tgz" then some .tarGz
      else if endsWith name ".tar.xz" ∨ endsWith name ".txz" then some .tarXz
      else if endsWith name ".tar" then some .tar
      else if endsWith name ".zip" then some .zip
      else none
    else none

/-- The bytes of the archive, if it can be opened. -/
def openSource (source : Path) : M (List UInt8) := do
  systemCall
  let w ← get
  match getKey source w.ledger.fs with
  | some (.file data) => pure data
  | _ => throw (missing w.ledger.fs source)

/-- The program `xz` is waited for whatever comes of its output. -/
def extractXzTar (decoders : Decoders) (source destination : Path) (outputLimit : ℕ) : M Unit := do
  let data ← openSource source
  let started ← attempt systemCall
  match started with
  | .error error => throw ⟨error.kind, .couldNotStartXz⟩
  | .ok _ => do
    setReader (decoders.unxz data).1 (decoders.unxz data).2
    let result ← attempt (extractTar destination outputLimit)
    systemCall
    liftExcept result
    if decoders.xzSucceeds data then pure ()
    else throw ⟨.invalidData, .text "xz could not decompress the archive"⟩

def extractKind (decoders : Decoders) (source destination : Path) (archiveSize : ℕ) :
    ArchiveKind → M Unit
  | .zip => do
    let data ← openSource source
    match decoders.zipArchive data with
    | none => throw ⟨.invalidData, .system⟩
    | some entries => extractZip destination archiveSize entries
  | .tar => do
    let data ← openSource source
    setReader data false
    extractTar destination maxExtractedBytes
  | .tarGz => do
    let data ← openSource source
    setReader (decoders.gunzip data).1 (decoders.gunzip data).2
    extractTar destination (compressedOutputLimit archiveSize)
  | .tarXz => extractXzTar decoders source destination (compressedOutputLimit archiveSize)

/-- The kind and the size of an archive that may be extracted to a destination. -/
def checkArchive (source destination : Path) : M (ArchiveKind × ℕ) := do
  match archiveKind source with
  | none => throw ⟨.invalidInput, .text "unsupported archive format"⟩
  | some kind => do
    let metadata ← symlinkMetadata source
    let node ← liftExcept metadata
    match node with
    | .file data =>
      if maxArchiveBytes < data.length then
        throw ⟨.invalidData, .text "archive exceeds the 1 GiB input limit"⟩
      else do
        let w ← get
        if leadsSomewhere w.ledger.fs destination then
          throw ⟨.alreadyExists, .text "the extraction folder already exists"⟩
        else if destination = [] then
          throw ⟨.invalidInput, .text "destination has no parent folder"⟩
        else if getKey destination.dropLast w.ledger.fs ≠ some .dir then
          throw ⟨.notFound, .text "the destination parent folder is unavailable"⟩
        else pure (kind, data.length)
    | _ => throw ⟨.invalidInput,
        .text "the archive must be a local regular file, not a symbolic link"⟩

def cleanup : M Unit :=
  modifyLedger fun ledger =>
    { ledger with fs := cleanupCreatedPaths ledger.state.createdPaths ledger.fs }

def extractArchive (decoders : Decoders) (source destination : Path) : M ExtractionState := do
  let archive ← checkArchive source destination
  create destination .dir
  pushCreated destination
  let result ← attempt (extractKind decoders source destination archive.2 archive.1)
  match result with
  | .error error => do
    cleanup
    throw error
  | .ok _ => do
    let w ← get
    pure w.ledger.state

/-- Nothing is done yet. -/
def Ledger.start (fs : FileSystem) : Ledger := ⟨fs, ⟨[], 0, 0⟩, [], 0, []⟩

end FocalDesk.Archive
