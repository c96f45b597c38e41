import FocalDesk.Library.Program
import FocalDesk.Transfer.Places
import Mathlib.Data.List.Dedup

/-! The transfer of files and folders, call by call to the system. -/
namespace FocalDesk.Transfer
open Library Archive

def copyBufferBytes : ℕ := 1024 * 1024

def maxTransferEntries : ℕ := 100000

def maxTransferDepth : ℕ := 128

inductive TransferOperation where
  | copy
  | move
deriving DecidableEq

inductive ConflictPolicy where
  | replace
  | skip
  | keepBoth
deriving DecidableEq

structure TransferRequest where
  sources : List Path
  targetDir : Path
  operation : TransferOperation
  conflictPolicy : ConflictPolicy

inductive TransferUndo where
  | created (path : Path)
  | moved (source destination : Path)
  | replacedCopy (destination backup : Path)
  | replacedMove (source destination backup : Path)
deriving DecidableEq

/-- The destination and the backup that an undo record names. -/
def TransferUndo.places : TransferUndo → List Path
  | .created path => [path]
  | .moved _ destination => [destination]
  | .replacedCopy destination backup => [destination, backup]
  | .replacedMove _ destination backup => [destination, backup]

inductive ReportError where
  /-- "… has no transferable file name" -/
  | noFileName (path : Path)
  /-- "…: …" -/
  | failed (path : Path) (error : IoError)
  /-- "copied … but could not remove the source: …" -/
  | notRemoved (path : Path) (error : IoError)

structure TransferReport where
  completed : ℕ
  skipped : ℕ
  bytes : ℕ
  cancelled : Bool
  errors : List ReportError
  undo : List TransferUndo

structure ScannedRoot where
  path : Path
  bytes : ℕ

/-- What the file system says about files besides their data: the number of a file with more than
one link, and which sources are on the device of the target. -/
structure Surroundings where
  processId : ℕ
  inode : Path → List UInt8 → Option ℕ
  sameDevice : Path → Bool

/-- The files, and the copies of files with more than one link. -/
structure Disk where
  fs : FileSystem
  hardLinks : List ((ℕ × List UInt8) × Path)

/-- The state of a transfer: which of the next system calls fail, the checks until the user
cancels, how much each read returns at most, and the clock. `slipped` is for the record: a failed
`lstat` took a path that is there for free, something could not be put back where it was, or the
report was dropped for want of a private name. -/
structure World where
  disk : Disk
  report : TransferReport
  entryCount : ℕ
  faults : List Bool
  checksLeft : Option ℕ
  sizes : List ℕ
  stamps : List ℕ
  slipped : Bool

abbrev M := EStateM IoError World

def slip : M Unit := modify fun w => { w with slipped := true }

def modifyDisk (f : Disk → Disk) : M Unit := modify fun w => { w with disk := f w.disk }

def modifyReport (f : TransferReport → TransferReport) : M Unit :=
  modify fun w => { w with report := f w.report }

/-- A call fails if it is its turn to. -/
def systemCall : M Unit := do
  let w ← get
  set { w with faults := w.faults.tail }
  if w.faults.head? = some true then throw ⟨.other, .system⟩ else pure ()

def isCancelled : M Bool := do
  let w ← get
  match w.checksLeft with
  | none => pure false
  | some 0 => pure true
  | some (n + 1) => do
    set { w with checksLeft := some n }
    pure false

def checkCancelled : M Unit := do
  let cancelled ← isCancelled
  if cancelled then throw ⟨.interrupted, .text "file transfer cancelled"⟩ else pure ()

def symlinkMetadata (path : Path) : M Node := do
  systemCall
  let w ← get
  liftExcept (lookupNode w.disk.fs path)

/-- `path_exists`: a failed call says no as well. -/
def pathExists (path : Path) : M Bool := do
  let metadata ← attempt systemCall
  let w ← get
  match metadata with
  | .ok _ => pure (getKey path w.disk.fs).isSome
  | .error _ =>
    if (getKey path w.disk.fs).isSome then do
      slip
      pure false
    else pure false

def rename (source destination : Path) : M Unit := do
  systemCall
  let w ← get
  let fs ← liftExcept (renamePath w.disk.fs source destination)
  modifyDisk fun disk => { disk with fs }

/-- A rename of something back to where it was. -/
def putBack (source destination : Path) : M (Except IoError Unit) := do
  let result ← attempt (rename source destination)
  match result with
  | .ok _ => pure result
  | .error _ => do
    slip
    pure result

/-- The paths in a folder, by their names. -/
def readDir (fs : FileSystem) (path : Path) : List Path :=
  (((fs.map Prod.fst).dedup.filter fun q => q ≠ [] ∧ q.dropLast = path)).mergeSort
    fun p q => decide (p.getLastD [] ≤ q.getLastD [])

def scanAll (scan : Path → M ℕ) : List Path → ℕ → M ℕ
  | [], total => pure total
  | path :: paths, total => do
    let bytes ← scan path
    if u64Max < total + bytes then throw ⟨.invalidData, .text "transfer size overflow"⟩
    else scanAll scan paths (total + bytes)

/-- One entry, with how many more levels of folders there may be. -/
def scanEntry : ℕ → Path → M ℕ
  | 0, _ => do
    checkCancelled
    throw ⟨.invalidData, .text "transfer exceeds 128 folder levels"⟩
  | depth + 1, path => do
    checkCancelled
    modify fun w => { w with entryCount := w.entryCount + 1 }
    let w ← get
    if maxTransferEntries < w.entryCount then
      throw ⟨.invalidData, .text "transfer exceeds 100000 filesystem entries"⟩
    else do
      let node ← symlinkMetadata path
      match node with
      | .link _ => pure 0
      | .file data => pure data.length
      | .special => throw ⟨.invalidInput, .text "special files cannot be transferred"⟩
      | .dir => do
        systemCall
        let w ← get
        scanAll (scanEntry depth) (readDir w.disk.fs path) 0

/-! Copies. -/

/-- `create_dir`, `symlink`, and `open` with `create_new`. -/
def create (path : Path) (node : Node) : M Unit := do
  systemCall
  let w ← get
  if getKey path w.disk.fs ≠ none then throw ⟨.alreadyExists, .system⟩
  else if getKey path.dropLast w.disk.fs ≠ some .dir then throw (missing w.disk.fs path)
  else modifyDisk fun disk => { disk with fs := putKey path node disk.fs }

/-- `write_all` to the file that was created under a path. -/
def append (path : Path) (chunk : List UInt8) : M Unit := do
  systemCall
  let w ← get
  match getKey path w.disk.fs with
  | some (.file old) =>
    modifyDisk fun disk => { disk with fs := putKey path (.file (old ++ chunk)) disk.fs }
  | _ => throw ⟨.other, .system⟩

/-- How much the next read returns. -/
def readSize : M ℕ := do
  let w ← get
  set { w with sizes := w.sizes.tail }
  pure (min copyBufferBytes (max 1 (w.sizes.headD copyBufferBytes)))

/-- Each round but the last reads a byte, so there are no more rounds than bytes and one. -/
def copyRounds (destination : Path) : ℕ → List UInt8 → M Unit
  | 0, _ => pure ()
  | fuel + 1, input => do
    checkCancelled
    systemCall
    let size ← readSize
    if input = [] then pure ()
    else do
      append destination (input.take size)
      copyRounds destination fuel (input.drop size)

/-- The times and the permissions. -/
def applyMetadata : M Unit := do
  systemCall
  systemCall

def copyFile (around : Surroundings) (source destination : Path) (data : List UInt8) : M Unit := do
  systemCall
  create destination (.file [])
  copyRounds destination (data.length + 1) data
  systemCall
  applyMetadata
  match around.inode source data with
  | none => pure ()
  | some number => modifyDisk fun disk =>
      { disk with hardLinks := ((number, data), destination) :: disk.hardLinks }

/-- `hard_link`, or nothing if there is no copy yet. -/
def hardLinkOf (around : Surroundings) (source : Path) (data : List UInt8) : M (Option Path) := do
  let w ← get
  pure ((around.inode source data).bind fun number => getKey (number, data) w.disk.hardLinks)

def hardLink (existing destination : Path) : M Unit := do
  let w ← get
  match getKey existing w.disk.fs with
  | some (.file data) => create destination (.file data)
  | _ => do
    systemCall
    throw (missing w.disk.fs existing)

def copyAll (copy : Path → M Unit) : List Path → M Unit
  | [] => pure ()
  | path :: paths => do
    copy path
    copyAll copy paths

/-- An entry, with more levels of folders than there are paths. -/
def copyEntry (around : Surroundings) : ℕ → Path → Path → M Unit
  | 0, _, _ => throw ⟨.other, .system⟩
  | fuel + 1, source, destination => do
    checkCancelled
    let node ← symlinkMetadata source
    match node with
    | .link leads => do
      systemCall
      create destination (.link leads)
    | .file data => do
      let existing ← hardLinkOf around source data
      match existing with
      | some existing => hardLink existing destination
      | none => copyFile around source destination data
    | .dir => do
      create destination .dir
      systemCall
      let w ← get
      copyAll (fun path => copyEntry around fuel path (destination ++ [path.getLastD []]))
        (readDir w.disk.fs source)
      systemCall
      applyMetadata
    | .special => throw ⟨.invalidInput, .text "special files cannot be transferred"⟩

/-! Removals. -/

/-- `remove_file`, or `remove_dir` of an empty folder. -/
def removeOne (path : Path) : M Unit := do
  systemCall
  let w ← get
  if getKey path w.disk.fs = none then throw (missing w.disk.fs path)
  else if hasChildren w.disk.fs path then throw ⟨.other, .system⟩
  else modifyDisk fun disk => { disk with fs := removeKey path disk.fs }

def removeAll : List Path → M Unit
  | [] => pure ()
  | path :: paths => do
    removeOne path
    removeAll paths

/-- What is under a path, the deepest first. -/
def subtree (fs : FileSystem) (path : Path) : List Path :=
  ((fs.map Prod.fst).dedup.filter fun q => path <+: q).mergeSort
    fun p q => decide (q.length ≤ p.length)

/-- `remove_path` -/
def removePath (path : Path) : M Unit := do
  let metadata ← attempt (symlinkMetadata path)
  match metadata with
  | .error error => if error.kind = .notFound then pure () else throw error
  | .ok .dir => do
    let w ← get
    removeAll (subtree w.disk.fs path)
  | .ok _ => removeOne path

/-! Names. -/

def firstFree : List Path → M (Option Path)
  | [] => pure none
  | candidate :: candidates => do
    let taken ← pathExists candidate
    if taken then firstFree candidates else pure (some candidate)

def utf8Bytes (text : String) : List UInt8 := text.toUTF8.toList

def privateName (processId stamp attempt : ℕ) (suffix : String) : Name :=
  utf8Bytes (".focaldesk-transfer-" ++ toString processId ++ "-" ++ toString stamp ++ "-" ++
    toString attempt ++ "-" ++ suffix)

def noParent : IoError := ⟨.invalidInput, .text "destination has no parent"⟩

/-- What the clock says. -/
def now : M ℕ := do
  let w ← get
  set { w with stamps := w.stamps.tail }
  pure (w.stamps.headD 0)

/-- A name beside a path that nothing has. -/
def uniqueSibling (around : Surroundings) (path : Path) (suffix : String) : M Path :=
  if path = [] then throw noParent
  else do
    let stamp ← now
    let free ← firstFree ((List.range 1000).map fun attempt =>
      path.dropLast ++ [privateName around.processId stamp attempt suffix])
    match free with
    | some candidate => pure candidate
    | none => throw ⟨.alreadyExists, .text "could not allocate a private transfer path"⟩

/-- The stem and the extension of a file name. -/
def splitExtension (name : Name) : Name × Option Name :=
  match (name.reverse.idxOf? 46 : Option ℕ) with
  | none => (name, none)
  | some after =>
    if after + 1 = name.length then (name, none)
    else (name.take (name.length - after - 1), some (name.drop (name.length - after)))

def validUtf8 (name : Name) : Bool := (ByteArray.mk name.toArray).validateUTF8

def copyName (name : Name) (index : ℕ) : Name :=
  let parts := splitExtension name
  let stem := if validUtf8 parts.1 then parts.1 else utf8Bytes "Item"
  let numbered := stem ++ utf8Bytes (" copy " ++ toString index)
  match parts.2 with
  | none => numbered
  | some extension =>
    if validUtf8 extension ∧ extension ≠ [] then numbered ++ 46 :: extension else numbered

def availableDestination (path : Path) : M Path :=
  if path = [] then throw noParent
  else do
    let free ← firstFree ((List.range 10000).map fun index =>
      path.dropLast ++ [copyName (path.getLastD []) (index + 1)])
    match free with
    | some candidate => pure candidate
    | none => throw ⟨.alreadyExists, .text "could not find an available destination name"⟩

/-! The commit. -/

/-- The destination and the backup, or nothing if the item is skipped. -/
abbrev CommitResult := Option (Path × Option Path)

def replaceDestination (stage destination backup : Path) : M CommitResult := do
  rename destination backup
  let committed ← attempt (rename stage destination)
  match committed with
  | .ok _ => pure (some (destination, some backup))
  | .error error => do
    let rollback ← putBack backup destination
    match rollback with
    | .ok _ => throw error
    | .error _ => throw ⟨.other, .system⟩

def commitStage (around : Surroundings) (stage requested : Path) (policy : ConflictPolicy) :
    M CommitResult := do
  let taken ← pathExists requested
  if taken then
    match policy with
    | .skip => pure none
    | .keepBoth => do
      let destination ← availableDestination requested
      rename stage destination
      pure (some (destination, none))
    | .replace => do
      let backup ← uniqueSibling around requested "replaced"
      replaceDestination stage requested backup
  else do
    rename stage requested
    pure (some (requested, none))

/-! One source after the other. -/

def pushError (error : ReportError) : M Unit :=
  modifyReport fun report => { report with errors := report.errors ++ [error] }

def skipRoot : M Unit :=
  modifyReport fun report => { report with skipped := report.skipped + 1 }

def markCancelled : M Unit := modifyReport fun report => { report with cancelled := true }

/-- An item that is at its destination. -/
def complete (undo : TransferUndo) (bytes : ℕ) : M Unit :=
  modifyReport fun report => { report with
    undo := report.undo ++ [undo]
    completed := report.completed + 1
    bytes := saturatingAdd report.bytes bytes }

/-- The stage goes back to the source, or a copy is removed. -/
def unstage (sameDeviceMove : Bool) (stage source : Path) : M Unit :=
  if sameDeviceMove then do
    let _ ← putBack stage source
    pure ()
  else do
    let _ ← attempt (removePath stage)
    pure ()

def copyUndo (destination : Path) : Option Path → TransferUndo
  | some backup => .replacedCopy destination backup
  | none => .created destination

def finishUndo (operation : TransferOperation) (source destination : Path) :
    Option Path → TransferUndo
  | some backup => match operation with
    | .copy => .replacedCopy destination backup
    | .move => .replacedMove source destination backup
  | none => match operation with
    | .copy => .created destination
    | .move => .moved source destination

/-- The source is removed after it was copied, and the item is recorded. -/
def finishRoot (operation : TransferOperation) (sameDeviceMove : Bool) (root : ScannedRoot)
    (destination : Path) (backup : Option Path) : M Unit :=
  if operation = .move ∧ sameDeviceMove = false then do
    let removed ← attempt (removePath root.path)
    match removed with
    | .ok _ => complete (finishUndo operation root.path destination backup) root.bytes
    | .error error => do
      pushError (.notRemoved root.path error)
      complete (copyUndo destination backup) root.bytes
  else complete (finishUndo operation root.path destination backup) root.bytes

/-- From the stage to the destination. The result says whether to go on with the next source. -/
def commitRoot (around : Surroundings) (request : TransferRequest) (sameDeviceMove : Bool)
    (stage destination : Path) (root : ScannedRoot) : M Bool := do
  let cancelled ← isCancelled
  if cancelled then do
    unstage sameDeviceMove stage root.path
    markCancelled
    pure false
  else do
    let commit ← attempt (commitStage around stage destination request.conflictPolicy)
    match commit with
    | .ok (some (final, backup)) => do
      finishRoot request.operation sameDeviceMove root final backup
      pure true
    | .ok none => do
      unstage sameDeviceMove stage root.path
      skipRoot
      pure true
    | .error error => do
      unstage sameDeviceMove stage root.path
      pushError (.failed root.path error)
      pure true

/-- A move on one device, or a copy. -/
def stageRoot (around : Surroundings) (sameDeviceMove : Bool) (source stage : Path) : M Unit :=
  if sameDeviceMove then rename source stage
  else do
    let w ← get
    copyEntry around (w.disk.fs.length + 1) source stage

def transferStaged (around : Surroundings) (request : TransferRequest) (stage destination : Path)
    (root : ScannedRoot) : M Bool := do
  let metadata ← attempt (symlinkMetadata root.path)
  match metadata with
  | .error error => do
    pushError (.failed root.path error)
    pure true
  | .ok _ => do
    let sameDeviceMove := request.operation = .move && around.sameDevice root.path
    let staged ← attempt (stageRoot around sameDeviceMove root.path stage)
    match staged with
    | .error error => do
      let _ ← attempt (removePath stage)
      if error.kind = .interrupted then do
        markCancelled
        pure false
      else do
        pushError (.failed root.path error)
        pure true
    | .ok _ => commitRoot around request sameDeviceMove stage destination root

/-- The private name of the stage. The report is dropped if there is none. -/
def stageName (around : Surroundings) (destination : Path) : M Path := do
  let stage ← attempt (uniqueSibling around destination "partial")
  match stage with
  | .ok stage => pure stage
  | .error error => do
    slip
    throw error

def transferNamed (around : Surroundings) (request : TransferRequest) (destination : Path)
    (root : ScannedRoot) : M Bool := do
  let stage ← stageName around destination
  transferStaged around request stage destination root

def transferRoot (around : Surroundings) (request : TransferRequest) (root : ScannedRoot) :
    M Bool := do
  modifyDisk fun disk => { disk with hardLinks := [] }
  let cancelled ← isCancelled
  if cancelled then do
    markCancelled
    pure false
  else if root.path = [] then do
    pushError (.noFileName root.path)
    pure true
  else
    let destination := request.targetDir ++ [root.path.getLastD []]
    if destination = root.path then do
      skipRoot
      pure true
    else if request.conflictPolicy = .skip then do
      let taken ← pathExists destination
      if taken then do
        skipRoot
        pure true
      else transferNamed around request destination root
    else transferNamed around request destination root

def transferRoots (around : Surroundings) (request : TransferRequest) : List ScannedRoot → M Unit
  | [] => pure ()
  | root :: roots => do
    let more ← transferRoot around request root
    if more then transferRoots around request roots else pure ()

/-! The transfer. -/

def scanRoot (targetDir source : Path) : M ℕ := do
  checkCancelled
  let node ← symlinkMetadata source
  if node = .dir then do
    systemCall
    if source <+: targetDir then throw ⟨.invalidInput, .text "cannot copy a folder into itself"⟩
    else scanEntry (maxTransferDepth + 1) source
  else scanEntry (maxTransferDepth + 1) source

def scanRoots (targetDir : Path) : List Path → ℕ → M (List ScannedRoot)
  | [], _ => pure []
  | source :: sources, totalBytes => do
    let bytes ← scanRoot targetDir source
    if u64Max < totalBytes + bytes then throw ⟨.invalidData, .text "transfer size overflow"⟩
    else do
      let roots ← scanRoots targetDir sources (totalBytes + bytes)
      pure (⟨source, bytes⟩ :: roots)

def checkTarget (request : TransferRequest) : M Unit :=
  if request.sources = [] then throw ⟨.invalidInput, .text "no files were selected"⟩
  else do
    let metadata ← attempt (symlinkMetadata request.targetDir)
    match metadata with
    | .ok .dir => do
      systemCall
      systemCall
    | _ => throw ⟨.notFound, .text "the transfer destination is unavailable"⟩

/-- `run_transfer_inner` -/
def runTransfer (around : Surroundings) (request : TransferRequest) : M TransferReport := do
  checkTarget request
  let roots ← scanRoots request.targetDir request.sources 0
  transferRoots around request roots
  let w ← get
  pure w.report

end FocalDesk.Transfer
