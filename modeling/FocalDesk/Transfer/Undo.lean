import FocalDesk.Transfer.Run

/-! The undo of a transfer: one step for every record, the last record first. -/
namespace FocalDesk.Transfer
open Library Archive

/-- What the undo asks the desktop library and the system besides the files: whether there is
something under a path, whether a link leads somewhere, what a copy from or over a link makes, and a
move that may cross devices. -/
structure Desktop extends Surroundings where
  queryExists : FileSystem → Path → Bool
  leads : FileSystem → Path → Bool
  copyLink : FileSystem → Path → Path → Except IoError FileSystem
  moveFile : FileSystem → Path → Path → Except IoError FileSystem

inductive UndoStep where
  | moveBack (source destination : Path)
  | removeCreated (path : Path) (emptyOnly : Bool)
  | restoreReplacedCopy (destination backup : Path)
  | restoreReplacedMove (source destination backup : Path)
deriving DecidableEq

def transferUndoStep : TransferUndo → UndoStep
  | .created path => .removeCreated path false
  | .moved source destination => .moveBack destination source
  | .replacedCopy destination backup => .restoreReplacedCopy destination backup
  | .replacedMove source destination backup => .restoreReplacedMove source destination backup

/-- `remember_undo` -/
def rememberUndo (undo : List TransferUndo) : List UndoStep := (undo.map transferUndoStep).reverse

/-- The undo keeps the files only. -/
abbrev UndoM := EStateM IoError FileSystem

def notFound (message : String) : IoError := ⟨.notFound, .text message⟩

def alreadyExists (message : String) : IoError := ⟨.alreadyExists, .text message⟩

/-- A change of the files that may fail, and then changes nothing. -/
def change (f : FileSystem → Except IoError FileSystem) : UndoM Unit := fun fs =>
  match f fs with
  | .ok fs' => .ok () fs'
  | .error error => .error error fs

/-- `exists` follows links. -/
def existsPath (desk : Desktop) (fs : FileSystem) (path : Path) : Bool :=
  match getKey path fs with
  | some (.link _) => desk.leads fs path
  | some _ => true
  | none => false

/-- `path_lexists` does not. -/
def pathLexists (fs : FileSystem) (path : Path) : Bool := (getKey path fs).isSome

/-! Copies and removals. -/

/-- Everything under a path is removed. -/
def removeTree (path : Path) (fs : FileSystem) : FileSystem :=
  fs.filter fun entry => ¬ path <+: entry.1

/-- `remove_dir_all`, which takes a link for what it is, or `remove_file`. -/
def removePathRecursively (path : Path) (fs : FileSystem) : Except IoError FileSystem :=
  match getKey path fs with
  | none => .error (missing fs path)
  | some .dir => .ok (removeTree path fs)
  | some _ => .ok (removeKey path fs)

/-- `remove_path` of the transfer. -/
def removeDisplaced (path : Path) (fs : FileSystem) : Except IoError FileSystem :=
  match getKey path fs with
  | none => if (missing fs path).kind = .notFound then .ok fs else .error (missing fs path)
  | some .dir => .ok (removeTree path fs)
  | some _ => .ok (removeKey path fs)

def createDir (path : Path) (fs : FileSystem) : Except IoError FileSystem :=
  if getKey path fs ≠ none then .error ⟨.alreadyExists, .system⟩
  else if getKey path.dropLast fs ≠ some .dir then .error (missing fs path)
  else .ok (putKey path .dir fs)

/-- `copy` of a regular file: an existing file is written over. -/
def copyContents (desk : Desktop) (source : Path) (data : List UInt8) (path : Path)
    (fs : FileSystem) : Except IoError FileSystem :=
  match getKey path fs with
  | some (.file _) => .ok (putKey path (.file data) fs)
  | some (.link _) => desk.copyLink fs source path
  | some _ => .error ⟨.other, .system⟩
  | none =>
    if getKey path.dropLast fs ≠ some .dir then .error (missing fs path)
    else .ok (putKey path (.file data) fs)

/-- The length of the longest path. -/
def deepest (fs : FileSystem) : ℕ := (fs.map fun entry => entry.1.length).foldr max 0

def copyEach (copy : Path → UndoM Unit) : List Path → UndoM Unit
  | [] => pure ()
  | path :: paths => do
    copy path
    copyEach copy paths

/-- `copy_path_recursively`, with more levels than the longest path has. -/
def copyPathRecursively (desk : Desktop) : ℕ → Path → Path → UndoM Unit
  | 0, _, _ => throw ⟨.other, .system⟩
  | fuel + 1, source, destination => do
    let fs ← get
    match getKey source fs with
    | none => throw (missing fs source)
    | some .dir => do
      change (createDir destination)
      let fs ← get
      copyEach (fun path => copyPathRecursively desk fuel path (destination ++ [path.getLastD []]))
        (readDir fs source)
    | some (.file data) => change (copyContents desk source data destination)
    | some (.link _) => change fun fs => desk.copyLink fs source destination
    | some .special => throw ⟨.invalidInput, .system⟩

/-! Steps. -/

/-- `rename`, which does not cross devices. -/
def renameOn (sameDevice : Bool) (source destination : Path) : UndoM Unit :=
  change fun fs =>
    if sameDevice then renamePath fs source destination else .error ⟨.other, .system⟩

def moveBack (desk : Desktop) (source destination : Path) : UndoM Unit := do
  let fs ← get
  if existsPath desk fs source = false then throw (notFound "… no longer exists")
  else if desk.queryExists fs destination then throw (alreadyExists "… already exists")
  else do
    let renamed ← attempt (renameOn (desk.sameDevice destination) source destination)
    match renamed with
    | .ok _ => pure ()
    | .error _ => do
      copyPathRecursively desk (deepest fs + 1) source destination
      change (removePathRecursively source)

def removeCreated (desk : Desktop) (path : Path) (emptyOnly : Bool) : UndoM Unit := do
  let fs ← get
  if existsPath desk fs path = false then pure ()
  else if emptyOnly then
    change fun fs =>
      if getKey path fs = some .dir ∧ hasChildren fs path = false then .ok (removeKey path fs)
      else .error ⟨.other, .system⟩
  else change (removePathRecursively path)

def stagingName (processId stamp attempt : ℕ) : Name :=
  utf8Bytes (".focaldesk-transfer-undo-" ++ toString processId ++ "-" ++ toString stamp ++ "-" ++
    toString attempt)

/-- `transfer_undo_staging_path` -/
def transferUndoStagingPath (desk : Desktop) (stamp : ℕ) (path : Path) (fs : FileSystem) :
    Except IoError Path :=
  if path = [] then .error ⟨.invalidInput, .text "undo path has no parent"⟩
  else
    match ((List.range 1000).map fun attempt =>
        path.dropLast ++ [stagingName desk.processId stamp attempt]).find?
          fun candidate => !pathLexists fs candidate with
    | some candidate => .ok candidate
    | none => .error (alreadyExists "could not allocate an undo staging path")

/-- `rename_transaction_error` -/
def transactionError (error : IoError) : Except IoError Unit → IoError
  | .ok _ => error
  | .error _ => ⟨.other, .system⟩

def restoreReplacedCopy (desk : Desktop) (stamp : ℕ) (destination backup : Path) : UndoM Unit := do
  let fs ← get
  if pathLexists fs destination = false ∨ pathLexists fs backup = false then
    throw (notFound "the replacement or its undo backup is no longer available")
  else do
    let displaced ← liftExcept (transferUndoStagingPath desk stamp destination fs)
    renameOn true destination displaced
    let restored ← attempt (renameOn true backup destination)
    match restored with
    | .ok _ => change (removeDisplaced displaced)
    | .error error => do
      let rollback ← attempt (renameOn true displaced destination)
      throw (transactionError error rollback)

/-- The devices of the two paths are one or not. -/
def movePathExact (desk : Desktop) (sameDevice : Bool) (source destination : Path) :
    UndoM Unit := do
  let fs ← get
  if pathLexists fs destination then throw (alreadyExists "… already exists")
  else do
    let renamed ← attempt (renameOn sameDevice source destination)
    match renamed with
    | .ok _ => pure ()
    | .error _ => change fun fs => desk.moveFile fs source destination

def restoreReplacedMove (desk : Desktop) (source destination backup : Path) : UndoM Unit := do
  let fs ← get
  if pathLexists fs source then throw (alreadyExists "… already exists")
  else if pathLexists fs destination = false ∨ pathLexists fs backup = false then
    throw (notFound "the moved item or its replacement backup is no longer available")
  else do
    movePathExact desk (desk.sameDevice source) destination source
    let restored ← attempt (renameOn true backup destination)
    match restored with
    | .ok _ => pure ()
    | .error error => do
      let rollback ← attempt (movePathExact desk (desk.sameDevice source) source destination)
      throw (transactionError error rollback)

/-- `execute_undo_step`, and what the clock says. -/
def executeUndoStep (desk : Desktop) (stamp : ℕ) : UndoStep → UndoM Unit
  | .moveBack source destination => moveBack desk source destination
  | .removeCreated path emptyOnly => removeCreated desk path emptyOnly
  | .restoreReplacedCopy destination backup => restoreReplacedCopy desk stamp destination backup
  | .restoreReplacedMove source destination backup =>
    restoreReplacedMove desk source destination backup

/-- One step after the other, with the readings of the clock. -/
def executeUndoSteps (desk : Desktop) : List ℕ → List UndoStep → UndoM Unit
  | _, [] => pure ()
  | stamps, step :: steps => do
    executeUndoStep desk (stamps.headD 0) step
    executeUndoSteps desk stamps.tail steps

end FocalDesk.Transfer
