import FocalDesk.Library.Locked
import FocalDesk.Library.Recency

/-! What the launcher remembers, as text on file. -/
namespace FocalDesk.Launcher
open Library

structure LauncherState where
  favorites : List String
  fileFavorites : List String
  recents : List String
  recentFiles : List String

def maxRecents : ℕ := 12

/-- The kind of an entry, one list of the state for each. -/
inductive Kind where
  | favorite
  | fileFavorite
  | recent
  | recentFile
deriving DecidableEq

inductive Operation where
  | rememberRecentApp (id : String)
  | rememberRecentFile (uri : String)
  | toggleAppFavorite (id : String)
  | toggleFileFavorite (uri : String)
  | removeFileFavorite (uri : String)
  | clearRecentApps
  | clearRecentActivity

def Kind.name : Kind → String
  | .favorite => "favorite"
  | .fileFavorite => "file-favorite"
  | .recent => "recent"
  | .recentFile => "recent-file"

def Kind.ofName (name : String) : Option Kind :=
  if name = "favorite" then some .favorite
  else if name = "file-favorite" then some .fileFavorite
  else if name = "recent" then some .recent
  else if name = "recent-file" then some .recentFile
  else none

namespace LauncherState

def empty : LauncherState := ⟨[], [], [], []⟩

variable (state : LauncherState)

def entries : Kind → List String
  | .favorite => state.favorites
  | .fileFavorite => state.fileFavorites
  | .recent => state.recents
  | .recentFile => state.recentFiles

def setEntries (entries : List String) : Kind → LauncherState
  | .favorite => { state with favorites := entries }
  | .fileFavorite => { state with fileFavorites := entries }
  | .recent => { state with recents := entries }
  | .recentFile => { state with recentFiles := entries }

end LauncherState

/-! The text. -/

def stripReturn (line : List Char) : List Char :=
  if line.getLast? = some '\r' then line.dropLast else line

/-- The lines of a text, with what was read of the line before it. -/
def lines : List Char → List Char → List (List Char)
  | line, [] => if line = [] then [] else [line]
  | line, c :: cs => if c = '\n' then stripReturn line :: lines [] cs else lines (line ++ [c]) cs

/-- The part of a line up to the first tab, and the part after it. -/
def splitTab (line : List Char) : String × String :=
  (String.ofList (line.takeWhile (· ≠ '\t')), String.ofList ((line.dropWhile (· ≠ '\t')).drop 1))

def pushNew (entries : List String) (value : String) : List String :=
  if value ∈ entries then entries else entries ++ [value]

def addLine (state : LauncherState) (line : String × String) : LauncherState :=
  if line.2 = "" then state
  else
    match Kind.ofName line.1 with
    | none => state
    | some kind => state.setEntries (pushNew (state.entries kind) line.2) kind

def loadContents (contents : String) : LauncherState :=
  let state := ((lines [] contents.toList).map splitTab).foldl addLine .empty
  { state with
    recents := state.recents.take maxRecents
    recentFiles := state.recentFiles.take maxRecents }

/-- No file is an empty state. -/
def loadLauncherState (file : Option String) : LauncherState :=
  file.elim .empty loadContents

/-- An entry that a line of the file can have. -/
def storable (entry : String) : Bool :=
  entry ≠ "" && entry.toList.all fun c => c ≠ '\t' && c ≠ '\n' && c ≠ '\r'

def appendEntries (kind : String) (entries : List String) : List Char :=
  (entries.filter storable).flatMap fun entry => kind.toList ++ '\t' :: entry.toList ++ ['\n']

def saveLauncherState (state : LauncherState) : String :=
  String.ofList (appendEntries "favorite" state.favorites ++
    appendEntries "file-favorite" state.fileFavorites ++
      appendEntries "recent" state.recents ++ appendEntries "recent-file" state.recentFiles)

/-! The operations. -/

def rememberRecentEntry (entries : List String) (value : String) : List String :=
  if storable value then rememberFirst maxRecents entries value else entries

def toggleEntry (entries : List String) (value : String) : List String × Bool :=
  match entries.idxOf? value with
  | some index => (entries.eraseIdx index, false)
  | none => (entries ++ [value], true)

/-- What an operation does, and what it answers when it answers something. -/
def Operation.mutate (state : LauncherState) : Operation → LauncherState × Option Bool
  | .rememberRecentApp id => ({ state with recents := rememberRecentEntry state.recents id }, none)
  | .rememberRecentFile uri =>
    ({ state with recentFiles := rememberRecentEntry state.recentFiles uri }, none)
  | .toggleAppFavorite id =>
    let toggled := toggleEntry state.favorites id
    ({ state with favorites := toggled.1 }, some toggled.2)
  | .toggleFileFavorite uri =>
    let toggled := toggleEntry state.fileFavorites uri
    ({ state with fileFavorites := toggled.1 }, some toggled.2)
  | .removeFileFavorite uri =>
    let kept := state.fileFavorites.filter (· ≠ uri)
    ({ state with fileFavorites := kept }, some (kept.length ≠ state.fileFavorites.length))
  | .clearRecentApps => ({ state with recents := [] }, none)
  | .clearRecentActivity => ({ state with recents := [], recentFiles := [] }, none)

/-- Every operation reads the file, changes the state and writes it, under the lock. -/
def launcherSystem : Locked.System (Option String) LauncherState Operation (Option Bool) where
  load := loadLauncherState
  save state := some (saveLauncherState state)
  mutate op state := op.mutate state

end FocalDesk.Launcher
