import FocalDesk.Calendar.Store
import Mathlib.Logic.Function.Basic

/-! The registry of calendar accounts: one file that every change reads, writes anew under one
temporary name and renames, on several threads. -/
namespace FocalDesk.Calendar
open Library

structure CalendarAccount where
  id : String
  provider : CalendarProvider
  enabled : Bool
  clientId : String
  calendarId : String
  calendarIds : List String
  reminderMinutes : UInt32
  tenant : String
deriving DecidableEq

def selectedCalendarIds (account : CalendarAccount) : List String :=
  if account.calendarIds.isEmpty then [account.calendarId] else account.calendarIds

def validateAccount (account : CalendarAccount) : Except String Unit := do
  let calendarIds := selectedCalendarIds account
  let validId := !account.id.isEmpty && decide (byteLen account.id ≤ 64) &&
    allChars (fun c => isAsciiAlphanumeric c || c = '-' || c = '_') account.id
  bailIf (validId = false ∨ (trim account.clientId).isEmpty ∨ 256 < byteLen account.clientId ∨
    calendarIds.isEmpty ∨ 32 < calendarIds.length ∨ ¬calendarIds.Nodup ∨
    (calendarIds.any fun id => id.isEmpty || decide (512 < byteLen id)) ∨
    account.reminderMinutes ∉ [0, 5, 10, 15, 30, 60]) "calendar account configuration is invalid"
  bailIf (account.tenant.isEmpty ∨ 128 < byteLen account.tenant ∨
    allChars (fun c => isAsciiAlphanumeric c || c = '-' || c = '.') account.tenant = false)
    "calendar account tenant is invalid"

structure CalendarAccountsDocument where
  version : UInt16
  accounts : List CalendarAccount
deriving DecidableEq

/-- The JSON of an account file: the bytes of `to_vec_pretty` for version 1, and what `from_slice`
makes of bytes. It reads back what it writes. -/
structure AccountsCodec where
  encode : List CalendarAccount → List UInt8
  decode : List UInt8 → Except String CalendarAccountsDocument
  decode_encode : ∀ accounts, decode (encode accounts) = .ok ⟨1, accounts⟩

/-- The inode behind the name of the registry, the one behind the temporary name, and the bytes of
every inode. -/
structure Disk where
  registry : Option ℕ
  temporary : Option ℕ
  contents : ℕ → List UInt8
  inodes : ℕ

/-- A write of bytes at an offset of a file. -/
def overwrite (old : List UInt8) (offset : ℕ) (bytes : List UInt8) : List UInt8 :=
  (old ++ List.replicate (offset - old.length) 0).take offset ++ bytes ++
    old.drop (offset + bytes.length)

namespace Disk

variable (disk : Disk) (codec : AccountsCodec)

def loadCalendarAccounts : Except String (List CalendarAccount) :=
  match disk.registry with
  | none => .ok []
  | some inode => do
    bailIf (128 * 1024 < (disk.contents inode).length)
      "calendar account configuration must be a regular file no larger than 128 KiB"
    let document ← codec.decode (disk.contents inode)
    bailIf (document.version ≠ 1) "unsupported calendar account configuration version"
    .ok document.accounts

/-- The accounts of the file, if it parses. -/
def accounts : Option (List CalendarAccount) :=
  match disk.registry with
  | none => some []
  | some inode =>
    (codec.decode (disk.contents inode)).toOption.bind fun document =>
      if document.version = 1 then some document.accounts else none

/-- `File::create` of the temporary name: a file that is there is emptied. -/
def create : Disk × ℕ :=
  match disk.temporary with
  | some inode => ({ disk with contents := Function.update disk.contents inode [] }, inode)
  | none =>
    ({ disk with
      temporary := some disk.inodes
      contents := Function.update disk.contents disk.inodes []
      inodes := disk.inodes + 1 }, disk.inodes)

def write (inode offset : ℕ) (bytes : List UInt8) : Disk :=
  { disk with
    contents := Function.update disk.contents inode (overwrite (disk.contents inode) offset bytes) }

/-- The temporary name becomes the registry's. -/
def rename : Option Disk :=
  disk.temporary.map fun inode => { disk with registry := some inode, temporary := none }

end Disk

inductive Request where
  | connect (account : CalendarAccount)
  | disconnect (accountId : String)
  | updatePreferences (accountId : String) (calendarIds : List String) (reminderMinutes : UInt32)
deriving DecidableEq

def Request.accountId : Request → String
  | .connect account => account.id
  | .disconnect accountId => accountId
  | .updatePreferences accountId _ _ => accountId

/-- The account that a call saves, made from the accounts of its first load. -/
def Request.prepare (accounts : List CalendarAccount) : Request → Except String CalendarAccount
  | .connect account => .ok account
  | .disconnect accountId => do
    let account ← okOr (accounts.find? fun item => item.id = accountId) "unknown calendar account"
    .ok { account with enabled := false }
  | .updatePreferences accountId calendarIds reminderMinutes => do
    let account ← okOr (accounts.find? fun item => item.id = accountId) "unknown calendar account"
    let account := { account with calendarIds, reminderMinutes }
    validateAccount account
    .ok account

/-- The accounts with one saved, which `save_calendar_account` writes. -/
def savedAccounts (accounts : List CalendarAccount) (account : CalendarAccount) :
    List CalendarAccount :=
  (accounts.filter fun item => item.id ≠ account.id) ++ [account]

/-- A thread that calls: the one of the control socket, or one that completes an OAuth flow. -/
inductive Caller where
  | control
  | oauth (flow : ℕ)
deriving DecidableEq

def Caller.makes : Caller → Request → Bool
  | .control, .connect _ => false
  | .control, _ => true
  | .oauth _, .connect _ => true
  | .oauth _, _ => false

/-- An open handle to the temporary file, with the accounts that were loaded, the one to save and
how many bytes are written. -/
structure Writer where
  accounts : List CalendarAccount
  account : CalendarAccount
  inode : ℕ
  written : ℕ

def Writer.bytes (writer : Writer) (codec : AccountsCodec) : List UInt8 :=
  codec.encode (savedAccounts writer.accounts writer.account)

inductive Phase where
  | requested
  | chosen (account : CalendarAccount)
  | loaded (accounts : List CalendarAccount) (account : CalendarAccount)
  | writing (writer : Writer)
  | returned (result : Except String Unit)

structure Call where
  request : Request
  phase : Phase

/-- The call returned `Ok`. -/
def Call.ok (call : Call) : Bool :=
  match call.phase with
  | .returned (.ok ()) => true
  | _ => false

/-- The file, the last call of every thread, and the requests whose rename is done, in order. -/
structure AccountRegistry where
  disk : Disk
  calls : List (Caller × Call)
  saved : List Request

inductive RegistryStep where
  | begin (caller : Caller) (request : Request)
  | load (caller : Caller)
  | reload (caller : Caller)
  | create (caller : Caller)
  | write (caller : Caller) (count : ℕ)
  | rename (caller : Caller)

def Call.finished : Option Call → Bool
  | none => true
  | some ⟨_, .returned _⟩ => true
  | some _ => false

/-- A connected account is saved as it is. The other calls look for theirs first. -/
def Request.firstPhase : Request → Phase
  | .connect account => .chosen account
  | _ => .requested

namespace AccountRegistry

variable (codec : AccountsCodec) (s : AccountRegistry)

def put (caller : Caller) (request : Request) (phase : Phase) : AccountRegistry :=
  { s with calls := putKey caller ⟨request, phase⟩ s.calls }

def load (caller : Caller) (request : Request) : AccountRegistry :=
  match s.disk.loadCalendarAccounts codec >>= fun accounts => request.prepare accounts with
  | .ok account => s.put caller request (.chosen account)
  | .error error => s.put caller request (.returned (.error error))

def reload (caller : Caller) (request : Request) (account : CalendarAccount) : AccountRegistry :=
  match s.disk.loadCalendarAccounts codec with
  | .ok accounts => s.put caller request (.loaded accounts account)
  | .error error => s.put caller request (.returned (.error error))

def create (caller : Caller) (request : Request) (accounts : List CalendarAccount)
    (account : CalendarAccount) : AccountRegistry :=
  { s with disk := s.disk.create.1 }.put caller request
    (.writing ⟨accounts, account, s.disk.create.2, 0⟩)

/-- The next bytes of the document, at the place where the handle is. -/
def write (caller : Caller) (request : Request) (writer : Writer) (count : ℕ) : AccountRegistry :=
  let bytes := ((writer.bytes codec).drop writer.written).take count
  { s with disk := s.disk.write writer.inode writer.written bytes }.put caller request
    (.writing { writer with written := writer.written + bytes.length })

def rename (caller : Caller) (request : Request) : AccountRegistry :=
  match s.disk.rename with
  | none => s.put caller request (.returned (.error "No such file or directory (os error 2)"))
  | some disk =>
    { s with disk, saved := s.saved ++ [request] }.put caller request (.returned (.ok ()))

def step : RegistryStep → Option AccountRegistry
  | .begin caller request =>
    if Call.finished (getKey caller s.calls) && caller.makes request then
      some (s.put caller request request.firstPhase)
    else none
  | .load caller =>
    match getKey caller s.calls with
    | some ⟨request, .requested⟩ => some (s.load codec caller request)
    | _ => none
  | .reload caller =>
    match getKey caller s.calls with
    | some ⟨request, .chosen account⟩ => some (s.reload codec caller request account)
    | _ => none
  | .create caller =>
    match getKey caller s.calls with
    | some ⟨request, .loaded accounts account⟩ => some (s.create caller request accounts account)
    | _ => none
  | .write caller count =>
    match getKey caller s.calls with
    | some ⟨request, .writing writer⟩ => some (s.write codec caller request writer count)
    | _ => none
  | .rename caller =>
    match getKey caller s.calls with
    | some ⟨request, .writing writer⟩ =>
      if writer.written < (writer.bytes codec).length then none else some (s.rename caller request)
    | _ => none

/-- The service starts with a registry or without one, and a temporary file may be left over. -/
def start (file leftover : Option (List UInt8)) : AccountRegistry where
  disk := {
    registry := file.map fun _ => 0
    temporary := leftover.map fun _ => 1
    contents := fun inode => if inode = 0 then file.getD [] else leftover.getD []
    inodes := 2 }
  calls := []
  saved := []

end AccountRegistry

def workAccount : CalendarAccount :=
  { id := "work"
    provider := .google
    enabled := true
    clientId := "desk"
    calendarId := "primary"
    calendarIds := ["primary"]
    reminderMinutes := 10
    tenant := "common" }

def homeAccount : CalendarAccount := { workAccount with id := "home", provider := .microsoft }

end FocalDesk.Calendar
