import FocalDesk.Secret.Bus
import FocalDesk.Secret.Invariant

/-! The secret daemon: both surfaces over one store, and the item objects on the bus. -/
namespace FocalDesk
open Library

/-- A call in flight, by what it does next. -/
inductive DaemonCall where
  | bus (call : BusCall)
  /-- `get_secrets` takes the store lock for each of its paths. -/
  | collecting (paths : List String) (found : List (String × SecretValue))
  | native (identity : String) (request : BrokerRequest)
  /-- `sync_items` before its snapshot of the public ids. -/
  | syncing
  /-- `sync_items` before it has the lock of the registrations; snapshots are numbered. -/
  | applying (taken : ℕ) (ids : Finset ℕ)

/-- A native request that was answered. -/
structure NativeRecord where
  identity : String
  request : BrokerRequest
  response : BrokerResponse

structure SecretDaemon where
  acl : AclConfig
  store : SecretStore
  registered : Finset ℕ
  objects : Finset ℕ
  calls : BTreeMap ℕ DaemonCall
  /-- How many snapshots were taken. -/
  snapshots : ℕ
  /-- The ids that `create_item` and the importer were handed out. -/
  created : List ℕ
  records : List NativeRecord

inductive DaemonEvent where
  | reloadAcl (acl : AclConfig)
  | busCall (n : ℕ) (call : BusCall)
  | getSecrets (n : ℕ) (paths : List String)
  | request (n : ℕ) (identity : String) (request : BrokerRequest)
  | serve (n : ℕ) (session : Except SsError Unit) (now : ℕ) (around : PersistSurroundings)
  | snapshot (n : ℕ)
  /-- A registration may fail after some objects were added. -/
  | apply (n : ℕ) (failed : Option (Finset ℕ))
  /-- The process ends, the importer may run, and the next process opens the store. -/
  | restart (imported : Option (List ImportedItem)) (now : ℕ) (around : PersistSurroundings)

namespace BusCall

/-- Item methods are dispatched to an object that is on the server. -/
def dispatchable (objects : Finset ℕ) : BusCall → Bool
  | .item id _ => id ∈ objects
  | _ => true

/-- `create_item` and the `delete` of an item go on with `sync_items`. -/
def syncs : BusCall → Bool
  | .createItem .. => true
  | .item _ .delete => true
  | _ => false

end BusCall

def BrokerRequest.syncs : BrokerRequest → Bool
  | .set .. => true
  | .delete _ => true
  | _ => false

/-- The id that `create_item` hands out. -/
def BusReply.createdId : BusReply → List ℕ
  | .created id _ => [id]
  | _ => []

def createdIds : Except SsError BusReply → List ℕ
  | .ok reply => reply.createdId
  | .error _ => []

/-- The store after the importer ran, and the ids it was handed out. -/
def importInto (codec : SecretCodec) (store : SecretStore) (items : List ImportedItem) (now : ℕ)
    (around : PersistSurroundings) : SecretStore × List ℕ :=
  match store.transaction codec (importMutation now items) around with
  | (after, .ok ()) => (after, ((importMutation now items).run store.db).handedOut)
  | (after, .error _) => (after, [])

namespace SecretDaemon

/-- A process that has opened a store and goes on with `sync_items`. -/
def opened (acl : AclConfig) (store : SecretStore) (created : List ℕ) (records : List NativeRecord)
    : SecretDaemon where
  acl := acl
  store := store
  registered := ∅
  objects := ∅
  calls := (∅ : BTreeMap ℕ DaemonCall).insert 0 .syncing
  snapshots := 0
  created := created
  records := records

/-- The first process, before there is a file. -/
def started (acl : AclConfig) : SecretDaemon := opened acl newStore [] []

/-- The calls after one of them went on, or ended. -/
def proceed (daemon : SecretDaemon) (n : ℕ) : Option DaemonCall → BTreeMap ℕ DaemonCall
  | some call => daemon.calls.insert n call
  | none => daemon.calls.erase n

def begin (daemon : SecretDaemon) (n : ℕ) (call : DaemonCall) : Option SecretDaemon :=
  if n ∈ daemon.calls then none else some { daemon with calls := daemon.calls.insert n call }

def syncingIf (goesOn : Bool) : Option DaemonCall := if goesOn then some .syncing else none

def serveCall (codec : SecretCodec) (base64 : Base64) (daemon : SecretDaemon) (n : ℕ)
    (session : Except SsError Unit) (now : ℕ) (around : PersistSurroundings) :
    DaemonCall → Option SecretDaemon
  | .bus call =>
    let served := serve codec daemon.store session now around call
    some
      { daemon with
        store := served.1
        calls := daemon.proceed n (syncingIf (call.syncs && served.2.isOk))
        created := daemon.created ++ createdIds served.2 }
  | .collecting [] _ => some { daemon with calls := daemon.proceed n none }
  | .collecting (path :: paths) found =>
    match daemon.store.db.secretAt path with
    | none => some { daemon with calls := daemon.proceed n (some (.collecting paths found)) }
    | some value =>
      match session with
      | .error _ => some { daemon with calls := daemon.proceed n none }
      | .ok () =>
        some
          { daemon with
            calls := daemon.proceed n (some (.collecting paths (found ++ [(path, value)]))) }
  | .native identity request =>
    let served := dispatch codec base64 daemon.acl daemon.store identity request now around
    some
      { daemon with
        store := served.1
        calls := daemon.proceed n (syncingIf (request.syncs && served.2.isOk))
        records := daemon.records ++ [{ identity, request, response := served.2 }] }
  | .syncing => none
  | .applying .. => none

/-- Adds the objects that are missing and removes those that are too many. -/
def applySnapshot (daemon : SecretDaemon) (n : ℕ) (ids : Finset ℕ) : Option (Finset ℕ) → SecretDaemon
  | none =>
    { daemon with
      registered := ids
      objects := (daemon.objects ∪ (ids \ daemon.registered)) \ (daemon.registered \ ids)
      calls := daemon.proceed n none }
  | some added =>
    { daemon with
      objects := daemon.objects ∪ (added ∩ (ids \ daemon.registered))
      calls := daemon.proceed n none }

def restart (codec : SecretCodec) (daemon : SecretDaemon) (imported : Option (List ImportedItem))
    (now : ℕ) (around : PersistSurroundings) : Option SecretDaemon :=
  match SecretStore.openStore codec daemon.store.file with
  | .error _ => none
  | .ok store =>
    match imported with
    | none => some (opened daemon.acl store daemon.created daemon.records)
    | some items =>
      let after := importInto codec store items now around
      match SecretStore.openStore codec after.1.file with
      | .error _ => none
      | .ok store => some (opened daemon.acl store (daemon.created ++ after.2) daemon.records)

def step (codec : SecretCodec) (base64 : Base64) (daemon : SecretDaemon) :
    DaemonEvent → Option SecretDaemon
  | .reloadAcl acl => some { daemon with acl }
  | .busCall n call =>
    if call.dispatchable daemon.objects then daemon.begin n (.bus call) else none
  | .getSecrets n paths => daemon.begin n (.collecting paths [])
  | .request n identity request => daemon.begin n (.native identity request)
  | .serve n session now around =>
    daemon.calls[n]?.bind (daemon.serveCall codec base64 n session now around)
  | .snapshot n =>
    match daemon.calls[n]? with
    | some .syncing =>
      some
        { daemon with
          calls := daemon.proceed n (some (.applying daemon.snapshots daemon.store.db.publicIds))
          snapshots := daemon.snapshots + 1 }
    | _ => none
  | .apply n failed =>
    match daemon.calls[n]? with
    | some (.applying _ ids) => some (daemon.applySnapshot n ids failed)
    | _ => none
  | .restart imported now around => daemon.restart codec imported now around

end SecretDaemon

end FocalDesk
