import FocalDesk.Secret.Acl
import FocalDesk.Secret.Store
import FocalDesk.Integer
import Mathlib.Data.Finset.Basic
import Mathlib.Data.Finset.Dedup

/-! The native requests of the secret broker. -/
namespace FocalDesk
open Library

/-- `KEY_ATTR` -/
def keyAttr : String := "focald:key"

def SecretItem.isPublic (item : SecretItem) : Bool := !item.attributes.contains keyAttr

/-- Items that contain every requested attribute pair. -/
def searchItems (items : List SecretItem) (attributes : BTreeMap String String) : List ℕ :=
  (items.filter fun item =>
    attributes.toList.all fun wanted => item.attributes[wanted.1]? == some wanted.2).map
      SecretItem.id

namespace SecretDb

def search (db : SecretDb) (attributes : BTreeMap String String) : List ℕ :=
  searchItems db.items attributes

def get (db : SecretDb) (id : ℕ) : Option SecretItem := db.items.find? fun item => item.id == id

end SecretDb

def keyOnly (key : String) : BTreeMap String String := (∅ : BTreeMap String String).insert keyAttr key

structure BrokerLimits where
  secretBytes : ℕ
  keyBytes : ℕ
  attributes : ℕ
  metadataBytes : ℕ

/-- The limits of the native surface. -/
def nativeLimits : BrokerLimits :=
  { secretBytes := 716800, keyBytes := 512, attributes := 128, metadataBytes := 4096 }

/-- The base64 crate. -/
structure Base64 where
  encode : List UInt8 → String
  decode : String → Except String (List UInt8)

inductive BrokerRequest where
  | ping
  | get (key : String)
  | set (key valueB64 : String) (label : Option String) (attributes : BTreeMap String String)
      (contentType : Option String)
  | delete (key : String)
  | list (keyPrefix : Option String)

structure ListEntry where
  key : String
  label : String
  attributes : BTreeMap String String
  modified : ℕ
deriving DecidableEq

inductive BrokerResponse where
  | ok (valueB64 contentType : Option String) (entries : Option (List ListEntry))
  | error (text : String)
deriving DecidableEq

namespace BrokerResponse

def done : BrokerResponse := .ok none none none

def isOk : BrokerResponse → Bool
  | .ok .. => true
  | .error _ => false

end BrokerResponse

/-- The bytes of UTF-8 that are ASCII control characters are those characters. -/
def validKey (key : String) : Bool :=
  key ≠ "" && byteLen key ≤ nativeLimits.keyBytes &&
    allChars (fun c => !(c.toNat < 32 || c.toNat == 127)) key

def overLimit (limit : ℕ) (text : Option String) : Bool := text.any fun text => limit < byteLen text

/-- Request metadata that `Set` refuses. -/
def exceedsLimits (key : String) (label contentType : Option String)
    (attributes : BTreeMap String String) : Bool :=
  !validKey key || nativeLimits.attributes < attributes.size ||
    overLimit nativeLimits.metadataBytes label || overLimit nativeLimits.metadataBytes contentType ||
    attributes.toList.any fun entry => nativeLimits.metadataBytes < byteLen entry.1 ||
      nativeLimits.metadataBytes < byteLen entry.2

/-- `transaction.delete` for each of some ids. -/
def deleteAll {τ : Type} (ids : List ℕ) (next : Mutation τ) : Mutation τ :=
  ids.foldr (fun id rest => .delete id fun _ => rest) next

/-- The closure of `Set`: the items under the key go, the new one comes. -/
def setMutation (key : String) (new : NewItem) (now : ℕ) : Mutation Unit :=
  .items fun items => deleteAll (searchItems items (keyOnly key))
    (.create new now fun created => .done (created.map fun _ => ()))

def deleteMutation (ids : List ℕ) : Mutation Unit := deleteAll ids (.done (.ok ()))

/-- The item that `Set` stores under a key. -/
def brokerItem (key : String) (secret : List UInt8) (label contentType : Option String)
    (attributes : BTreeMap String String) : NewItem where
  label := label.getD key
  attributes := attributes.insert keyAttr key
  secret := secret
  contentType := contentType.getD "text/plain"
  itemType := "org.freedesktop.Secret.Generic"
  replace := false

def listEntry (acl : AclConfig) (identity : String) (keyPrefix : Option String) (item : SecretItem) :
    Option ListEntry :=
  match item.attributes[keyAttr]? with
  | none => none
  | some key =>
    if (keyPrefix.any fun required => !startsWith key required) = true then none
    else if acl.check identity key false = false then none
    else
      some
        { key, label := item.label, attributes := item.attributes.erase keyAttr
          modified := item.modified }

variable (codec : SecretCodec) (base64 : Base64) (acl : AclConfig)

/-- What runs under the store lock once a `Set` was admitted. -/
def commitSet (store : SecretStore) (key : String) (secret : List UInt8)
    (label contentType : Option String) (attributes : BTreeMap String String) (now : ℕ)
    (around : PersistSurroundings) : SecretStore × BrokerResponse :=
  match store.transaction codec
      (setMutation key (brokerItem key secret label contentType attributes) now) around with
  | (store, .error error) => (store, .error ("persist failed: " ++ error))
  | (store, .ok ()) => (store, .done)

def commitDelete (store : SecretStore) (key : String) (around : PersistSurroundings) :
    SecretStore × BrokerResponse :=
  let ids := store.db.search (keyOnly key)
  if ids.isEmpty then (store, .error "not found")
  else
    match store.transaction codec (deleteMutation ids) around with
    | (store, .error error) => (store, .error ("persist failed: " ++ error))
    | (store, .ok ()) => (store, .done)

/-- `dispatch`, with the access control as it was reloaded. -/
def dispatch (store : SecretStore) (identity : String) (request : BrokerRequest) (now : ℕ)
    (around : PersistSurroundings) : SecretStore × BrokerResponse :=
  match request with
  | .ping => (store, .done)
  | .get key =>
    if validKey key = false then (store, .error "invalid key")
    else if acl.check identity key false = false then (store, .error "access denied")
    else
      match (store.db.search (keyOnly key)).head?.bind store.db.get with
      | some item => (store, .ok (some (base64.encode item.secret)) (some item.contentType) none)
      | none => (store, .error "not found")
  | .set key valueB64 label attributes contentType =>
    if exceedsLimits key label contentType attributes then
      (store, .error "request metadata exceeds broker limits")
    else if acl.check identity key true = false then (store, .error "access denied")
    else
      match base64.decode valueB64 with
      | .error error => (store, .error ("value_b64: " ++ error))
      | .ok secret =>
        if nativeLimits.secretBytes < secret.length then
          (store, .error "secret exceeds broker limits")
        else commitSet codec store key secret label contentType attributes now around
  | .delete key =>
    if validKey key = false then (store, .error "invalid key")
    else if acl.check identity key true = false then (store, .error "access denied")
    else commitDelete codec store key around
  | .list keyPrefix =>
    if overLimit nativeLimits.keyBytes keyPrefix then (store, .error "invalid prefix")
    else (store, .ok none none (some (store.db.items.filterMap (listEntry acl identity keyPrefix))))

end FocalDesk

/-! The Secret Service surface of the broker: what its D-Bus methods do to the store. -/
namespace FocalDesk
open Library

inductive SsError where
  | noSession (text : String)
  | noSuchObject (text : String)
  | failed (text : String)
  | fdoFailed (text : String)

/-- The debug text of the error that `validate_public_attributes` returns. -/
def SsError.debugText : SsError → String
  | .noSession text => "NoSession(\"" ++ text ++ "\")"
  | .noSuchObject text => "NoSuchObject(\"" ++ text ++ "\")"
  | .failed text => "Failed(\"" ++ text ++ "\")"
  | .fdoFailed text => text

/-- The limits of the Secret Service surface. -/
def busLimits : BrokerLimits :=
  { secretBytes := 1048576, keyBytes := 512, attributes := 128, metadataBytes := 4096 }

def validatePublicAttributes (attributes : BTreeMap String String) : Except SsError Unit :=
  if attributes.contains keyAttr then
    .error (.failed "focald:key is reserved for the ACL-protected native broker")
  else if busLimits.attributes < attributes.size ∨ (attributes.toList.any fun entry =>
      busLimits.metadataBytes < byteLen entry.1 || busLimits.metadataBytes < byteLen entry.2) = true
  then .error (.failed "item attributes exceed broker limits")
  else .ok ()

def collectionPath : String := "/org/freedesktop/secrets/collection/default"

/-- `item_id` -/
def itemId (path : String) : Option ℕ :=
  if startsWith path (collectionPath ++ "/") then
    parseU64 (String.ofList (path.toList.drop (charCount collectionPath + 1)))
  else none

def itemText (id : ℕ) : String := "item " ++ toString id

/-- A secret with its content type. -/
abbrev SecretValue := List UInt8 × String

def SecretItem.value (item : SecretItem) : SecretValue := (item.secret, item.contentType)

/-- The methods and properties of an item object. -/
inductive ItemMethod where
  | delete
  | getSecret
  | setSecret (secret : List UInt8) (contentType : String)
  | attributes
  | setAttributes (attributes : BTreeMap String String)
  | label
  | setLabel (label : String)
  | created
  | modified
  | itemType

/-- Calls that reach the store once. Secrets are as decrypted from their session. -/
inductive BusCall where
  | searchItems (attributes : BTreeMap String String)
  | items
  | createItem (label : String) (attributes : BTreeMap String String) (secret : List UInt8)
      (contentType itemType : String) (replace : Bool)
  | item (id : ℕ) (method : ItemMethod)

inductive BusReply where
  | paths (ids : List ℕ)
  | secret (value : SecretValue)
  | secrets (values : List (String × SecretValue))
  | attributes (attributes : BTreeMap String String)
  | text (text : String)
  | time (seconds : ℕ)
  | created (id : ℕ) (replaced : List ℕ)
  | deleted
  | done

namespace SecretDb

def publicItems (db : SecretDb) : List SecretItem := db.items.filter SecretItem.isPublic

def publicIds (db : SecretDb) : Finset ℕ := (db.publicItems.map SecretItem.id).toFinset

/-- The ids found by both `search_items` methods. -/
def searchPublic (db : SecretDb) (attributes : BTreeMap String String) : List ℕ :=
  (db.search attributes).filter fun id => (db.get id).any SecretItem.isPublic

/-- What `get_secrets` reads for one of its paths. -/
def secretAt (db : SecretDb) (path : String) : Option SecretValue :=
  match (itemId path).bind db.get with
  | some item => if item.isPublic then some item.value else none
  | none => none

/-- A property of an item object, with its default for an item that is gone. -/
def property (db : SecretDb) (id : ℕ) : ItemMethod → BusReply
  | .attributes => .attributes ((db.get id).elim ∅ SecretItem.attributes)
  | .label => .text ((db.get id).elim "" SecretItem.label)
  | .created => .time ((db.get id).elim 0 SecretItem.created)
  | .modified => .time ((db.get id).elim 0 SecretItem.modified)
  | .itemType => .text ((db.get id).elim "org.freedesktop.Secret.Generic" SecretItem.itemType)
  | _ => .done

end SecretDb

/-- What a section of a call leaves: its store and its answer. -/
abbrev Served := SecretStore × Except SsError BusReply

variable (codec : SecretCodec) (store : SecretStore) (session : Except SsError Unit) (now : ℕ)
  (around : PersistSurroundings)

/-- A transaction of a method; `fail` wraps its error text. -/
def persistBus {τ : Type} (mutation : Mutation τ) (fail : String → SsError) (reply : τ → BusReply)
    : Served :=
  match store.transaction codec mutation around with
  | (store, .error error) => (store, .error (fail ("persist failed: " ++ error)))
  | (store, .ok value) => (store, .ok (reply value))

def createItem (label : String) (attributes : BTreeMap String String) (secret : List UInt8)
    (contentType itemType : String) (replace : Bool) : Served :=
  match validatePublicAttributes attributes with
  | .error error => (store, .error error)
  | .ok () =>
    match session with
    | .error error => (store, .error error)
    | .ok () =>
      if busLimits.secretBytes < secret.length ∨ busLimits.metadataBytes < byteLen label ∨
          busLimits.metadataBytes < byteLen itemType ∨
          busLimits.metadataBytes < byteLen contentType then
        (store, .error (.failed "item exceeds broker limits"))
      else
        persistBus codec store around
          (.create { label, attributes, secret, contentType, itemType, replace } now .done) .failed
          fun created => .created created.1 created.2

/-- The methods of an item object. -/
def serveItem (id : ℕ) : ItemMethod → Served
  | .delete =>
    if (store.db.get id).isNone then (store, .error (.noSuchObject (itemText id)))
    else
      persistBus codec store around (.delete id fun _ => .done (.ok ())) .failed fun _ => .deleted
  | .getSecret =>
    match store.db.get id with
    | none => (store, .error (.noSuchObject (itemText id)))
    | some item => (store, session.map fun _ => .secret item.value)
  | .setSecret secret contentType =>
    match session with
    | .error error => (store, .error error)
    | .ok () =>
      if busLimits.secretBytes < secret.length ∨ busLimits.metadataBytes < byteLen contentType then
        (store, .error (.failed "secret exceeds broker limits"))
      else if (store.db.get id).isNone then (store, .error (.noSuchObject (itemText id)))
      else
        persistBus codec store around (.setSecret id secret contentType now fun _ => .done (.ok ()))
          .failed fun _ => .done
  | .setAttributes attributes =>
    match validatePublicAttributes attributes with
    | .error error => (store, .error (.fdoFailed error.debugText))
    | .ok () =>
      if (store.db.get id).isNone then (store, .ok .done)
      else
        persistBus codec store around (.setAttributes id attributes now fun _ => .done (.ok ()))
          .fdoFailed fun _ => .done
  | .setLabel label =>
    if busLimits.metadataBytes < byteLen label then
      (store, .error (.fdoFailed "item label exceeds broker limits"))
    else if (store.db.get id).isNone then (store, .ok .done)
    else
      persistBus codec store around (.setLabel id label now fun _ => .done (.ok ())) .fdoFailed
        fun _ => .done
  | property => (store, .ok (store.db.property id property))

/-- The section of a call under the store lock. -/
def serve : BusCall → Served
  | .searchItems attributes =>
    (store, (validatePublicAttributes attributes).map fun _ =>
      .paths (store.db.searchPublic attributes))
  | .items => (store, .ok (.paths (store.db.publicItems.map SecretItem.id)))
  | .createItem label attributes secret contentType itemType replace =>
    createItem codec store session now around label attributes secret contentType itemType replace
  | .item id method => serveItem codec store session now around id method

/-! The importer, which runs while the daemon does not. -/

def sourceAttr : String := "focald:import-source"

structure ImportedItem where
  sourcePath : String
  label : String
  attributes : BTreeMap String String
  secret : List UInt8
  contentType : String
  itemType : String

/-- What an imported item is stored as. -/
def ImportedItem.newItem (item : ImportedItem) : NewItem where
  label := item.label
  attributes :=
    (item.attributes.erase keyAttr).insert sourceAttr ("gnome-keyring:" ++ item.sourcePath)
  secret := item.secret
  contentType := item.contentType
  itemType := item.itemType
  replace := false

def ImportedItem.isStored (item : ImportedItem) (items : List SecretItem) : Bool :=
  items.any fun existing => existing.attributes[sourceAttr]? == some ("gnome-keyring:" ++ item.sourcePath)

/-- The closure of `import::apply`. -/
def importMutation (now : ℕ) : List ImportedItem → Mutation Unit
  | [] => .done (.ok ())
  | item :: rest =>
    .items fun items =>
      if item.isStored items then importMutation now rest
      else
        .create item.newItem now fun
          | .error error => .done (.error error)
          | .ok _ => importMutation now rest

end FocalDesk
