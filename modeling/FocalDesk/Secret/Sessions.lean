import FocalDesk.Library.AssocList
import FocalDesk.Library.RateLimit
import FocalDesk.Library.Transition
import FocalDesk.Secret.Bus

/-! Sessions of the Secret Service: how they are opened, used and closed. -/
namespace FocalDesk
open Library

/-! Their ciphers. -/

/-- The key derivation and the block cipher. -/
structure SessionCrypto where
  hkdf : List UInt8 → List UInt8
  aesEncrypt : List UInt8 → List UInt8 → List UInt8 → List UInt8
  aesDecrypt : List UInt8 → List UInt8 → List UInt8 → Option (List UInt8)

/-- A plain session has no key. -/
structure SessionCipher where
  aesKey : Option (List UInt8)
deriving DecidableEq

/-- `RFC2409_GROUP2_PRIME` -/
def groupPrime : ℕ :=
  0xFFFFFFFFFFFFFFFFC90FDAA22168C234C4C6628B80DC1CD129024E088A67CC74020BBEA63B139B22514A08798E3404DDEF9519B3CD3A431B302B0A6DF25F14374FE1356D6D51C245E485B576625E7EC6F44C42E9A637ED6B0BFF5CB6F406B7EDEE386BFB5A899FA5AE9F24117C4B1FE649286651ECE65381FFFFFFFFFFFFFFFF

def fromBytesBe (bytes : List UInt8) : ℕ := bytes.foldl (fun acc byte => acc * 256 + byte.toNat) 0

def toBytesBe (n : ℕ) : List UInt8 :=
  if n = 0 then [0] else (Nat.digits 256 n).reverse.map UInt8.ofNat

/-- Without the leading zeros of a number that is too long. -/
def trimPadding : List UInt8 → List UInt8
  | [] => []
  | byte :: bytes => if 128 ≤ bytes.length ∧ byte = 0 then trimPadding bytes else byte :: bytes

namespace SessionCipher
variable (crypto : SessionCrypto)

/-- `SessionCipher::dh` with the random private key that was drawn. -/
def dh (privateKey : ℕ) (clientPublic : List UInt8) :
    Except String (SessionCipher × List UInt8) :=
  let clientPublic := trimPadding clientPublic
  if clientPublic = [] ∨ 128 < clientPublic.length then
    .error "client public key must be 1..=128 bytes"
  else
    let client := fromBytesBe clientPublic
    if client < 2 ∨ groupPrime ≤ client then .error "client public key out of range"
    else
      let shared := toBytesBe (client ^ privateKey % groupPrime)
      let ikm := List.replicate (128 - shared.length) 0 ++ shared
      .ok ({ aesKey := some (crypto.hkdf ikm) }, toBytesBe (2 ^ privateKey % groupPrime))

/-- `encrypt` with the random vector that was drawn. -/
def encrypt (cipher : SessionCipher) (iv plaintext : List UInt8) : List UInt8 × List UInt8 :=
  match cipher.aesKey with
  | none => ([], plaintext)
  | some key => (iv, crypto.aesEncrypt key iv plaintext)

def decrypt (cipher : SessionCipher) (params value : List UInt8) : Except String (List UInt8) :=
  match cipher.aesKey with
  | none => .ok value
  | some key =>
    if params.length ≠ 16 then .error "expected 16-byte IV in secret parameters"
    else
      match crypto.aesDecrypt key params value with
      | none => .error "secret decryption failed (bad padding)"
      | some plaintext => .ok plaintext

end SessionCipher

structure ClientSession where
  cipher : SessionCipher
  owner : String

/-- `(session, parameters, value, content_type)` -/
structure WireSecret where
  session : String
  params : List UInt8
  value : List UInt8
  contentType : String

def maxSessions : ℕ := 256

def maxSessionsPerCaller : ℕ := 32

/-- In nanoseconds. -/
def sessionOpenWindow : ℕ := 10000000000

def maxSessionOpensPerWindow : ℕ := 64

/-- `admit_session_open`: the times that are kept, and whether one more was admitted. -/
def admitSessionOpen (attempts : List ℕ) (now : ℕ) : List ℕ × Bool :=
  let kept := attempts.dropWhile fun attempt => sessionOpenWindow ≤ now - attempt
  if maxSessionOpensPerWindow ≤ kept.length then (kept, false) else (kept ++ [now], true)

def sessionPrefix : String := "/org/freedesktop/secrets/session/s"

/-- `session_id` -/
def sessionId (path : String) : Option ℕ :=
  if startsWith path sessionPrefix then
    parseU64 (String.ofList (path.toList.drop (charCount sessionPrefix)))
  else none

def sessionPath (sid : ℕ) : String := sessionPrefix ++ toString sid

/-- A call of `open_session`, by what it does next. -/
inductive OpenCall where
  /-- Before the log of admissions, with the time it read. -/
  | stamped (owner algorithm : String) (input : Except String (List UInt8)) (now : ℕ)
  | admitted (owner algorithm : String) (input : Except String (List UInt8))
  /-- Found the table below its limits. -/
  | checked (owner algorithm : String) (input : Except String (List UInt8))
  | agreed (owner : String) (cipher : SessionCipher) (output : List UInt8)
  | numbered (sid : ℕ) (owner : String) (cipher : SessionCipher) (output : List UInt8)
  /-- In the table, before its object is on the bus. -/
  | inserted (sid : ℕ) (output : List UInt8)

/-- What a call was answered: its output and the number of its session. -/
abbrev OpenAnswer := Except SsError (List UInt8 × ℕ)

/-- The sessions and what is needed to open more. The last three fields are for the record: the
times that were admitted, the latest time brought to the log, and who opened each session. -/
structure SessionTable where
  sessions : List (ℕ × ClientSession)
  nextSession : ℕ
  attempts : List ℕ
  calls : List (ℕ × OpenCall)
  clock : ℕ
  answers : List (ℕ × OpenAnswer)
  admissions : List ℕ
  latest : ℕ
  openers : List (ℕ × String)

inductive SessionEvent where
  | openSession (n : ℕ) (owner algorithm : String) (input : Except String (List UInt8)) (now : ℕ)
  | attempt (n : ℕ)
  | check (n : ℕ)
  | agree (n : ℕ) (privateKey : ℕ)
  | number (n : ℕ)
  | insert (n : ℕ)
  /-- The session object is put on the bus, or that fails. -/
  | register (n : ℕ) (failed : Option String)
  /-- The method `Close` of a session object. -/
  | close (sid : ℕ) (owner : String)
  /-- The reaper learns that an owner is gone. -/
  | disconnect (owner : String)

namespace SessionTable

def empty : SessionTable where
  sessions := []
  nextSession := 1
  attempts := []
  calls := []
  clock := 0
  answers := []
  admissions := []
  latest := 0
  openers := []

def ownedBy (owner : String) (entry : ℕ × ClientSession) : Bool := entry.2.owner == owner

/-- How many sessions a caller has. -/
def countOf (table : SessionTable) (owner : String) : ℕ := table.sessions.countP (ownedBy owner)

def answer (table : SessionTable) (n : ℕ) (answer : OpenAnswer) : SessionTable :=
  { table with calls := removeKey n table.calls, answers := table.answers ++ [(n, answer)] }

def proceed (table : SessionTable) (n : ℕ) (call : OpenCall) : SessionTable :=
  { table with calls := putKey n call table.calls }

/-- `encrypt_for_session` -/
def encryptForSession (crypto : SessionCrypto) (table : SessionTable) (owner session : String)
    (iv plaintext : List UInt8) (contentType : String) : Except SsError WireSecret :=
  match sessionId session with
  | none => .error (.noSession ("unknown session " ++ session))
  | some sid =>
    match table.sessions.lookup sid with
    | none => .error (.noSession ("unknown session " ++ session))
    | some state =>
      if state.owner ≠ owner then
        .error (.noSession ("session " ++ session ++ " belongs to another caller"))
      else
        let sealed := state.cipher.encrypt crypto iv plaintext
        .ok { session, params := sealed.1, value := sealed.2, contentType }

/-- `decrypt_from_session` -/
def decryptFromSession (crypto : SessionCrypto) (table : SessionTable) (owner : String)
    (secret : WireSecret) : Except SsError (List UInt8) :=
  match sessionId secret.session with
  | none => .error (.noSession ("unknown session " ++ secret.session))
  | some sid =>
    match table.sessions.lookup sid with
    | none => .error (.noSession ("unknown session " ++ secret.session))
    | some state =>
      if state.owner ≠ owner then
        .error (.noSession ("session " ++ secret.session ++ " belongs to another caller"))
      else
        match state.cipher.decrypt crypto secret.params secret.value with
        | .error error => .error (.failed error)
        | .ok plaintext => .ok plaintext

/-- The cipher that both sides agreed on, and our part of it. -/
def agreement (crypto : SessionCrypto) (algorithm : String) (input : Except String (List UInt8))
    (privateKey : ℕ) : Except SsError (SessionCipher × List UInt8) :=
  if algorithm = "plain" then .ok ({ aesKey := none }, [])
  else if algorithm = "dh-ietf1024-sha256-aes128-cbc-pkcs7" then
    match input with
    | .error error => .error (.failed error)
    | .ok clientPublic =>
      match SessionCipher.dh crypto privateKey clientPublic with
      | .error error => .error (.failed error)
      | .ok agreed => .ok agreed
  else .error (.fdoFailed ("algorithm " ++ algorithm ++ " not supported"))

/-- The table has room for one more session of a caller. -/
def hasRoom (table : SessionTable) (owner : String) : Bool :=
  !(maxSessions ≤ table.sessions.length || maxSessionsPerCaller ≤ table.countOf owner)

def stepOpen (crypto : SessionCrypto) (table : SessionTable) : SessionEvent → Option SessionTable
  | .attempt n =>
    match table.calls.lookup n with
    | some (.stamped owner algorithm input now) =>
      let admitted := admitSessionOpen table.attempts now
      let logged := { table with attempts := admitted.1, latest := max table.latest now }
      if admitted.2 then
        some (({ logged with admissions := table.admissions ++ [now] } : SessionTable).proceed n
          (.admitted owner algorithm input))
      else
        some (logged.answer n
          (.error (.failed "secret-service session creation is temporarily rate-limited")))
    | _ => none
  | .check n =>
    match table.calls.lookup n with
    | some (.admitted owner algorithm input) =>
      if table.hasRoom owner then some (table.proceed n (.checked owner algorithm input))
      else some (table.answer n (.error (.failed "too many open secret-service sessions")))
    | _ => none
  | .agree n privateKey =>
    match table.calls.lookup n with
    | some (.checked owner algorithm input) =>
      match agreement crypto algorithm input privateKey with
      | .error error => some (table.answer n (.error error))
      | .ok agreed => some (table.proceed n (.agreed owner agreed.1 agreed.2))
    | _ => none
  | .number n =>
    match table.calls.lookup n with
    | some (.agreed owner cipher output) =>
      -- `fetch_add` wraps.
      some
        ({ table with
          nextSession := (table.nextSession + 1) % 18446744073709551616 }.proceed n
            (.numbered table.nextSession owner cipher output))
    | _ => none
  | .insert n =>
    match table.calls.lookup n with
    | some (.numbered sid owner cipher output) =>
      some
        ({ table with
          sessions := putKey sid { cipher, owner } table.sessions
          openers := putKey sid owner table.openers }.proceed n (.inserted sid output))
    | _ => none
  | .register n failed =>
    match table.calls.lookup n with
    | some (.inserted sid output) =>
      match failed with
      | some error =>
        some (({ table with sessions := removeKey sid table.sessions } : SessionTable).answer n
          (.error (.fdoFailed error)))
      | none => some (table.answer n (.ok (output, sid)))
    | _ => none
  | _ => none

def step (crypto : SessionCrypto) (table : SessionTable) : SessionEvent → Option SessionTable
  | .openSession n owner algorithm input now =>
    if table.calls.lookup n = none ∧ table.clock ≤ now then
      some ({ table with clock := now }.proceed n (.stamped owner algorithm input now))
    else none
  | .close sid owner =>
    if (table.sessions.lookup sid).all fun session => session.owner ≠ owner then some table
    else some { table with sessions := removeKey sid table.sessions }
  | .disconnect owner =>
    some { table with sessions := table.sessions.filter fun entry => !ownedBy owner entry }
  | event => table.stepOpen crypto event

end SessionTable

end FocalDesk
