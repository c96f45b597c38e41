import FocalDesk.Json
import FocalDesk.Path
import Mathlib.Data.List.Sort

/-! Capability policies: validation, intersection with a ceiling, and authorization of the
arguments of a tool call. -/
namespace FocalDesk
open Library

inductive ContextKind where
  | activeWindow
  | workspace
  | notifications
  | calendar
  | files
  | conversation
deriving DecidableEq, Repr

/-- What the service reads of a parsed URL. -/
structure Url where
  scheme : String
  hostStr : Option String
  path : String
  query : Option String
  fragment : Option String
  /-- `origin().ascii_serialization()` -/
  origin : String

/-- The URL parser. -/
structure UrlParser where
  parse : String → Except String Url
  /-- A relative URL without a base, such as the empty text, is an error. -/
  parse_empty : ∃ error, parse "" = .error error

structure CapabilityPolicy where
  filesystemRoots : Option (List String)
  networkOrigins : Option (List String)
  applications : Option (List String)
  workspaces : Option (List String)
  services : Option (List String)
  secretHandles : Option (List String)
  contextKinds : Option (List ContextKind)
  leaseSeconds : ℕ
deriving DecidableEq

def CapabilityPolicy.default : CapabilityPolicy :=
  { filesystemRoots := none, networkOrigins := none, applications := none, workspaces := none,
    services := none, secretHandles := none, contextKinds := none, leaseSeconds := 120 }

structure CapabilityLease where
  leaseId : String
  runId : String
  agentId : String
  tools : List String
  policy : CapabilityPolicy
  issuedAtUnix : ℕ
  expiresAtUnix : ℕ
  revoked : Bool
  workflowRunId : Option String

def validateList (values : Option (List String)) (kind : String) : Except String Unit :=
  match values with
  | none => .ok ()
  | some values =>
    bailIf (64 < values.length
        ∨ (∃ value ∈ values, trim value = "" ∨ 200 < byteLen value)
        ∨ ¬ values.Nodup)
      (kind ++ " capability contains invalid or duplicate values")

def validateContextKinds : Option (List ContextKind) → Except String Unit
  | none => .ok ()
  | some kinds =>
    bailIf (6 < kinds.length ∨ ¬ kinds.Nodup)
      "context capability contains invalid or duplicate kinds"

def validateRoots : Option (List String) → Except String Unit
  | none => .ok ()
  | some roots =>
    bailIf (32 < roots.length ∨ ∃ root ∈ roots, isNormalizedPath root = false)
      "filesystem capability roots must be 0-32 absolute normalized paths"

def validateOrigin (urls : UrlParser) (origin : String) : Except String Unit := do
  let parsed ← urls.parse origin
  bailIf (¬ (parsed.scheme = "http" ∨ parsed.scheme = "https")
      ∨ parsed.hostStr = none
      ∨ parsed.path ≠ "/"
      ∨ parsed.query.isSome
      ∨ parsed.fragment.isSome)
    "network capabilities must be HTTP(S) origins without paths"

def validateOrigins (urls : UrlParser) : Option (List String) → Except String Unit
  | none => .ok ()
  | some origins => do
    bailIf (32 < origins.length) "network capability may contain at most 32 origins"
    checkAll (validateOrigin urls) origins

/-- An absent scope does not restrict. -/
def intersectScopes {α : Type} [DecidableEq α] :
    Option (List α) → Option (List α) → Option (List α)
  | none, value => value
  | some left, none => some left
  | some left, some right => some (left.filter fun value => value ∈ right)

def intersectContextKinds (left right : Option (List ContextKind)) :
    Option (List ContextKind) := intersectScopes left right

def intersectValues (left right : Option (List String)) : Option (List String) :=
  intersectScopes left right

/-- The narrower of two roots, when one lies below the other. -/
def narrowerRoot (left right : String) : Option String :=
  if pathStartsWith left right then some left
  else if pathStartsWith right left then some right
  else none

/-- `BTreeSet::insert` keeps the first of equal paths. -/
def insertRoot (roots : List String) (root : String) : List String :=
  if roots.any (samePath root) then roots else roots ++ [root]

def narrowedRoots (left right : List String) : List String :=
  (left.flatMap fun l => right.filterMap (narrowerRoot l)).foldl insertRoot []

def intersectPaths : Option (List String) → Option (List String) → Option (List String)
  | none, value => value
  | some left, none => some left
  | some left, some right =>
    some ((narrowedRoots left right).insertionSort
      fun a b => componentsLe (components a) (components b) = true)

def authorizePath (roots : Option (List String)) (path : String) : Except String Unit :=
  match roots with
  | none => .ok ()
  | some roots => do
    bailIf (isNormalizedPath path = false) "path must be absolute and normalized"
    bailIf (roots.any (pathStartsWith path) = false) "path is outside the leased filesystem roots"

/-- `trim_end_matches('/')` -/
def trimSlashes (value : String) : String :=
  String.ofList (value.toList.reverse.dropWhile (· = '/')).reverse

def authorizeOrigin (urls : UrlParser) (origins : Option (List String)) (value : String) :
    Except String Unit :=
  match origins with
  | none => .ok ()
  | some origins => do
    let parsed ← urls.parse value
    bailIf (origins.any (fun allowed => trimSlashes allowed = parsed.origin) = false)
      "network origin is not leased"

def authorizeValue (allowed : Option (List String)) (value : Value) (kind : String) :
    Except String Unit :=
  match allowed with
  | none => .ok ()
  | some allowed => do
    let value ← okOr value.asStr (kind ++ " must be a string")
    bailIf (value ∉ allowed) (kind ++ " is not leased")

/-- A check of a text argument; other arguments are not its concern. -/
def authorizeText (check : String → Except String Unit) (value : Value) : Except String Unit :=
  match value.asStr with
  | some text => check text
  | none => .ok ()

namespace CapabilityPolicy

def validate (urls : UrlParser) (policy : CapabilityPolicy) : Except String Unit := do
  bailIf (¬ (10 ≤ policy.leaseSeconds ∧ policy.leaseSeconds ≤ 3600))
    "capability lease_seconds must be between 10 and 3600"
  validateList policy.applications "application"
  validateList policy.workspaces "workspace"
  validateList policy.services "service"
  validateList policy.secretHandles "secret handle"
  validateContextKinds policy.contextKinds
  validateRoots policy.filesystemRoots
  validateOrigins urls policy.networkOrigins

def intersect (policy ceiling : CapabilityPolicy) : CapabilityPolicy :=
  { filesystemRoots := intersectPaths policy.filesystemRoots ceiling.filesystemRoots
    networkOrigins := intersectValues policy.networkOrigins ceiling.networkOrigins
    applications := intersectValues policy.applications ceiling.applications
    workspaces := intersectValues policy.workspaces ceiling.workspaces
    services := intersectValues policy.services ceiling.services
    secretHandles := intersectValues policy.secretHandles ceiling.secretHandles
    contextKinds := intersectContextKinds policy.contextKinds ceiling.contextKinds
    leaseSeconds := min policy.leaseSeconds ceiling.leaseSeconds }

/-- The check of one named argument. -/
def authorizeArgument (urls : UrlParser) (policy : CapabilityPolicy) (key : String) (value : Value)
    : Except String Unit :=
  match key with
  | "path" | "source" | "destination" =>
    authorizeText (authorizePath policy.filesystemRoots) value
  | "url" | "origin" => authorizeText (authorizeOrigin urls policy.networkOrigins) value
  | "application" | "application_id" | "app_id" =>
    authorizeValue policy.applications value "application"
  | "workspace" | "workspace_id" => authorizeValue policy.workspaces value "workspace"
  | "service" | "service_name" => authorizeValue policy.services value "service"
  | "secret_handle" => authorizeValue policy.secretHandles value "secret handle"
  | _ => .ok ()

def authorize (urls : UrlParser) (policy : CapabilityPolicy) (tool : String) (arguments : Value)
    : Except String Unit :=
  (walkArguments (policy.authorizeArgument urls) arguments).mapError fun error =>
    "capability denied tool " ++ tool ++ ": " ++ error

end CapabilityPolicy

end FocalDesk
