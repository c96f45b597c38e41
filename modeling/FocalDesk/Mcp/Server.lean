import FocalDesk.Json
import FocalDesk.Library.AssocList
import FocalDesk.Text

/-! The MCP server: its tools, the checks before a call and the lifecycle of its session. -/
namespace FocalDesk
open Library

namespace Value

def asBool : Value → Option Bool
  | .bool value => some value
  | _ => none

def asArray : Value → Option (List Value)
  | .array items => some items
  | _ => none

/-- Indexing by a key; what is missing is null. -/
def index (value : Value) (key : String) : Value := (value.get key).getD .null

end Value

/-- Equality of numbers; both zeros of a float are equal. -/
def Number.same : Number → Number → Bool
  | .float left, .float right =>
    left == right || (left.toNat % 0x8000000000000000 == 0 && right.toNat % 0x8000000000000000 == 0)
  | left, right => decide (left = right)

mutual

/-- Equality of values, whatever the order of members. -/
def Value.same : Value → Value → Bool
  | .null, .null => true
  | .bool left, .bool right => left == right
  | .number left, .number right => left.same right
  | .string left, .string right => left == right
  | .array left, .array right => sameItems left right
  | .object left, .object right => left.length == right.length && sameMembers left right
  | _, _ => false

def sameItems : List Value → List Value → Bool
  | [], [] => true
  | left :: lefts, right :: rights => left.same right && sameItems lefts rights
  | _, _ => false

def sameMembers : List (String × Value) → List (String × Value) → Bool
  | [], _ => true
  | (key, left) :: lefts, rights =>
    (getKey key rights).any (fun right => left.same right) && sameMembers lefts rights

end

namespace Mcp

inductive AccessLevel where
  | session
deriving DecidableEq

inductive Mutability where
  | readOnly
  | mutating
deriving DecidableEq

inductive Confirmation where
  | none
  | required
deriving DecidableEq

inductive DataClass where
  | systemMetadata
  | windowMetadata
  | diagnostics
deriving DecidableEq

inductive AuditMode where
  | full
deriving DecidableEq

structure ToolPolicy where
  access : AccessLevel
  mutability : Mutability
  confirmation : Confirmation
  dataClass : DataClass
  audit : AuditMode
deriving DecidableEq

structure ToolDefinition where
  name : String
  description : String
  inputSchema : Value
  policy : ToolPolicy

def Mutability.text : Mutability → String
  | .readOnly => "read_only"
  | .mutating => "mutating"

def Confirmation.text : Confirmation → String
  | .none => "none"
  | .required => "required"

def DataClass.text : DataClass → String
  | .systemMetadata => "system_metadata"
  | .windowMetadata => "window_metadata"
  | .diagnostics => "diagnostics"

def ToolPolicy.toValue (policy : ToolPolicy) : Value :=
  .object [("access", .string "session"), ("mutability", .string policy.mutability.text),
    ("confirmation", .string policy.confirmation.text),
    ("data_class", .string policy.dataClass.text), ("audit", .string "full")]

def read (dataClass : DataClass) : ToolPolicy := ⟨.session, .readOnly, .none, dataClass, .full⟩

def mutation (confirmation : Confirmation) (dataClass : DataClass) : ToolPolicy :=
  ⟨.session, .mutating, confirmation, dataClass, .full⟩

def object (properties : List (String × Value)) (required : List String) : Value :=
  .object [("type", .string "object"), ("properties", .object properties),
    ("required", .array (required.map .string)), ("additionalProperties", .bool false)]

def merge (left right : List (String × Value)) : List (String × Value) :=
  right.foldl (fun members member => putKey member.1 member.2 members) left

def nat (n : ℕ) : Value := .number (.posInt n)

def confirmed : List (String × Value) :=
  [("confirmed", .object [("type", .string "boolean"),
    ("description", .string "True only after the user approved this specific action.")])]

/-- An identifier that counts from one. -/
def positive : Value := .object [("type", .string "integer"), ("minimum", nat 1)]

def toolCatalog : List ToolDefinition :=
  [{ name := "get_session_status",
     description := "Get bounded state for the current FocalDesk session.",
     inputSchema := object [] [], policy := read .systemMetadata },
   { name := "list_outputs",
     description := "List connected display outputs and their current logical layout.",
     inputSchema := object [] [], policy := read .systemMetadata },
   { name := "get_output_details",
     description := "Get one output by numeric id or connector name.",
     inputSchema := object
       [("output_id", .object [("type", .string "integer"), ("minimum", nat 0)]),
        ("connector", .object [("type", .string "string"), ("minLength", nat 1),
          ("maxLength", nat 128)])] [],
     policy := read .systemMetadata },
   { name := "list_windows",
     description := "List compositor-managed windows without window contents.",
     inputSchema := object [] [], policy := read .windowMetadata },
   { name := "list_workspaces",
     description := "List workspaces and bounded occupancy metadata.",
     inputSchema := object [] [], policy := read .windowMetadata },
   { name := "get_service_health",
     description := "Report availability of FocalDesk session service endpoints.",
     inputSchema := object [] [], policy := read .systemMetadata },
   { name := "search_recent_logs",
     description :=
       "Search a bounded tail of recent FocalDesk logs with secret-like values redacted.",
     inputSchema := object
       [("query", .object [("type", .string "string"), ("maxLength", nat 256)]),
        ("limit", .object [("type", .string "integer"), ("minimum", nat 1), ("maximum", nat 200),
          ("default", nat 50)])] [],
     policy := read .diagnostics },
   { name := "get_rendering_status",
     description := "Get the compositor rendering backend and readiness state.",
     inputSchema := object [] [], policy := read .systemMetadata },
   { name := "show_notification",
     description := "Queue a desktop notification in the current session.",
     inputSchema := object
       [("title", .object [("type", .string "string"), ("minLength", nat 1),
          ("maxLength", nat 160)]),
        ("body", .object [("type", .string "string"), ("maxLength", nat 2000)]),
        ("timeout_ms", .object [("type", .string "integer"), ("minimum", nat 500),
          ("maximum", nat 60000)])] ["title", "body"],
     policy := mutation .none .systemMetadata },
   { name := "focus_window",
     description := "Focus a compositor-managed window after explicit user confirmation.",
     inputSchema := object (merge confirmed [("window_id", positive)]) ["window_id", "confirmed"],
     policy := mutation .required .windowMetadata },
   { name := "move_window_to_workspace",
     description := "Move a window to an existing workspace after explicit user confirmation.",
     inputSchema := object
       (merge confirmed [("window_id", positive), ("workspace_id", positive)])
       ["window_id", "workspace_id", "confirmed"],
     policy := mutation .required .windowMetadata },
   { name := "open_settings_panel",
     description := "Open a named FocalDesk Settings panel after explicit user confirmation.",
     inputSchema := object
       (merge confirmed [("panel", .object [("type", .string "string"),
         ("enum", .array [.string "appearance", .string "network", .string "bluetooth",
           .string "printers", .string "displays", .string "sound", .string "applications",
           .string "chrome", .string "workspaces", .string "keyboard", .string "privacy",
           .string "power", .string "debug", .string "about"])])])
       ["panel", "confirmed"],
     policy := mutation .required .systemMetadata }]

/-! ### Arguments -/

/-- The bounds a property has, each of which fails a check with its own text. -/
def checkBounds (schema : Value) (minimumKey maximumKey : String) (value : ℕ) (below above : String)
    : Except String Unit := do
  bailIf (∃ minimum ∈ (schema.index minimumKey).asU64, value < minimum) below
  bailIf (∃ maximum ∈ (schema.index maximumKey).asU64, maximum < value) above

def checkType (key : String) (schema value : Value) : Except String Unit :=
  let kind := (schema.index "type").asStr
  if kind = some "boolean" then bailIf (value.asBool = none) (key ++ " must be a boolean")
  else if kind = some "string" then do
    let string ← okOr value.asStr (key ++ " must be a string")
    checkBounds schema "minLength" "maxLength" (charCount string)
      (key ++ " is too short") (key ++ " is too long")
  else if kind = some "integer" then do
    let number ← okOr value.asU64 (key ++ " must be a non-negative integer")
    checkBounds schema "minimum" "maximum" number
      (key ++ " is below the minimum") (key ++ " exceeds the maximum")
  else .ok ()

def checkEnum (key : String) (schema value : Value) : Except String Unit :=
  match (schema.index "enum").asArray with
  | some allowed => bailIf (allowed.any (fun item => item.same value) = false)
      (key ++ " is not an allowed value")
  | none => .ok ()

def checkMember (properties : List (String × Value)) (member : String × Value) :
    Except String Unit :=
  match getKey member.1 properties with
  | none => .ok ()
  | some schema => do
    checkType member.1 schema member.2
    checkEnum member.1 schema member.2

def checkUnknown (schema : Value) (properties members : List (String × Value)) :
    Except String Unit :=
  if (schema.index "additionalProperties").asBool = some false then
    checkAll (fun member => bailIf (getKey member.1 properties).isNone
      ("unknown argument: " ++ member.1)) members
  else .ok ()

def checkRequired (schema : Value) (members : List (String × Value)) : Except String Unit :=
  match (schema.index "required").asArray with
  | some required => checkAll (fun key => bailIf (getKey key members).isNone
      ("missing required argument: " ++ key)) (required.filterMap Value.asStr)
  | none => .ok ()

def validateArguments (tool : ToolDefinition) (arguments : Value) : Except String Unit := do
  let members ← okOr arguments.asObject "tool arguments must be an object"
  let properties ← okOr (tool.inputSchema.index "properties").asObject "tool schema is invalid"
  checkUnknown tool.inputSchema properties members
  checkRequired tool.inputSchema members
  checkAll (checkMember properties) members

/-! ### Messages -/

inductive Lifecycle where
  | uninitialized
  | initializing
  | ready
deriving DecidableEq

structure McpServer where
  catalog : List ToolDefinition
  capabilities : List String
  lifecycle : Lifecycle

/-- What the backend answers while a message is handled. -/
abbrev Backend := String → Value → Except String Value

/-- What handling a message comes to: the server after it, its response, and the calls that the
backend got. -/
structure Handled where
  server : McpServer
  response : Option Value
  calls : List (String × Value)

def errorCode (code : ℕ) : Value := .number (.negInt (-code))

def toolError (message : String) : Value :=
  .object [("content", .array [.object [("type", .string "text"), ("text", .string message)]]),
    ("isError", .bool true)]

def errorResponse (id : Value) (code : ℕ) (message : String) : Value :=
  .object [("jsonrpc", .string "2.0"), ("id", id),
    ("error", .object [("code", errorCode code), ("message", .string message)])]

def resultResponse (id result : Value) : Value :=
  .object [("jsonrpc", .string "2.0"), ("id", id), ("result", result)]

def reply (id : Value) : Except (ℕ × String) Value → Value
  | .ok result => resultResponse id result
  | .error error => errorResponse id error.1 error.2

def validRequestId : Option Value → Option Value
  | some (.string value) => some (.string value)
  | some (.number (.posInt value)) => some (.number (.posInt value))
  | some (.number (.negInt value)) => some (.number (.negInt value))
  | _ => none

def mcpProtocolVersion : String := "2025-06-18"

def supportedProtocolVersions : List String := ["2024-11-05", "2025-03-26", "2025-06-18"]

def negotiatedProtocolVersion (request : Value) : String :=
  match ((request.index "params").index "protocolVersion").asStr with
  | some version =>
    if version ∈ supportedProtocolVersions then version else mcpProtocolVersion
  | none => mcpProtocolVersion

def initializeResult (request : Value) : Value :=
  .object [("protocolVersion", .string (negotiatedProtocolVersion request)),
    ("capabilities", .object [("tools", .object [("listChanged", .bool false)])]),
    ("serverInfo", .object [("name", .string "focaldesk-mcp"), ("version", .string "0.1.0")]),
    ("instructions", .string ("FocalDesk typed IPC remains authoritative. Mutating tools " ++
      "require an explicit session capability; sensitive actions are intentionally absent."))]

/-- A tool as it is listed. -/
def ToolDefinition.toValue (tool : ToolDefinition) : Value :=
  .object [("name", .string tool.name), ("description", .string tool.description),
    ("inputSchema", tool.inputSchema),
    ("annotations", .object [("readOnlyHint", .bool (tool.policy.mutability = .readOnly)),
      ("destructiveHint", .bool false),
      ("idempotentHint", .bool (tool.policy.mutability = .readOnly)),
      ("openWorldHint", .bool false)]),
    ("_meta", .object [("focaldesk/toolPolicy", tool.policy.toValue)])]

/-- The result of a tool whose backend answered. `pretty` is the indented text of a value. -/
def toolResult (pretty : Value → String) (value : Value) : Value :=
  .object [("content", .array [.object [("type", .string "text"),
      ("text", .string (pretty value))]]),
    ("structuredContent", if value.asObject.isSome then value else .object [("value", value)]),
    ("isError", .bool false)]

namespace McpServer

def new (capabilities : List String) : McpServer := ⟨toolCatalog, capabilities, .uninitialized⟩

def initializeServer (server : McpServer) (request : Value) :
    McpServer × Except (ℕ × String) Value :=
  if server.lifecycle ≠ .uninitialized then
    (server, .error (32600, "server is already initialized"))
  else
    match (request.get "params").bind Value.asObject with
    | none => (server, .error (32602, "initialize params are required"))
    | some params =>
      if ((getKey "protocolVersion" params).bind Value.asStr).isNone then
        (server, .error (32602, "protocolVersion must be a string"))
      else if ((getKey "capabilities" params).bind Value.asObject).isNone then
        (server, .error (32602, "capabilities must be an object"))
      else
        match (getKey "clientInfo" params).bind Value.asObject with
        | none => (server, .error (32602, "clientInfo must be an object"))
        | some clientInfo =>
          if ((getKey "name" clientInfo).bind Value.asStr).isNone ∨
              ((getKey "version" clientInfo).bind Value.asStr).isNone then
            (server, .error (32602, "clientInfo.name and clientInfo.version must be strings"))
          else ({ server with lifecycle := .initializing }, .ok (initializeResult request))

def handleNotification (server : McpServer) (method : String) : McpServer :=
  if method = "notifications/initialized" ∧ server.lifecycle = .initializing then
    { server with lifecycle := .ready }
  else server

def listTools (server : McpServer) : Value :=
  .object [("tools", .array (server.catalog.map ToolDefinition.toValue))]

/-- The result of a call, and the calls that the backend got. -/
def callTool (pretty : Value → String) (backend : Backend) (server : McpServer) (params : Value) :
    Except (ℕ × String) Value × List (String × Value) :=
  match (params.get "name").bind Value.asStr with
  | none => (.error (32602, "tool name is required"), [])
  | some name =>
    let arguments := (params.get "arguments").getD (.object [])
    if arguments.asObject.isNone then (.error (32602, "tool arguments must be an object"), [])
    else
      match server.catalog.find? fun tool => tool.name = name with
      | none => (.error (32602, "unknown tool: " ++ name), [])
      | some tool =>
        match validateArguments tool arguments with
        | .error message => (.ok (toolError message), [])
        | .ok () =>
          if tool.policy.mutability = .mutating ∧ tool.name ∉ server.capabilities then
            (.ok (toolError ("session capability \u0060" ++ tool.name ++
              "\u0060 is not granted; add it to FOCALDESK_MCP_CAPABILITIES when starting the " ++
              "server")), [])
          else if tool.policy.confirmation = .required ∧
              (arguments.get "confirmed").bind Value.asBool ≠ some true then
            (.ok (toolError "explicit confirmation is required for this action"), [])
          else
            match backend name arguments with
            | .ok value => (.ok (toolResult pretty value), [(name, arguments)])
            | .error message => (.ok (toolError message), [(name, arguments)])

/-- The part of `handle` for a request with an id. -/
def respond (pretty : Value → String) (backend : Backend) (server : McpServer) (id request : Value)
    (method : String) : Handled :=
  if method ≠ "initialize" ∧ method ≠ "ping" ∧ server.lifecycle ≠ .ready then
    ⟨server, some (errorResponse id 32002 "server is not initialized"), []⟩
  else if method = "initialize" then
    ⟨(server.initializeServer request).1, some (reply id (server.initializeServer request).2), []⟩
  else if method = "ping" then ⟨server, some (resultResponse id (.object [])), []⟩
  else if method = "tools/list" then ⟨server, some (resultResponse id server.listTools), []⟩
  else if method = "tools/call" then
    let called := server.callTool pretty backend (request.index "params")
    ⟨server, some (reply id called.1), called.2⟩
  else ⟨server, some (errorResponse id 32601 "method not found"), []⟩

def handle (pretty : Value → String) (backend : Backend) (server : McpServer) (request : Value) :
    Handled :=
  match request.asObject with
  | none => ⟨server, some (errorResponse .null 32600 "invalid JSON-RPC request"), []⟩
  | some _ =>
    let responseId := validRequestId (request.get "id")
    if (request.get "jsonrpc").bind Value.asStr ≠ some "2.0" then
      ⟨server, some (errorResponse (responseId.getD .null) 32600
        "jsonrpc must be \u00602.0\u0060"), []⟩
    else
      match (request.get "method").bind Value.asStr with
      | none => ⟨server, some (errorResponse (responseId.getD .null) 32600
          "method must be a string"), []⟩
      | some method =>
        match responseId with
        | some id => server.respond pretty backend id request method
        | none =>
          if (request.get "id").isSome then
            ⟨server, some (errorResponse .null 32600 "request id must be a string or integer"), []⟩
          else ⟨server.handleNotification method, none, []⟩

end McpServer

/-! ### Tools of the agent -/

def executeReadOnlyTool (backend : Backend) (name : String) (arguments : Value) :
    Except String Value × List (String × Value) :=
  match toolCatalog.find? fun tool => tool.name = name with
  | none => (.error ("unknown tool: " ++ name), [])
  | some tool =>
    if tool.policy.mutability ≠ .readOnly then
      (.error ("agent cannot execute mutating tool: " ++ name), [])
    else
      match validateArguments tool arguments with
      | .error message => (.error message, [])
      | .ok () => (backend name arguments, [(name, arguments)])

def executeConfirmedTool (backend : Backend) (name : String) (arguments : Value) :
    Except String Value × List (String × Value) :=
  match toolCatalog.find? fun tool => tool.name = name with
  | none => (.error ("unknown tool: " ++ name), [])
  | some tool =>
    if tool.policy.mutability ≠ .mutating then
      (.error ("confirmed action path requires a mutating tool: " ++ name), [])
    else
      match arguments.asObject with
      | none => (.error "tool arguments must be an object", [])
      | some members =>
        if (getKey "confirmed" members).isSome then
          (.error "model-proposed arguments must not contain \u0060confirmed\u0060", [])
        else
          let arguments := Value.object (if tool.policy.confirmation = .required then
            putKey "confirmed" (.bool true) members else members)
          match validateArguments tool arguments with
          | .error message => (.error message, [])
          | .ok () => (backend name arguments, [(name, arguments)])

end Mcp

end FocalDesk
