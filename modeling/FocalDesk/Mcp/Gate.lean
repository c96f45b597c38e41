import FocalDesk.Mcp.Server

/-! Which messages reach the backend of the MCP server, and what each is answered. -/
namespace FocalDesk.Mcp
open Library List Option McpServer Value

variable {schema value arguments req id : Value} {key name method : String}
  {members mems properties : List (String × Value)} {required : List String} {tool : ToolDefinition}
  {server : McpServer} {pretty : Value → String} {backend : Backend} {capabilities : List String}

/-! ### Schemas -/

/-- The values of a type that a property can have. -/
inductive HasType : String → Value → Prop where
  | boolean (value : Bool) : HasType "boolean" (.bool value)
  | string (value : String) : HasType "string" (.string value)
  | integer (value : ℕ) : HasType "integer" (nat value)

/-- The keywords that a schema uses; the last two constrain nothing. -/
def keywords : List String :=
  ["type", "minLength", "maxLength", "minimum", "maximum", "enum", "description", "default"]

/-- A value meets every constraint in the schema of a property. -/
structure SatisfiesProperty (schema value : Value) : Prop where
  known : ∀ key, (schema.get key).isSome = true → key ∈ keywords
  kind : ∀ kind, schema.get "type" = some kind → ∃ name, kind = .string name ∧ HasType name value
  minLength : ∀ bound text, schema.get "minLength" = some bound → value = .string text →
    ∃ least, bound = nat least ∧ least ≤ charCount text
  maxLength : ∀ bound text, schema.get "maxLength" = some bound → value = .string text →
    ∃ most, bound = nat most ∧ charCount text ≤ most
  minimum : ∀ bound number, schema.get "minimum" = some bound → value = .number number →
    ∃ least n, bound = nat least ∧ number = .posInt n ∧ least ≤ n
  maximum : ∀ bound number, schema.get "maximum" = some bound → value = .number number →
    ∃ most n, bound = nat most ∧ number = .posInt n ∧ n ≤ most
  enum : ∀ items, schema.get "enum" = some items →
    ∃ allowed, items = .array allowed ∧ ∃ item ∈ allowed, item.same value = true

/-- Arguments have every required member and no other than the declared ones, and each meets what
is declared for it. -/
def SatisfiesSchema (schema arguments : Value) : Prop :=
  ∃ members properties required, arguments = .object members ∧
    schema = object properties required ∧
    (∀ key ∈ required, (getKey key members).isSome = true) ∧
    ∀ member ∈ members, ∃ property, getKey member.1 properties = some property ∧
      SatisfiesProperty property member.2

/-- The schemas of properties that the checks interpret in full. -/
structure Regular (schema : Value) : Prop where
  known : ∀ key, (schema.get key).isSome = true → key ∈ keywords
  kind : ∃ name, schema.get "type" = some (.string name) ∧
    (name = "boolean" ∨ name = "string" ∨ name = "integer")
  bound : ∀ key ∈ ["minLength", "maxLength", "minimum", "maximum"], ∀ bound,
    schema.get key = some bound → ∃ n, bound = nat n
  enum : ∀ items, schema.get "enum" = some items → ∃ allowed, items = .array allowed

@[simp] theorem get_object : (Value.object mems).get key = getKey key mems := by
  show (mems.find? fun mem => mem.1 == key).map Prod.snd = mems.lookup key
  induction mems with
  | nil => rfl
  | cons mem mems ih =>
    obtain ⟨name, value⟩ := mem
    by_cases h : name = key
    · subst h
      simp
    · have h' : (key == name) = false := beq_false_of_ne (Ne.symm h)
      simp [lookup_cons, h, h', ih]

theorem checkBounds_eq_ok {minimumKey maximumKey below above : String} {n : ℕ} :
    checkBounds schema minimumKey maximumKey n below above = .ok () ↔
      (∀ least, (schema.index minimumKey).asU64 = some least → least ≤ n) ∧
        ∀ most, (schema.index maximumKey).asU64 = some most → n ≤ most := by
  simp [checkBounds]

theorem asU64_index {n : ℕ} (h : schema.get key = some (nat n)) :
    (schema.index key).asU64 = some n := by
  rw [index, h]
  rfl

theorem asStr_index (h : schema.get key = some (.string name)) :
    (schema.index key).asStr = some name := by
  rw [index, h]
  rfl

/-- A value that passes the check of its type has that type and lies within its bounds. -/
theorem checkType_eq_ok (hk : schema.get "type" = some (.string name))
    (hna : name = "boolean" ∨ name = "string" ∨ name = "integer")
    (h : checkType key schema value = .ok ()) : HasType name value ∧
      (∀ text, value = .string text →
        (∀ least, (schema.index "minLength").asU64 = some least → least ≤ charCount text) ∧
          ∀ most, (schema.index "maxLength").asU64 = some most → charCount text ≤ most) ∧
      ∀ number, value = .number number → ∃ n, number = .posInt n ∧
        (∀ least, (schema.index "minimum").asU64 = some least → least ≤ n) ∧
          ∀ most, (schema.index "maximum").asU64 = some most → n ≤ most := by
  unfold checkType at h
  rw [asStr_index hk] at h
  rcases hna with rfl | rfl | rfl
  · simp only [if_true, bailIf_eq_ok] at h
    cases value with
    | bool value => exact ⟨.boolean value, by simp⟩
    | _ => exact absurd rfl h
  · simp only [some.injEq, String.reduceEq, if_true, if_false, bind_eq_ok, okOr_eq_ok,
      checkBounds_eq_ok] at h
    obtain ⟨text, ht, hb⟩ := h
    cases value with
    | string value =>
      cases ht
      refine ⟨.string _, fun text heq => ?_, by simp⟩
      cases heq
      exact hb
    | _ => cases ht
  · simp only [some.injEq, String.reduceEq, if_true, if_false, bind_eq_ok, okOr_eq_ok,
      checkBounds_eq_ok] at h
    obtain ⟨n, hn, hb⟩ := h
    cases value with
    | number number =>
      cases number with
      | posInt m =>
        cases hn
        refine ⟨.integer n, by simp, fun number heq => ?_⟩
        rw [← Value.number.inj heq]
        exact ⟨n, rfl, hb⟩
      | _ => cases hn
    | _ => cases hn

theorem checkEnum_eq_ok {allowed : List Value} (he : schema.get "enum" = some (.array allowed))
    (h : checkEnum key schema value = .ok ()) : ∃ item ∈ allowed, item.same value := by
  unfold checkEnum at h
  rw [index, he] at h
  have ha : ¬ allowed.any (fun item => item.same value) = false := bailIf_eq_ok.mp h
  exact any_eq_true.mp (Bool.not_eq_false _ ▸ ha)

/-- What the checks of a member accept meets its schema. -/
theorem Regular.satisfies (hr : Regular schema) (ht : checkType key schema value = .ok ())
    (he : checkEnum key schema value = .ok ()) :
    SatisfiesProperty schema value := by
  obtain ⟨name, hk, hna⟩ := hr.kind
  obtain ⟨hh, hle, hnu⟩ := checkType_eq_ok hk hna ht
  have hb {key : String} (hke : key ∈ ["minLength", "maxLength", "minimum", "maximum"])
      {bound : Value} (h : schema.get key = some bound) :
      ∃ n, bound = nat n ∧ (schema.index key).asU64 = some n := by
    obtain ⟨n, rfl⟩ := hr.bound key hke bound h
    exact ⟨n, rfl, asU64_index h⟩
  refine ⟨hr.known, fun kind h => ?_, fun bound text h heq => ?_, fun bound text h heq => ?_,
    fun bound num h heq => ?_, fun bound num h heq => ?_, fun its h => ?_⟩
  · rw [hk] at h
    exact ⟨name, (some.inj h).symm, hh⟩
  · obtain ⟨n, hn, hi⟩ := hb (by simp) h
    exact ⟨n, hn, (hle text heq).1 n hi⟩
  · obtain ⟨n, hn, hi⟩ := hb (by simp) h
    exact ⟨n, hn, (hle text heq).2 n hi⟩
  · obtain ⟨n, hn, hi⟩ := hb (by simp) h
    obtain ⟨m, hm, hl, -⟩ := hnu num heq
    exact ⟨n, m, hn, hm, hl n hi⟩
  · obtain ⟨n, hn, hi⟩ := hb (by simp) h
    obtain ⟨m, hm, -, hmo⟩ := hnu num heq
    exact ⟨n, m, hn, hm, hmo n hi⟩
  · obtain ⟨allowed, rfl⟩ := hr.enum its h
    exact ⟨allowed, rfl, checkEnum_eq_ok h he⟩

/-- Arguments that the check of a schema accepts meet it, if its properties are regular. -/
theorem satisfies_of_validateArguments (hs : tool.inputSchema = object properties required)
    (hre : ∀ prop ∈ properties, Regular prop.2) (h : validateArguments tool arguments = .ok ()) :
    SatisfiesSchema tool.inputSchema arguments ∧
      ∃ mems, arguments = .object mems ∧
        ∀ mem ∈ mems, (getKey mem.1 properties).isSome := by
  have hpr : (object properties required).index "properties" = .object properties := by
    simp [object, Value.index, getKey_cons]
  have hr : (object properties required).index "required" =
      .array (required.map .string) := by
    simp [object, Value.index, getKey_cons]
  have hc : ((object properties required).index "additionalProperties").asBool =
      some false := by
    simp [object, Value.index, getKey_cons, Value.asBool]
  unfold validateArguments at h
  simp only [bind_eq_ok, okOr_eq_ok, hs, hpr] at h
  obtain ⟨mems, hme, found, hf, _, hu, _, hpe, hmt⟩ := h
  cases hf
  have hv : arguments = .object mems := by
    cases arguments with
    | object found => exact congrArg Value.object (some.inj hme)
    | _ => cases hme
  have hk : ∀ mem ∈ mems, ∃ prop, getKey mem.1 properties = some prop := by
    unfold checkUnknown at hu
    rw [if_pos hc, checkAll_eq_ok] at hu
    intro mem hm
    have hso := bailIf_eq_ok.mp (hu mem hm)
    rwa [isNone_iff_eq_none, ← ne_eq, ne_none_iff_exists'] at hso
  refine ⟨⟨mems, properties, required, hv, hs, fun key hke => ?_,
    fun mem hm => ?_⟩, mems, hv, fun mem hm => ?_⟩
  · unfold checkRequired at hpe
    rw [hr] at hpe
    have ha := checkAll_eq_ok.mp hpe key (mem_filterMap.mpr ⟨.string key, mem_map_of_mem hke, rfl⟩)
    have hso := bailIf_eq_ok.mp ha
    rwa [Bool.not_eq_true, isNone_eq_false_iff] at hso
  · obtain ⟨prop, hp⟩ := hk mem hm
    have hm := checkAll_eq_ok.mp hmt mem hm
    unfold checkMember at hm
    rw [hp] at hm
    obtain ⟨ht, he⟩ := unit_bind_eq_ok.mp hm
    exact ⟨prop, hp, (hre _ (mem_of_getKey hp)).satisfies ht he⟩
  · exact isSome_iff_exists.mpr (hk mem hm)

/-! ### Tools -/

theorem regular_of_members (hk : ∀ mem ∈ mems, mem.1 ∈ keywords)
    (hki : getKey "type" mems = some (.string name))
    (hn : name = "boolean" ∨ name = "string" ∨ name = "integer")
    (hb : ∀ mem ∈ mems, mem.1 ∈ ["minLength", "maxLength", "minimum", "maximum"] →
      ∃ n, mem.2 = nat n)
    (he : ∀ mem ∈ mems, mem.1 = "enum" → ∃ allowed, mem.2 = .array allowed) :
    Regular (.object mems) := by
  refine ⟨fun key h => ?_, ⟨name, (get_object).trans hki, hn⟩, fun key hke bound h => ?_,
    fun its h => ?_⟩
  · rw [get_object] at h
    obtain ⟨value, hv⟩ := isSome_iff_exists.mp h
    exact hk _ (mem_of_getKey hv)
  · rw [get_object] at h
    exact hb _ (mem_of_getKey h) hke
  · rw [get_object] at h
    exact he _ (mem_of_getKey h) rfl

/-- A property with a type and bounds, and keywords that constrain nothing. -/
theorem regular_bounded (hn : name = "boolean" ∨ name = "string" ∨ name = "integer")
    (hk : ∀ mem ∈ mems, mem.1 ∈ keywords ∧ mem.1 ≠ "enum")
    (hb : ∀ mem ∈ mems, mem.1 ≠ "description" → ∃ n, mem.2 = nat n) :
    Regular (.object (("type", .string name) :: mems)) := by
  refine regular_of_members (forall_mem_cons.mpr ⟨by simp [keywords], fun mem hm =>
    (hk mem hm).1⟩) (by rw [getKey_cons, if_pos rfl]) hn
    (forall_mem_cons.mpr ⟨by simp, fun mem hm hke => hb mem hm ?_⟩)
    (forall_mem_cons.mpr ⟨by simp, fun mem hm heq =>
      absurd heq (hk mem hm).2⟩)
  rintro heq
  rw [heq] at hke
  simp at hke

theorem regular_confirmed : ∀ prop ∈ confirmed, Regular prop.2 := by
  intro prop hm
  rw [confirmed, mem_singleton] at hm
  subst hm
  exact regular_bounded (by simp) (by simp [keywords]) (by simp)

theorem regular_positive : Regular positive :=
  regular_bounded (by simp) (by simp [keywords]) (by simp [nat])

theorem regular_merge {left right : List (String × Value)} (hl : ∀ prop ∈ left, Regular prop.2)
    (hr : ∀ prop ∈ right, Regular prop.2) :
    ∀ prop ∈ merge left right, Regular prop.2 := by
  unfold merge
  induction right generalizing left with
  | nil => exact hl
  | cons prop right ih =>
    obtain ⟨hp, hr⟩ := forall_mem_cons.mp hr
    refine ih (fun other hm => ?_) hr
    rcases mem_of_mem_putKey hm with rfl | hold
    · exact hp
    · exact hl other hold

/-- Every tool declares regular properties; one that only reads declares no confirmation. -/
structure Declares (tool : ToolDefinition) (properties : List (String × Value))
    (required : List String) : Prop where
  schema : tool.inputSchema = object properties required
  regular : ∀ property ∈ properties, Regular property.2
  reads : tool.policy.mutability = .readOnly →
    tool.policy.confirmation = .none ∧ getKey "confirmed" properties = none

theorem declares_empty {name description : String} {dataClass : DataClass} :
    Declares ⟨name, description, object [] [], read dataClass⟩ [] [] :=
  ⟨rfl, by simp, fun _ => ⟨rfl, rfl⟩⟩

theorem toolCatalog_declares : ∀ tool ∈ toolCatalog, ∃ properties required,
    Declares tool properties required := by
  intro tool hm
  simp only [toolCatalog, mem_cons, not_mem_nil, or_false] at hm
  rcases hm with rfl | rfl | rfl | rfl | rfl | rfl | rfl | rfl | rfl | rfl | rfl | rfl
  · exact ⟨_, _, declares_empty⟩
  · exact ⟨_, _, declares_empty⟩
  · refine ⟨_, _, rfl, ?_, fun _ => ⟨rfl, by simp [getKey_cons]; rfl⟩⟩
    simp only [forall_mem_cons, not_mem_nil, false_implies, implies_true, and_true]
    exact ⟨regular_bounded (by simp) (by simp [keywords]) (by simp [nat]),
      regular_bounded (by simp) (by simp [keywords]) (by simp [nat])⟩
  · exact ⟨_, _, declares_empty⟩
  · exact ⟨_, _, declares_empty⟩
  · exact ⟨_, _, declares_empty⟩
  · refine ⟨_, _, rfl, ?_, fun _ => ⟨rfl, by simp [getKey_cons]; rfl⟩⟩
    simp only [forall_mem_cons, not_mem_nil, false_implies, implies_true, and_true]
    exact ⟨regular_bounded (by simp) (by simp [keywords]) (by simp [nat]),
      regular_bounded (by simp) (by simp [keywords]) (by simp [nat])⟩
  · exact ⟨_, _, declares_empty⟩
  · refine ⟨_, _, rfl, ?_, fun h => by simp [mutation] at h⟩
    simp only [forall_mem_cons, not_mem_nil, false_implies, implies_true, and_true]
    exact ⟨regular_bounded (by simp) (by simp [keywords]) (by simp [nat]),
      regular_bounded (by simp) (by simp [keywords]) (by simp [nat]),
      regular_bounded (by simp) (by simp [keywords]) (by simp [nat])⟩
  · exact ⟨_, _, rfl, regular_merge regular_confirmed (by simp [regular_positive]),
      fun h => by simp [mutation] at h⟩
  · exact ⟨_, _, rfl, regular_merge regular_confirmed (by simp [regular_positive]),
      fun h => by simp [mutation] at h⟩
  · refine ⟨_, _, rfl, regular_merge regular_confirmed ?_, fun h => by simp [mutation] at h⟩
    rw [forall_mem_singleton]
    exact regular_of_members (by simp [keywords]) rfl (by simp) (by simp) (by simp)

/-! ### Calls -/

/-- A call of a tool in the catalog with arguments that meet its schema, with the capability and
the confirmation that the tool asks for. -/
def Permitted (capabilities : List String) (call : String × Value) : Prop :=
  ∃ tool ∈ toolCatalog, tool.name = call.1 ∧ validateArguments tool call.2 = .ok () ∧
    SatisfiesSchema tool.inputSchema call.2 ∧
    (tool.policy.mutability = .mutating → tool.name ∈ capabilities) ∧
    (tool.policy.confirmation = .required → call.2.get "confirmed" = some (.bool true))

theorem found_eq_some (h : toolCatalog.find? (fun tool => tool.name = name) = some tool) :
    tool ∈ toolCatalog ∧ tool.name = name :=
  ⟨mem_of_find?_eq_some h, by simpa using find?_some h⟩

theorem satisfies_of_mem (hm : tool ∈ toolCatalog) (h : validateArguments tool arguments = .ok ()) :
    SatisfiesSchema tool.inputSchema arguments := by
  obtain ⟨properties, required, hd⟩ := toolCatalog_declares tool hm
  exact (satisfies_of_validateArguments hd.schema hd.regular h).1

variable {found : Option Value}

theorem eq_true_of_asBool (h : found.bind asBool = some true)
    : found = some (.bool true) := by
  cases found with
  | none => cases h
  | some value =>
    cases value with
    | bool value => exact congrArg (fun b => some (bool b)) (some.inj h)
    | _ => cases h

/-- A message has at most one call, and only one that is permitted. -/
theorem callTool_calls (hca : server.catalog = toolCatalog) (params : Value) :
    (server.callTool pretty backend params).2.length ≤ 1 ∧
      ∀ call ∈ (server.callTool pretty backend params).2, Permitted server.capabilities call := by
  have hn : ([] : List (String × Value)).length ≤ 1 ∧
      ∀ call ∈ ([] : List (String × Value)), Permitted server.capabilities call :=
    ⟨Nat.zero_le 1, fun _ hme => absurd hme not_mem_nil⟩
  unfold callTool
  rw [hca]
  split
  · exact hn
  next name hna =>
    dsimp only
    split_ifs with ho
    · exact hn
    · split
      · exact hn
      next tool hf =>
        obtain ⟨hme, rfl⟩ := found_eq_some hf
        split
        · exact hn
        next hv =>
          split_ifs with hc hco
          · exact hn
          · exact hn
          · have hcl : Permitted server.capabilities
                (tool.name, (params.get "arguments").getD (.object [])) := by
              refine ⟨tool, hme, rfl, hv, satisfies_of_mem hme hv, fun hm => ?_, fun hr => ?_⟩
              · by_contra hno
                exact hc ⟨hm, hno⟩
              · by_contra hno
                exact hco ⟨hr, fun heq => hno (eq_true_of_asBool heq)⟩
            split
            · exact ⟨Nat.le_refl 1, forall_mem_singleton.mpr hcl⟩
            · exact ⟨Nat.le_refl 1, forall_mem_singleton.mpr hcl⟩

/-! ### Sessions -/

/-- A message and what handling it came to. -/
structure Exchange where
  request : Value
  response : Option Value
  calls : List (String × Value)

/-- The messages that a server is given one after the other. -/
def serve (pretty : Value → String) : McpServer → List (Value × Backend) → List Exchange
  | _, [] => []
  | server, (request, backend) :: messages =>
    ⟨request, (server.handle pretty backend request).response,
        (server.handle pretty backend request).calls⟩ ::
      serve pretty (server.handle pretty backend request).server messages

def HasMethod (request : Value) (method : String) : Prop :=
  request.get "method" = some (.string method)

/-- The message has an id that is a text or an integer. -/
def HasId (request id : Value) : Prop :=
  request.get "id" = some id ∧ ((∃ text, id = .string text) ∨
    (∃ n, id = .number (.posInt n)) ∨ ∃ n, id = .number (.negInt n))

def IsNotification (request : Value) : Prop :=
  request.get "jsonrpc" = some (.string "2.0") ∧ (∃ method, HasMethod request method) ∧
    request.get "id" = none

/-- A request to initialize was answered with a result. -/
def Initialized (log : List Exchange) : Prop :=
  ∃ exchange ∈ log, HasMethod exchange.request "initialize" ∧
    ∃ id result, exchange.response = some (resultResponse id result)

/-- The notification that follows the initialization was received. -/
def Opened (log : List Exchange) : Prop :=
  ∃ before exchange after, log = before ++ exchange :: after ∧ Initialized before ∧
    IsNotification exchange.request ∧ HasMethod exchange.request "notifications/initialized"

/-- What a session has been through when it has a lifecycle. -/
def Reached (log : List Exchange) : Lifecycle → Prop
  | .uninitialized => True
  | .initializing => Initialized log
  | .ready => Opened log

theorem asStr_bind : found.bind asStr = some name ↔ found = some (.string name) := by
  cases found with
  | none => simp
  | some value => cases value <;> simp [asStr]

theorem reached_snoc {log : List Exchange} {exchange : Exchange} {lifecycle : Lifecycle}
    (h : Reached log lifecycle) : Reached (log ++ [exchange]) lifecycle := by
  cases lifecycle with
  | uninitialized => trivial
  | initializing =>
    obtain ⟨opn, hm, ho⟩ := h
    exact ⟨opn, mem_append_left _ hm, ho⟩
  | ready =>
    obtain ⟨pre, note, after, rfl, ho⟩ := h
    exact ⟨pre, note, after ++ [exchange], by simp, ho⟩

theorem validRequestId_eq_some :
    validRequestId found = some id ↔ found = some id ∧ ((∃ text, id = .string text) ∨
      (∃ n, id = .number (.posInt n)) ∨ ∃ n, id = .number (.negInt n)) := by
  constructor
  · intro h
    unfold validRequestId at h
    split at h
    · cases h
      exact ⟨rfl, .inl ⟨_, rfl⟩⟩
    · cases h
      exact ⟨rfl, .inr (.inl ⟨_, rfl⟩)⟩
    · cases h
      exact ⟨rfl, .inr (.inr ⟨_, rfl⟩)⟩
    · cases h
  · rintro ⟨rfl, ⟨text, rfl⟩ | ⟨n, rfl⟩ | ⟨n, rfl⟩⟩ <;> rfl

@[simp] theorem get_id_errorResponse {code : ℕ} {msg : String} :
    (errorResponse id code msg).get "id" = some id := by
  simp [errorResponse, getKey_cons]

@[simp] theorem get_id_resultResponse {res : Value} :
    (resultResponse id res).get "id" = some id := by
  simp [resultResponse, getKey_cons]

@[simp] theorem get_id_reply {res : Except (ℕ × String) Value} :
    (reply id res).get "id" = some id := by
  cases res <;> simp [reply]

/-- What a server does with a message. -/
structure Handles (server : McpServer) (request : Value) (handled : Handled) : Prop where
  catalog : handled.server.catalog = server.catalog
  capabilities : handled.server.capabilities = server.capabilities
  ready : handled.calls ≠ [] → server.lifecycle = .ready
  permitted : server.catalog = toolCatalog → handled.calls.length ≤ 1 ∧
    ∀ call ∈ handled.calls, Permitted server.capabilities call
  reached : ∀ log calls, Reached log server.lifecycle →
    Reached (log ++ [⟨request, handled.response, calls⟩]) handled.server.lifecycle
  answered : ∀ id, HasId request id →
    ∃ response, handled.response = some response ∧ response.get "id" = some id
  silent : IsNotification request → handled.response = none

/-- A message that changes nothing and is answered. -/
theorem handles_answered {resp : Value} (hid : ∀ id, HasId req id →
    resp.get "id" = some id) (hs : ¬ IsNotification req) :
    Handles server req ⟨server, some resp, []⟩ where
  catalog := rfl
  capabilities := rfl
  ready h := absurd rfl h
  permitted _ := ⟨Nat.zero_le 1, fun _ hm => absurd hm not_mem_nil⟩
  reached _ _ h := reached_snoc h
  answered id h := ⟨resp, rfl, hid id h⟩
  silent h := absurd h hs

theorem initializeServer_cases (server : McpServer) (req : Value) :
    (∃ err, server.initializeServer req = (server, .error err)) ∨
      server.initializeServer req =
        ({ server with lifecycle := .initializing }, .ok (initializeResult req)) := by
  unfold initializeServer
  split_ifs
  · exact .inl ⟨_, rfl⟩
  · split
    · exact .inl ⟨_, rfl⟩
    · split_ifs
      · exact .inl ⟨_, rfl⟩
      · exact .inl ⟨_, rfl⟩
      · split
        · exact .inl ⟨_, rfl⟩
        · split_ifs
          · exact .inl ⟨_, rfl⟩
          · exact .inr rfl

theorem handles_respond (hid : req.get "id" = some id) (hm : HasMethod req method) :
    Handles server req (server.respond pretty backend id req method) := by
  have hs : ¬ IsNotification req := by
    rintro ⟨-, -, hn⟩
    rw [hid] at hn
    cases hn
  have hsa {resp : Value} (hr : resp.get "id" = some id) :
      ∀ other, HasId req other → resp.get "id" = some other :=
    fun other ho => hr.trans (hid.symm.trans ho.1)
  unfold respond
  split_ifs with hl hop hp hli hca
  · exact handles_answered (hsa get_id_errorResponse) hs
  · subst hop
    rcases initializeServer_cases server req with ⟨err, he⟩ | hd
    · rw [he]
      exact handles_answered (hsa get_id_reply) hs
    · rw [hd]
      refine ⟨rfl, rfl, fun h => absurd rfl h,
        fun _ => ⟨Nat.zero_le 1, fun _ hme => absurd hme not_mem_nil⟩,
        fun log cs _ => ?_, fun other ho => ⟨_, rfl, hsa get_id_reply other ho⟩,
        fun h => absurd h hs⟩
      exact ⟨_, mem_append_right _ (mem_singleton_self _), hm, id, _, rfl⟩
  · exact handles_answered (hsa get_id_resultResponse) hs
  · exact handles_answered (hsa get_id_resultResponse) hs
  · have hre : server.lifecycle = .ready := by
      by_contra hno
      exact hl ⟨hop, hp, hno⟩
    exact ⟨rfl, rfl, fun _ => hre, fun hc => callTool_calls hc _,
      fun _ _ h => reached_snoc h, fun other ho => ⟨_, rfl, hsa get_id_reply other ho⟩,
      fun h => absurd h hs⟩
  · exact handles_answered (hsa get_id_errorResponse) hs

theorem handles_notification (hms : IsNotification req) (hm : HasMethod req method) :
    Handles server req ⟨server.handleNotification method, none, []⟩ := by
  refine ⟨?_, ?_, fun h => absurd rfl h,
    fun _ => ⟨Nat.zero_le 1, fun _ hme => absurd hme not_mem_nil⟩, fun log cs h => ?_,
    fun id hid => ?_, fun _ => rfl⟩
  · unfold handleNotification
    split_ifs <;> rfl
  · unfold handleNotification
    split_ifs <;> rfl
  · unfold handleNotification
    split_ifs with ho
    · obtain ⟨rfl, hl⟩ := ho
      rw [hl] at h
      exact ⟨log, _, [], rfl, h, hms, hm⟩
    · exact reached_snoc h
  · rw [HasId, hms.2.2] at hid
    cases hid.1

theorem handles_handle (server : McpServer) (req : Value) :
    Handles server req (server.handle pretty backend req) := by
  have hv {id : Value} (hid : HasId req id) :
      validRequestId (req.get "id") = some id := (validRequestId_eq_some).mpr hid
  unfold handle
  split
  next hn =>
    have hg (key : String) : req.get key = none := by
      rw [Value.get, hn]
      rfl
    refine handles_answered (fun id hid => ?_) fun h => ?_
    · rw [HasId, hg] at hid
      cases hid.1
    · rw [IsNotification, hg] at h
      cases h.1
  next =>
    dsimp only
    split
    next hve =>
      refine handles_answered (fun id hid => ?_) fun h => hve ((asStr_bind).mpr h.1)
      rw [hv hid]
      exact get_id_errorResponse
    next hve =>
      split
      next hn =>
        refine handles_answered (fun id hid => ?_) fun h => ?_
        · rw [hv hid]
          exact get_id_errorResponse
        · obtain ⟨-, ⟨method, hm⟩, -⟩ := h
          rw [(asStr_bind).mpr hm] at hn
          cases hn
      next method hm =>
        split
        next id hid =>
          exact handles_respond ((validRequestId_eq_some).mp hid).1 ((asStr_bind).mp hm)
        next hi =>
          split
          next hs =>
            refine handles_answered (fun id hid => ?_) fun h => ?_
            · rw [hv hid] at hi
              cases hi
            · rw [h.2.2] at hs
              cases hs
          next hn =>
            have hm := (asStr_bind).mp hm
            exact handles_notification ⟨(asStr_bind).mp (not_not.mp hve), ⟨method, hm⟩,
              not_isSome_iff_eq_none.mp hn⟩ hm

/-- Every message of a session is handled by a server with the tools and the capabilities of the
first one, after what its lifecycle says. -/
theorem serve_spec {msgs : List (Value × Backend)} {log pre after : List Exchange}
    {exchange : Exchange} (hca : server.catalog = toolCatalog)
    (hr : Reached log server.lifecycle)
    (h : serve pretty server msgs = pre ++ exchange :: after) :
    ∃ (cur : McpServer) (handled : Handled), Handles cur exchange.request handled ∧
      cur.catalog = toolCatalog ∧ cur.capabilities = server.capabilities ∧
      Reached (log ++ pre) cur.lifecycle ∧
      handled.response = exchange.response ∧ handled.calls = exchange.calls := by
  induction msgs generalizing server log pre with
  | nil => cases pre <;> simp [serve] at h
  | cons msg msgs ih =>
    obtain ⟨req, backend⟩ := msg
    have hh : Handles server req (server.handle pretty backend req) :=
      handles_handle server req
    rw [serve] at h
    cases pre with
    | nil =>
      obtain ⟨rfl, -⟩ := List.cons.inj h
      exact ⟨server, _, hh, hca, rfl, by rwa [append_nil], rfl, rfl⟩
    | cons fst pre =>
      obtain ⟨rfl, hre⟩ := List.cons.inj h
      obtain ⟨cur, handled, hcu, ht, hc, hl, hs⟩ :=
        ih (hh.catalog.trans hca) (hh.reached log _ hr) hre
      refine ⟨cur, handled, hcu, ht, hc.trans hh.capabilities, ?_, hs⟩
      rwa [append_assoc, singleton_append] at hl

theorem map_request_serve (msgs : List (Value × Backend)) :
    (serve pretty server msgs).map Exchange.request = msgs.map Prod.fst := by
  induction msgs generalizing server with
  | nil => rfl
  | cons msg msgs ih => exact congrArg (msg.1 :: ·) ih

/-! ### Tools of the agent -/

/-- A call of a tool that only reads, with the arguments of the agent. -/
def ReadsOnly (name : String) (arguments : Value) (call : String × Value) : Prop :=
  call = (name, arguments) ∧ arguments.get "confirmed" = none ∧
    ∃ tool ∈ toolCatalog, tool.name = name ∧ tool.policy.mutability = .readOnly ∧
      tool.policy.confirmation = .none ∧ validateArguments tool arguments = .ok () ∧
      SatisfiesSchema tool.inputSchema arguments

/-- A call of a mutating tool with the arguments of the agent, which have no confirmation, and the
confirmation that the tool asks for. -/
def Confirms (name : String) (arguments : Value) (call : String × Value) : Prop :=
  call.1 = name ∧ arguments.get "confirmed" = none ∧
    (∀ key, key ≠ "confirmed" → call.2.get key = arguments.get key) ∧
    ∃ tool ∈ toolCatalog, tool.name = name ∧ tool.policy.mutability = .mutating ∧
      validateArguments tool call.2 = .ok () ∧ SatisfiesSchema tool.inputSchema call.2 ∧
      (tool.policy.confirmation = .required → call.2.get "confirmed" = some (.bool true))

theorem executeReadOnlyTool_calls :
    ∀ call ∈ (executeReadOnlyTool backend name arguments).2, ReadsOnly name arguments call := by
  unfold executeReadOnlyTool
  split
  · simp
  next tool hf =>
    obtain ⟨hm, hn⟩ := found_eq_some hf
    split
    · simp
    next hr =>
      split
      · simp
      next hv =>
        obtain ⟨properties, required, hd⟩ := toolCatalog_declares tool hm
        obtain ⟨hs, mems, rfl, hk⟩ := satisfies_of_validateArguments hd.schema hd.regular hv
        obtain ⟨hno, ha⟩ := hd.reads (not_not.mp hr)
        refine forall_mem_singleton.mpr ⟨rfl, ?_, tool, hm, hn, not_not.mp hr, hno, hv, hs⟩
        rw [get_object]
        by_contra hso
        obtain ⟨value, hva⟩ := ne_none_iff_exists'.mp hso
        have hin := hk _ (mem_of_getKey hva)
        rw [ha] at hin
        cases hin

theorem executeConfirmedTool_calls :
    ∀ call ∈ (executeConfirmedTool backend name arguments).2, Confirms name arguments call := by
  unfold executeConfirmedTool
  split
  · simp
  next tool hf =>
    obtain ⟨hme, hn⟩ := found_eq_some hf
    split
    · simp
    next hmu =>
      split
      · simp
      next mems hm =>
        split
        · simp
        next ha =>
          dsimp only
          split
          · simp
          next hv =>
            have hg (key : String) : arguments.get key = getKey key mems := by
              cases arguments with
              | object found => rw [get_object, some.inj hm]
              | _ => cases hm
            rw [not_isSome_iff_eq_none] at ha
            refine forall_mem_singleton.mpr ⟨rfl, (hg _).trans ha, fun key hk => ?_,
              tool, hme, hn, not_not.mp hmu, hv, satisfies_of_mem hme hv,
              fun hr => ?_⟩
            · rw [get_object, hg]
              split_ifs
              · exact getKey_putKey_of_ne hk
              · rfl
            · rw [get_object, if_pos hr]
              exact getKey_putKey_self

/-- In every session the backend is called only after the initialization and its notification, and
only with calls that are permitted. A message with an id has one response, with that id, and a
notification has none. The tools of the agent reach the backend with arguments that were checked,
and with no confirmation but the one that is added. -/
theorem mcp_gate (pretty : Value → String) (capabilities : List String)
    (messages : List (Value × Backend)) :
    (serve pretty (.new capabilities) messages).map Exchange.request = messages.map Prod.fst ∧
    (∀ before exchange after,
      serve pretty (.new capabilities) messages = before ++ exchange :: after →
        exchange.calls.length ≤ 1 ∧
        (∀ call ∈ exchange.calls, Opened before ∧ Permitted capabilities call) ∧
        (∀ id, HasId exchange.request id →
          ∃ response, exchange.response = some response ∧ response.get "id" = some id) ∧
        (IsNotification exchange.request → exchange.response = none)) ∧
    ∀ (backend : Backend) (name : String) (arguments : Value),
      (∀ call ∈ (executeReadOnlyTool backend name arguments).2, ReadsOnly name arguments call) ∧
        ∀ call ∈ (executeConfirmedTool backend name arguments).2, Confirms name arguments call := by
  refine ⟨map_request_serve messages, fun before exchange after h => ?_,
    fun backend name arguments => ⟨executeReadOnlyTool_calls, executeConfirmedTool_calls⟩⟩
  have hs : Reached [] (new capabilities).lifecycle := trivial
  obtain ⟨cur, handled, hh, hct, hc, hr, hre, hcs⟩ := serve_spec rfl hs h
  rw [← hre, ← hcs]
  have hp := hh.permitted hct
  refine ⟨hp.1, fun call hcl => ⟨?_, ?_⟩, hh.answered, hh.silent⟩
  · rw [hh.ready (ne_nil_of_mem hcl)] at hr
    exact hr
  · have hca := hp.2 call hcl
    rw [hc] at hca
    exact hca

end FocalDesk.Mcp
