import FocalDesk.Permission.Separation

/-! The permission manager: stored rules, the policy, the prompt, and what grants promise. -/
namespace FocalDesk
open Library

structure PermissionRequest where
  app : AppMetadata
  resource : PermissionResource
  target : PermissionTarget
deriving DecidableEq

def PermissionRequest.ruleId (request : PermissionRequest) : RuleId :=
  (request.app.identity, request.resource, request.target)

structure UserPromptResponse where
  decision : PermissionDecision
  scope : PermissionScope
deriving DecidableEq

inductive PermissionError where
  | store (error : String)
  | invalidRequest (error : String)
  | promptFailed (error : String)
deriving DecidableEq

/-- A token is the process id and the number of the grant. -/
structure GrantToken where
  process : ℕ
  number : ℕ
deriving DecidableEq

structure ActiveGrant where
  token : GrantToken
  app : AppIdentity
  resource : PermissionResource
  target : PermissionTarget
  createdAt : SystemTime
  expiresAt : Option SystemTime

/-- A policy decides by the request alone. -/
abbrev PolicyEngine := PermissionRequest → PermissionDecision

def defaultPolicy : PolicyEngine := fun request =>
  match request.resource with
  | .screenshot | .screencast | .remoteInput | .clipboardRead => .ask
  | .notifications => .allow
  | _ => .ask

structure PermissionManager where
  store : PersistentPermissionStore
  activeGrants : List ActiveGrant
  process : ℕ
  nextGrantToken : ℕ

/-- What a call to `authorize` meets outside the manager: the clock, the answer of the user
should there be a prompt, and how the save of a rule ends. -/
structure PermissionSurroundings where
  now : SystemTime
  answer : UserPromptResponse
  saved : Except PermissionError Unit

/-- The result of `authorize`, and whether the user was prompted. -/
structure AuthorizeReply where
  result : Except PermissionError (Option GrantToken)
  prompted : Bool

namespace PermissionManager

def issueSessionGrant (manager : PermissionManager) (request : PermissionRequest) (now : SystemTime)
    : PermissionManager × GrantToken :=
  let token : GrantToken := { process := manager.process, number := manager.nextGrantToken }
  ({ manager with
      activeGrants := manager.activeGrants ++
        [{ token, app := request.app.identity, resource := request.resource,
           target := request.target, createdAt := now, expiresAt := none }]
      nextGrantToken := manager.nextGrantToken + 1 }, token)

def grant (manager : PermissionManager) (request : PermissionRequest) (now : SystemTime)
    (prompted : Bool) : PermissionManager × AuthorizeReply :=
  let (manager, token) := manager.issueSessionGrant request now
  (manager, { result := .ok (some token), prompted })

def refuse (manager : PermissionManager) (prompted : Bool) : PermissionManager × AuthorizeReply :=
  (manager, { result := .ok none, prompted })

def resolveExistingRule (manager : PermissionManager) (request : PermissionRequest)
    (now : SystemTime) (existing : PermissionState) : PermissionManager × AuthorizeReply :=
  match existing.decision with
  | .allow => manager.grant request now false
  | .deny | .ask => manager.refuse false

/-- The rule that a persistent answer stores. -/
def answeredRule (request : PermissionRequest) (decision : PermissionDecision) (now : SystemTime)
    : PermissionState :=
  { app := request.app.identity, resource := request.resource, target := request.target,
    decision, scope := .persistent, updatedAt := now }

/-- Stores a persistent answer. A rule that cannot be saved is in the store nevertheless. -/
def storeAnswer (manager : PermissionManager) (request : PermissionRequest)
    (decision : PermissionDecision) (around : PermissionSurroundings) :
    PermissionManager × Except PermissionError Unit :=
  if around.answer.scope = .persistent then
    ({ manager with store := manager.store.set (answeredRule request decision around.now) },
      around.saved)
  else (manager, .ok ())

/-- `PermissionManager::authorize` -/
def authorize (policy : PolicyEngine) (manager : PermissionManager) (request : PermissionRequest)
    (around : PermissionSurroundings) : PermissionManager × AuthorizeReply :=
  match manager.store.get request.ruleId with
  | some existing => manager.resolveExistingRule request around.now existing
  | none =>
    match policy request with
    | .allow => manager.grant request around.now false
    | .deny => manager.refuse false
    | .ask =>
      match around.answer.decision with
      | .allow =>
        match manager.storeAnswer request .allow around with
        | (manager, .error error) => (manager, { result := .error error, prompted := true })
        | (manager, .ok ()) => manager.grant request around.now true
      | .deny =>
        match manager.storeAnswer request .deny around with
        | (manager, .error error) => (manager, { result := .error error, prompted := true })
        | (manager, .ok ()) => manager.refuse true
      | .ask => manager.refuse true

end PermissionManager

inductive PermissionEvent where
  | authorize (request : PermissionRequest) (around : PermissionSurroundings)
  | revoke (rule : RuleId)

def PermissionEvent.perform (policy : PolicyEngine) (manager : PermissionManager) :
    PermissionEvent → PermissionManager
  | .authorize request around => (manager.authorize policy request around).1
  | .revoke rule => { manager with store := manager.store.revoke rule }

/-- The manager after requests and revocations. -/
def PermissionManager.after (policy : PolicyEngine) (manager : PermissionManager)
    (events : List PermissionEvent) : PermissionManager :=
  events.foldl (PermissionEvent.perform policy) manager

/-! What an answer means for later requests. -/

variable {policy : PolicyEngine} {manager mgr : PermissionManager} {request req : PermissionRequest}
  {around : PermissionSurroundings} {event : PermissionEvent} {evs : List PermissionEvent}
  {id : RuleId} {rule : PermissionState}

/-- The user is prompted and gives this answer. -/
def Answered (policy : PolicyEngine) (manager : PermissionManager) (request : PermissionRequest)
    (around : PermissionSurroundings) (decision : PermissionDecision) (scope : PermissionScope) :
    Prop :=
  (manager.authorize policy request around).2.prompted = true ∧ around.answer = ⟨decision, scope⟩

def Granted (policy : PolicyEngine) (manager : PermissionManager) (request : PermissionRequest)
    (around : PermissionSurroundings) : Prop :=
  ∃ token, (manager.authorize policy request around).2.result = .ok (some token)

def GrantedSilently (policy : PolicyEngine) (manager : PermissionManager)
    (request : PermissionRequest) (around : PermissionSurroundings) : Prop :=
  (manager.authorize policy request around).2.prompted = false ∧
    Granted policy manager request around

/-- The stored rule allows the request or, where there is none, the policy does. -/
def AllowsOutright (policy : PolicyEngine) (manager : PermissionManager)
    (request : PermissionRequest) : Prop :=
  ((manager.store.get request.ruleId).map PermissionState.decision).getD (policy request) = .allow

/-- The rule of a request or colliding one is revoked by the event. -/
def PermissionEvent.Revokes (event : PermissionEvent) (id : RuleId) : Prop :=
  ∃ revoked, event = .revoke revoked ∧ permissionKey revoked = permissionKey id

theorem storeAnswer_store (mgr : PermissionManager) (req : PermissionRequest)
    (around : PermissionSurroundings) (decision : PermissionDecision) :
    (mgr.storeAnswer req decision around).1.store =
      if around.answer.scope = .persistent then
        mgr.store.set (PermissionManager.answeredRule req decision around.now)
      else mgr.store := by
  unfold PermissionManager.storeAnswer
  split <;> rfl

/-- Unless there is no rule and the policy asks, a request is granted or refused at once. -/
theorem authorize_of_quiet (around : PermissionSurroundings)
    (hq : ¬ (mgr.store.get req.ruleId = none ∧ policy req = .ask)) :
    AllowsOutright policy mgr req ∧
        mgr.authorize policy req around = mgr.grant req around.now false ∨
      ¬ AllowsOutright policy mgr req ∧
        mgr.authorize policy req around = mgr.refuse false := by
  unfold PermissionManager.authorize AllowsOutright
  cases hg : mgr.store.get req.ruleId with
  | some old =>
    cases hd : old.decision <;> simp [PermissionManager.resolveExistingRule, hd]
  | none =>
    cases hp : policy req with
    | allow => simp
    | deny => simp
    | ask => exact absurd ⟨hg, hp⟩ hq

/-- A prompt leaves the store as the answer says. -/
theorem authorize_of_ask (around : PermissionSurroundings)
    (hg : mgr.store.get req.ruleId = none) (hp : policy req = .ask)
    : (mgr.authorize policy req around).2.prompted ∧
      (mgr.authorize policy req around).1.store =
        match around.answer.decision with
        | .ask => mgr.store
        | decision => (mgr.storeAnswer req decision around).1.store := by
  simp only [PermissionManager.authorize, hg, hp]
  cases around.answer.decision with
  | allow =>
    cases hs : mgr.storeAnswer req .allow around with
    | mk sto saved => cases saved <;> simp [PermissionManager.grant,
        PermissionManager.issueSessionGrant, hs]
  | deny =>
    cases hs : mgr.storeAnswer req .deny around with
    | mk sto saved => cases saved <;> simp [PermissionManager.refuse, hs]
  | ask => exact ⟨rfl, rfl⟩

/-- The user is prompted when there is no rule and the policy asks. -/
theorem prompted_iff : (mgr.authorize policy req around).2.prompted ↔
    mgr.store.get req.ruleId = none ∧ policy req = .ask := by
  by_cases hq : mgr.store.get req.ruleId = none ∧ policy req = .ask
  · simp [authorize_of_ask around hq.1 hq.2, hq]
  · rcases authorize_of_quiet around hq with ⟨-, h⟩ | ⟨-, h⟩ <;>
      simp [h, hq, PermissionManager.grant, PermissionManager.refuse]

theorem not_ask_of_quiet (h : (mgr.authorize policy req around).2.prompted = false) :
    ¬ (mgr.store.get req.ruleId = none ∧ policy req = .ask) := by
  intro hq
  rw [(prompted_iff).mpr hq] at h
  cases h

theorem grantedSilently_iff :
    GrantedSilently policy mgr req around ↔ AllowsOutright policy mgr req := by
  unfold GrantedSilently Granted
  cases hp : (mgr.authorize policy req around).2.prompted with
  | true =>
    obtain ⟨hg, hpol⟩ := (prompted_iff).mp hp
    simp [AllowsOutright, hg, hpol]
  | false =>
    rcases authorize_of_quiet around (not_ask_of_quiet hp) with ⟨ha, h⟩ | ⟨ha, h⟩ <;>
      simp [h, ha, PermissionManager.grant, PermissionManager.refuse]

/-- The store after a prompt is the one that the answer leaves. -/
theorem authorize_store_of_ask (hg : mgr.store.get req.ruleId = none)
    (hpol : policy req = .ask) : (mgr.authorize policy req around).1.store =
      match around.answer.decision with
      | .ask => mgr.store
      | decision => (mgr.storeAnswer req decision around).1.store :=
  (authorize_of_ask around hg hpol).2

theorem authorize_store_of_quiet (h : (mgr.authorize policy req around).2.prompted = false)
    :
    (mgr.authorize policy req around).1.store = mgr.store := by
  rcases authorize_of_quiet around (not_ask_of_quiet h) with ⟨-, h⟩ | ⟨-, h⟩ <;>
    simp [h, PermissionManager.grant, PermissionManager.refuse, PermissionManager.issueSessionGrant]

/-- A rule stays in the store until it is revoked: requests only add rules where there is none. -/
theorem get_perform (h : mgr.store.get id = some rule) (hr : ¬ event.Revokes id) :
    (event.perform policy mgr).store.get id = some rule := by
  cases event with
  | revoke revoked =>
    have hne : permissionKey revoked ≠ permissionKey id := by
      intro heq
      exact hr ⟨revoked, rfl, heq⟩
    exact (PersistentPermissionStore.get_revoke_of_ne hne).trans h
  | authorize req around =>
    simp only [PermissionEvent.perform]
    cases hp : (mgr.authorize policy req around).2.prompted with
    | false => rw [authorize_store_of_quiet hp, h]
    | true =>
      obtain ⟨hg, hpo⟩ := (prompted_iff).mp hp
      -- The rule that is added has another key, since none was found under this one.
      have hne : permissionKey req.ruleId ≠ permissionKey id := by
        intro heq
        simp only [PersistentPermissionStore.get, heq, Option.map_eq_none_iff] at hg
        simp [PersistentPermissionStore.get, hg] at h
      have hs : ∀ decision, (mgr.storeAnswer req decision around).1.store.get id =
          some rule := by
        intro decision
        rw [storeAnswer_store]
        split
        · exact (PersistentPermissionStore.get_set_of_ne
            (PermissionManager.answeredRule req decision around.now) hne).trans h
        · exact h
      rw [authorize_store_of_ask hg hpo]
      cases around.answer.decision with
      | allow => exact hs .allow
      | deny => exact hs .deny
      | ask => exact h

theorem get_after_events (h : mgr.store.get id = some rule)
    (hr : ∀ event ∈ evs, ¬ event.Revokes id) :
    (mgr.after policy evs).store.get id = some rule := by
  induction evs generalizing mgr with
  | nil => exact h
  | cons event evs ih =>
    obtain ⟨hev, he⟩ := List.forall_mem_cons.mp hr
    exact ih (get_perform h hev) he

/-- A persistent answer is found by every later request until it is revoked. -/
theorem get_of_answered {decision : PermissionDecision} (hd : decision ≠ .ask)
    (h : Answered policy mgr req around decision .persistent)
    (hr : ∀ event ∈ evs, ¬ event.Revokes req.ruleId) :
    (mgr.after policy (.authorize req around :: evs)).store.get req.ruleId =
      some (PermissionManager.answeredRule req decision around.now) := by
  obtain ⟨hp, ha⟩ := h
  obtain ⟨hg, hpo⟩ := (prompted_iff).mp hp
  have hs := storeAnswer_store mgr req around decision
  rw [ha, if_pos rfl] at hs
  have hst : (mgr.authorize policy req around).1.store =
      mgr.store.set (PermissionManager.answeredRule req decision around.now) := by
    rw [authorize_store_of_ask hg hpo, ha]
    cases decision with
    | allow => exact hs
    | deny => exact hs
    | ask => exact absurd rfl hd
  have hf : (mgr.authorize policy req around).1.store.get req.ruleId =
      some (PermissionManager.answeredRule req decision around.now) := by
    rw [hst]
    exact PersistentPermissionStore.get_set_of_eq rfl
  change ((mgr.authorize policy req around).1.after policy evs).store.get _ = _
  exact get_after_events hf hr

/-- What an answer means for the same request later on. After Allow for the session it is granted
without a prompt exactly when the store or the policy allows it by then. After Allow for good it
is, and after Deny for good it is not granted, until the rule is revoked. -/
theorem grant_scopes_iff (policy : PolicyEngine) (start : PermissionManager)
    (before : List PermissionEvent) :
    let first := start.after policy before
    (∀ request around evs again around', again.ruleId = request.ruleId →
      Answered policy first request around .allow .session →
      let later := first.after policy (.authorize request around :: evs)
      (GrantedSilently policy later again around' ↔ AllowsOutright policy later again)) ∧
    (∀ request around evs again around', again.ruleId = request.ruleId →
      Answered policy first request around .allow .persistent →
      (∀ event ∈ evs, ¬ event.Revokes request.ruleId) →
      GrantedSilently policy (first.after policy (.authorize request around :: evs)) again
        around') ∧
    (∀ request around evs again around', again.ruleId = request.ruleId →
      Answered policy first request around .deny .persistent →
      (∀ event ∈ evs, ¬ event.Revokes request.ruleId) →
      ¬ Granted policy (first.after policy (.authorize request around :: evs)) again around') := by
  intro first
  refine ⟨?_, ?_, ?_⟩
  · intro request around evs again around' _ _ later
    exact grantedSilently_iff
  · intro request around evs again around' hs ha hr
    have hge := get_of_answered (by decide) ha hr
    apply (grantedSilently_iff).mpr
    rw [AllowsOutright, hs, hge]
    rfl
  · intro request around evs again around' hs ha hr hg
    have hge := get_of_answered (by decide) ha hr
    have hq : ((first.after policy (.authorize request around :: evs)).authorize policy
        again around').2.prompted = false := by
      apply Bool.eq_false_iff.mpr
      intro hp
      obtain ⟨hn, -⟩ := (prompted_iff).mp hp
      rw [hs, hge] at hn
      cases hn
    have hal := (grantedSilently_iff).mp ⟨hq, hg⟩
    rw [AllowsOutright, hs, hge] at hal
    cases hal

/-- A user who allowed a chat for the session. -/
def sessionAnswer : PermissionSurroundings :=
  { now := unixEpoch, answer := ⟨.allow, .session⟩, saved := .ok () }

def chatRequest : PermissionRequest :=
  { app := { identity := .executablePath "focaldesk-ai", pid := none, windowTitle := none,
             sandboxed := false }
    resource := .aiChat, target := .global }

/-- The second chat of a session is prompted for like the first. -/
theorem session_grant_prompts_again :
    let manager : PermissionManager :=
      { store := PersistentPermissionStore.empty, activeGrants := [], process := 1,
        nextGrantToken := 1 }
    let later := manager.after defaultPolicy [.authorize chatRequest sessionAnswer]
    Answered defaultPolicy manager chatRequest sessionAnswer .allow .session ∧
      Granted defaultPolicy manager chatRequest sessionAnswer ∧
      (later.authorize defaultPolicy chatRequest sessionAnswer).2.prompted = true := by
  have hg : PersistentPermissionStore.empty.get chatRequest.ruleId = none := by
    simp [PersistentPermissionStore.get, PersistentPermissionStore.empty]
  exact ⟨⟨(prompted_iff).mpr ⟨hg, rfl⟩, rfl⟩, ⟨_, rfl⟩, (prompted_iff).mpr ⟨hg, rfl⟩⟩

/-- The event is a request under the key of the rule, and the rule is its persistent answer. -/
def PermissionEvent.Answers (policy : PolicyEngine) (id : RuleId) (rule : PermissionState)
    (event : PermissionEvent) : Prop :=
  ∃ request around decision, event = .authorize request around ∧
    permissionKey request.ruleId = permissionKey id ∧ policy request = .ask ∧
    decision ≠ .ask ∧ around.answer = ⟨decision, .persistent⟩ ∧
    rule = { PermissionManager.answeredRule request decision around.now with app := id.1 }

theorem authorize_store_cases (mgr : PermissionManager) :
    (mgr.authorize policy req around).1.store = mgr.store ∨
      policy req = .ask ∧ ∃ decision, decision ≠ .ask ∧ around.answer = ⟨decision, .persistent⟩ ∧
        (mgr.authorize policy req around).1.store =
          mgr.store.set (PermissionManager.answeredRule req decision around.now) := by
  cases hp : (mgr.authorize policy req around).2.prompted with
  | false => exact .inl (authorize_store_of_quiet hp)
  | true =>
    obtain ⟨hg, hpo⟩ := (prompted_iff).mp hp
    rw [authorize_store_of_ask hg hpo]
    cases ha : around.answer with
    | mk decision scope => cases decision <;> cases scope <;> simp [storeAnswer_store, ha, hpo]

theorem answers_of_get_perform (h : (event.perform policy mgr).store.get id = some rule) :
    mgr.store.get id = some rule ∨ event.Answers policy id rule := by
  cases event with
  | revoke revoked =>
    by_cases hk : permissionKey revoked = permissionKey id
    · cases (PersistentPermissionStore.get_revoke_of_eq hk).symm.trans h
    · exact .inl ((PersistentPermissionStore.get_revoke_of_ne hk).symm.trans h)
  | authorize req around =>
    rw [PermissionEvent.perform] at h
    rcases authorize_store_cases mgr with hs | ⟨hpo, decision, hd, ha, hs⟩ <;> rw [hs] at h
    · exact .inl h
    · let answered := PermissionManager.answeredRule req decision around.now
      by_cases hk : permissionKey answered.ruleId = permissionKey id
      · rw [PersistentPermissionStore.get_set_of_eq hk, Option.some.injEq] at h
        exact .inr ⟨req, around, decision, rfl, hk, hpo, hd, ha, h.symm⟩
      · exact .inl ((PersistentPermissionStore.get_set_of_ne answered hk).symm.trans h)

theorem answers_of_get_after (h : (mgr.after policy evs).store.get id = some rule) :
    mgr.store.get id = some rule ∨ ∃ event ∈ evs, event.Answers policy id rule := by
  induction evs generalizing mgr with
  | nil => exact .inl h
  | cons event evs ih =>
    rcases ih h with h | ⟨later, hm, ha⟩
    · exact (answers_of_get_perform h).imp_right fun ha => ⟨event, by simp, ha⟩
    · exact .inr ⟨later, by simp [hm], ha⟩

/-- Whatever happens, a rule is found as it was at first or as the user answered it for good. -/
theorem stored_rules_answered (policy : PolicyEngine) (start : PermissionManager)
    (events : List PermissionEvent) (id : RuleId) :
    let found := (start.after policy events).store.get id
    found = none ∨ found = start.store.get id ∨
      ∃ event ∈ events, ∃ rule, found = some rule ∧ event.Answers policy id rule := by
  intro found
  cases hf : found with
  | none => exact .inl rfl
  | some rule =>
    rcases answers_of_get_after hf with h | ⟨event, hm, ha⟩
    · exact .inr (.inl h.symm)
    · exact .inr (.inr ⟨event, hm, rule, rfl, ha⟩)

end FocalDesk
