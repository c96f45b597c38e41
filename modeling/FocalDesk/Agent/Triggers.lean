import FocalDesk.Agent.Origin
import FocalDesk.Library.RateLimit

/-! Triggers of agents: what fires them, and the two histories their limits are read from. -/
namespace FocalDesk
open Library

structure TriggerFiring where
  runId : String
  agentId : String
  triggerId : String
  kind : AgentTriggerKind
  firedAtUnix : ℕ
deriving DecidableEq

/-- A firing of one trigger of an agent. -/
def TriggerFiring.isOf (agentId : String) (trigger : AgentTrigger) (firing : TriggerFiring) : Bool :=
  firing.agentId == agentId && firing.triggerId == trigger.id && firing.kind = trigger.kind

/-- How long the limits of a trigger look back. -/
def AgentTrigger.lookback (trigger : AgentTrigger) : ℕ := max trigger.cooldownSeconds 3600

structure TriggerService where
  agents : Service
  triggersSuspended : Bool
  /-- The rows of `agent_trigger_firings`, of a service with a run store. -/
  firingTable : List TriggerFiring
  /-- The firings that succeeded so far, in order. -/
  fired : List TriggerFiring

/-- How the store answers a firing: the query of its history, the registration, the row of the
firing and the writes of the run. -/
structure TriggerReply where
  history : Except String Unit
  register : RegisterReply
  firing : Except String Unit
  write : StoreReply

/-- `trigger_firings`, in the order of the rows. -/
def triggerFirings (table : List TriggerFiring) (agentId : String) (trigger : AgentTrigger)
    (since : ℕ) : List ℕ :=
  (table.filter fun firing => firing.isOf agentId trigger && decide (since ≤ firing.firedAtUnix)).map
    TriggerFiring.firedAtUnix

/-- `record_trigger_firing` -/
def recordTriggerFiring (table : List TriggerFiring) (firing : TriggerFiring) :
    List TriggerFiring :=
  (table.filter fun row => decide (firing.firedAtUnix - 86400 ≤ row.firedAtUnix)) ++ [firing]

def AgentRunStatus.isOf (agentId : String) (trigger : AgentTrigger) (run : AgentRunStatus) : Bool :=
  run.agentId == agentId && run.trigger.any fun source =>
    source.triggerId == trigger.id && source.kind = trigger.kind

namespace TriggerService

def new (definitions : BTreeMap String AgentDefinition) (stored : Bool) (unixNow instant : ℕ) :
    TriggerService :=
  { agents := .new definitions stored unixNow instant, triggersSuspended := false,
    firingTable := [], fired := [] }

/-- The times a firing is checked against. -/
def recentFirings (service : TriggerService) (agentId : String) (trigger : AgentTrigger) : List ℕ :=
  let now := service.agents.unixNow
  match service.agents.agentRunStore with
  | some _ => triggerFirings service.firingTable agentId trigger (now - trigger.lookback)
  | none =>
    (((service.agents.agentRuns.toList.map Prod.snd).filter
      (AgentRunStatus.isOf agentId trigger)).map AgentRunStatus.createdAtUnix).filter
        fun created => decide (now - created ≤ trigger.lookback)

/-- The checks of a firing. -/
def checkTrigger (service : TriggerService) (agentId triggerId : String)
    (history : Except String Unit) : Except String AgentTrigger := do
  bailIf (service.triggersSuspended = true) "agent triggers are globally suspended"
  let definition ← okOr service.agents.agentDefinitions[agentId]? ("unknown AI agent: " ++ agentId)
  let trigger ← okOr (definition.triggers.find? fun trigger => trigger.id == triggerId)
    ("unknown trigger " ++ triggerId ++ " for agent " ++ agentId)
  bailIf (trigger.enabled = false) "agent trigger is disabled"
  if service.agents.agentRunStore.isSome then history
  let now := service.agents.unixNow
  let recent := service.recentFirings agentId trigger
  bailIf (∃ created ∈ recent, now - created < trigger.cooldownSeconds)
    "agent trigger is in its cooldown window"
  bailIf (trigger.maxRunsPerHour ≤ recent.countP fun created => decide (now - created < 3600))
    "agent trigger reached its hourly run limit"
  return trigger

/-- The request of a firing. -/
def triggerRequest (agentId : String) (trigger : AgentTrigger) : AgentRequest :=
  { objective := trigger.objective, agentId := some agentId, provider := none, model := none }

/-- The outcome of the registration of a firing, and of its row when there is a store. -/
def fireResult (config : ServiceConfig) (agents : Service) (agentId : String)
    (trigger : AgentTrigger) (runId leaseId : String) (reply : TriggerReply) :
    Except String Unit := do
  (agents.registerAgentRun config (triggerRequest agentId trigger) runId leaseId
    (some ⟨trigger.id, trigger.kind⟩) none reply.register).2
  if agents.agentRunStore.isSome then reply.firing

/-- `fire_agent_trigger` -/
def fire (config : ServiceConfig) (service : TriggerService) (agentId triggerId runId
    leaseId : String) (reply : TriggerReply) : Option TriggerService :=
  match service.checkTrigger agentId triggerId reply.history with
  | .error _ => some service
  | .ok trigger =>
    (service.agents.issue runId leaseId).map fun agents =>
      let after := agents.fireAgentTrigger config (triggerRequest agentId trigger)
        ⟨trigger.id, trigger.kind⟩ runId leaseId reply.register reply.firing reply.write
      match fireResult config agents agentId trigger runId leaseId reply with
      | .error _ => { service with agents := after }
      | .ok () =>
        let firing : TriggerFiring :=
          { runId, agentId, triggerId := trigger.id, kind := trigger.kind,
            firedAtUnix := agents.unixNow }
        { service with
          agents := after
          firingTable :=
            if agents.agentRunStore.isSome then recordTriggerFiring service.firingTable firing
            else service.firingTable
          fired := service.fired ++ [firing] }

end TriggerService

inductive TriggerEvent where
  | agents (event : ServiceEvent)
  | setTriggersSuspended (suspended : Bool)
  | fire (agentId triggerId runId leaseId : String) (reply : TriggerReply)

/-- A firing that goes around the checks is no step of the service. -/
def isFiring : ServiceEvent → Bool
  | .fireAgentTrigger _ _ _ _ _ _ _ => true
  | _ => false

namespace TriggerService

def step (config : ServiceConfig) (service : TriggerService) : TriggerEvent → Option TriggerService
  | .agents event =>
    if isFiring event then none
    else (service.agents.step config event).map fun agents => { service with agents }
  | .setTriggersSuspended suspended => some { service with triggersSuspended := suspended }
  | .fire agentId triggerId runId leaseId reply =>
    service.fire config agentId triggerId runId leaseId reply

/-- The times a trigger fired. -/
def firingTimes (service : TriggerService) (agentId : String) (trigger : AgentTrigger) : List ℕ :=
  (service.fired.filter (TriggerFiring.isOf agentId trigger)).map TriggerFiring.firedAtUnix

end TriggerService

end FocalDesk
