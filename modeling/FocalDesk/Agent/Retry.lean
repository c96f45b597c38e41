import FocalDesk.Agent.Cancellation
import FocalDesk.Capability.Narrowing

/-!
A retry registers the request of a run again, without the ceiling the run was started
under: its lease is the policy of the definition alone.
-/
namespace FocalDesk
open Library Option Std.ExtTreeMap

variable {config : ServiceConfig} {s t u : Service} {runId r leaseId : String}
  {request req : AgentRequest} {e : ServiceEvent} {lease : CapabilityLease} {id : String}

namespace Service

/-- A lease a registration of `request` under `ceiling` grants. -/
structure Grants (config : ServiceConfig) (s : Service) (request : AgentRequest)
    (ceiling : Option CapabilityPolicy) (lease : CapabilityLease) : Prop where
  definition : ∃ definition, s.agentDefinitions[request.agent]? = some definition ∧
    lease.policy = leasePolicy definition ceiling
  valid : lease.policy.validate config.urls = .ok ()

/-- The leases of `t` are leases of `s` or the one that a registration grants. -/
def LeasesFrom (config : ServiceConfig) (s t : Service) (leaseId : String) (request : AgentRequest)
    (ceiling : Option CapabilityPolicy) : Prop :=
  ∀ (id : String) (lease : CapabilityLease), t.capabilityLeases[id]? = some lease →
    s.capabilityLeases[id]? = some lease ∨ (id = leaseId ∧ Grants config s request ceiling lease)

variable {reply : RegisterReply}

theorem grantLease_leases {gr : CapabilityLease}
    (h : (s.grantLease gr reply).1.capabilityLeases[id]? = some lease) :
    s.capabilityLeases[id]? = some lease ∨ (id = gr.leaseId ∧ lease = gr) := by
  have hk {p : String → CapabilityLease → Bool}
      (h : (s.capabilityLeases.filter p)[id]? = some lease) :
      s.capabilityLeases[id]? = some lease := by
    rw [getElem?_filter'] at h
    exact (filter_eq_some_iff.mp h).1
  have hi {p : String → CapabilityLease → Bool}
      (h : ((s.capabilityLeases.filter p).insert gr.leaseId gr)[id]? = some lease) :
      s.capabilityLeases[id]? = some lease ∨ (id = gr.leaseId ∧ lease = gr) := by
    rw [getElem?_insert] at h
    split at h
    case isTrue heq =>
      cases h
      exact .inr ⟨(Std.LawfulEqCmp.eq_of_compare heq).symm, rfl⟩
    case isFalse => exact .inl (hk h)
  unfold grantLease at h
  dsimp only at h
  split at h
  · exact .inl (hk h)
  · split at h
    · exact hi h
    · split at h
      · exact hi h
      · exact hi h

variable {ceiling : Option CapabilityPolicy}

theorem registerAgentRun_leases {trig : Option AgentTriggerSource} :
    LeasesFrom config s (s.registerAgentRun config req runId leaseId trig ceiling reply).1
      leaseId req ceiling := by
  intro id lease h
  unfold registerAgentRun at h
  split at h
  case h_1 => exact .inl h
  case h_2 defn pol hc =>
    have hg (h : (s.grantLease (s.newLease config defn pol runId leaseId)
        reply).1.capabilityLeases[id]? = some lease) : s.capabilityLeases[id]? = some lease ∨
          (id = leaseId ∧ Grants config s req ceiling lease) := by
      refine (grantLease_leases h).imp_right ?_
      rintro ⟨hid, rfl⟩
      unfold checkRegistration at hc
      simp only [bind_eq_ok, okOr_eq_ok, pure_eq_ok, Prod.mk.injEq] at hc
      obtain ⟨_, _, definition', hd, _, hv, _, _, rfl, rfl⟩ := hc
      exact ⟨hid, ⟨definition', hd, rfl⟩, hv⟩
    split at h
    case h_1 heq =>
      rw [heq] at hg
      exact hg h
    case h_2 u heq =>
      rw [heq] at hg
      have hi : Moves u (u.insertAgentRun
          (u.newStatus config defn req runId trig) req reply).1 :=
        insertAgentRun_moves
      split at h
      case h_1 hr =>
        rw [hr] at hi
        exact hg (hi.leases ▸ h)
      case h_2 hr =>
        rw [hr] at hi
        exact hg (hi.leases ▸ h)

theorem LeasesFrom.trans (h : LeasesFrom config s t leaseId req ceiling)
    (h' : u.capabilityLeases = t.capabilityLeases) :
    LeasesFrom config s u leaseId req ceiling :=
  fun id lease hg => h id lease (h' ▸ hg)

theorem startAgent_leases :
    LeasesFrom config s (s.startAgent config req ceiling runId leaseId reply) leaseId req
      ceiling := by
  have hr : LeasesFrom config s
      (s.registerAgentRun config req runId leaseId none ceiling reply).1 leaseId req
        ceiling := registerAgentRun_leases
  unfold startAgent
  split
  case h_1 heq => rwa [heq] at hr
  case h_2 heq =>
    rw [heq] at hr
    exact hr.trans rfl

theorem fireAgentTrigger_leases {src : AgentTriggerSource}
    {fire : Except String Unit} {write : StoreReply} :
    LeasesFrom config s (s.fireAgentTrigger config req src runId leaseId reply fire write)
      leaseId req none := by
  have hr : LeasesFrom config s
      (s.registerAgentRun config req runId leaseId (some src) none reply).1 leaseId
        req none := registerAgentRun_leases
  unfold fireAgentTrigger
  split
  case h_1 heq => rwa [heq] at hr
  case h_2 u heq =>
    rw [heq] at hr
    split
    case h_1 err _ =>
      have hs : Moves u (u.transition runId write
          (·.settle .failed u.unixNow (some err)) (.failed err)).1 :=
        transition_writesRuns.moves
      split
      case h_1 hse =>
        rw [hse] at hs
        exact hr.trans hs.leases
      case h_2 hse =>
        rw [hse] at hs
        exact hr.trans hs.leases
    case h_2 => exact hr.trans recordAgentEvent_writesRuns.moves.leases

/-- The only lease a retry grants is for the request the service holds for the run. -/
theorem retryAgentRun_leases {nrid : String} {write : StoreReply}
    (h : (s.retryAgentRun config runId nrid leaseId reply write).capabilityLeases[id]? =
      some lease) :
    s.capabilityLeases[id]? = some lease ∨ (id = leaseId ∧ ∃ req,
      s.agentRequests[runId]? = some req ∧ Grants config s req none lease) := by
  unfold retryAgentRun at h
  split at h
  case h_2 => exact .inl h
  case h_1 run req _ hre =>
    split at h
    case isFalse => exact .inl h
    case isTrue =>
      have hr : LeasesFrom config s
          (s.registerAgentRun config req nrid leaseId none none reply).1 leaseId req
            none := registerAgentRun_leases
      have hg {t : Service} (ht : LeasesFrom config s t leaseId req none)
          (h : t.capabilityLeases[id]? = some lease) :
          s.capabilityLeases[id]? = some lease ∨ (id = leaseId ∧ ∃ req,
            s.agentRequests[runId]? = some req ∧ Grants config s req none lease) :=
        (ht id lease h).imp_right fun ⟨hid, hgr⟩ => ⟨hid, req, hre, hgr⟩
      split at h
      case h_1 heq =>
        rw [heq] at hr
        exact hg hr h
      case h_2 u heq =>
        rw [heq] at hr
        have hc : Moves u (u.transition nrid write
            (fun new => { new with
              observations := run.observations
              completedToolSteps := run.observations.length })
            (.retried runId run.observations.length)).1 := transition_writesRuns.moves
        split at h
        case h_1 hu =>
          rw [hu] at hc
          exact hg (hr.trans hc.leases) h
        case h_2 hu =>
          rw [hu] at hc
          exact hg (hr.trans hc.leases) h

/-- Leases have ids that were handed out. -/
def Leased (s : Service) : Prop :=
  ∀ (id : String) (lease : CapabilityLease), s.capabilityLeases[id]? = some lease → id ∈ s.issued

theorem step_leased (hs : s.Issues) (hl : s.Leased) (h : s.step config e = some t) :
    t.Leased := by
  have hm {id : String} (hid : id ∈ s.issued) : id ∈ t.issued := (view_step hs h id).issued_mono hid
  have hsa (ht : t.capabilityLeases = s.capabilityLeases) : t.Leased :=
    fun id lease hg => hm (hl id lease (ht ▸ hg))
  have hr {u : Service} {runId leaseId : String} (hu : s.issue runId leaseId = some u)
      (hv : runId ≠ leaseId → SameOrEvicted (u.view leaseId) (t.view leaseId))
      (hf : ∀ (id : String) (lease : CapabilityLease), t.capabilityLeases[id]? = some lease →
        u.capabilityLeases[id]? = some lease ∨ id = leaseId) : t.Leased := by
    obtain ⟨⟨-, -, hne, -⟩, rfl⟩ := issue_eq_some.mp hu
    intro id lease hg
    rcases hf id lease hg with hold | rfl
    · exact hm (hl id lease hold)
    · exact (hv hne).issued (by simp [view])
  cases e with
  | tick unixNow instant =>
    simp only [step] at h
    split at h
    · cases h
      exact hsa rfl
    · cases h
  | setAgentDefinitions | setDisabledAgents =>
    cases h
    exact hsa rfl
  | expireLeases =>
    cases h
    intro id lease hg
    simp only [expireLeases, getElem?_map] at hg
    obtain ⟨lease', hg', -⟩ := map_eq_some_iff.mp hg
    exact hm (hl id lease' hg')
  | revokeCapabilityLease revoked =>
    cases h
    intro id lease hg
    rw [revokeCapabilityLease, getElem?_modify] at hg
    split at hg
    case isTrue heq =>
      obtain rfl := Std.LawfulEqCmp.eq_of_compare heq
      obtain ⟨lease', hg', -⟩ := map_eq_some_iff.mp hg
      exact hm (hl _ lease' hg')
    case isFalse => exact hm (hl id lease hg)
  | startAgent =>
    obtain ⟨u, hu, rfl⟩ := map_eq_some_iff.mp h
    exact hr hu startAgent_view_of_ne fun id lease hg =>
      (startAgent_leases id lease hg).imp_right And.left
  | fireAgentTrigger =>
    obtain ⟨u, hu, rfl⟩ := map_eq_some_iff.mp h
    exact hr hu fireAgentTrigger_view_of_ne fun id lease hg =>
      (fireAgentTrigger_leases id lease hg).imp_right And.left
  | retryAgentRun =>
    obtain ⟨u, hu, rfl⟩ := map_eq_some_iff.mp h
    exact hr hu retryAgentRun_view_of_ne fun id lease hg =>
      (retryAgentRun_leases hg).imp_right And.left
  | execution =>
    obtain ⟨_, -, hst⟩ := bind_eq_some_iff.mp h
    exact hsa (stepExecution_moves hst).leases
  | confirmAgentAction =>
    simp only [step] at h
    split at h
    · cases h
    · cases h
      refine hsa ?_
      unfold confirmAgentAction
      split
      · rfl
      · split <;> rfl
  | confirmation =>
    obtain ⟨_, -, hst⟩ := bind_eq_some_iff.mp h
    exact hsa (stepConfirmation_moves hst).leases
  | cancelAgentRun =>
    simp only [step] at h
    split at h
    · cases h
    · cases h
      refine hsa ?_
      unfold cancelAgentRun
      split
      · rfl
      · split
        · split <;> rfl
        · rfl
  | cancellation =>
    obtain ⟨_, -, hst⟩ := bind_eq_some_iff.mp h
    exact hsa (stepCancellation_moves hst).leases
  | restart defs disabled =>
    cases h
    intro id lease hg
    have hn : (s.restart defs disabled).capabilityLeases = ∅ := by
      unfold restart
      dsimp only
      split <;> rfl
    simp [hn] at hg

/-- Runs, requests and leases have ids that were handed out. -/
structure Recorded (s : Service) : Prop where
  issues : s.Issues
  leased : s.Leased

theorem new_recorded (defs : BTreeMap String AgentDefinition) (sto : Bool) (unixNow instant : ℕ)
    : (new defs sto unixNow instant).Recorded :=
  ⟨(new_wellFormed sampleConfig defs sto unixNow instant).issues, fun id lease h => by
    simp [new] at h⟩

theorem step_recorded (h : s.step config e = some t) (hs : s.Recorded) : t.Recorded :=
  ⟨step_issues hs.issues h, step_leased hs.issues hs.leased h⟩

/-- The service knows `runId` as the run of `request` and of no other. -/
structure Knows (runId : String) (request : AgentRequest) (s : Service) : Prop where
  recorded : s.Recorded
  issued : runId ∈ s.issued
  request : ∀ request', s.Remembers runId request' → request' = request

theorem step_knows (h : s.step config e = some t) (hs : s.Knows runId req) :
    t.Knows runId req := by
  have hi := hs.recorded.issues
  refine ⟨step_recorded h hs.recorded, (view_step hi h runId).issued_mono hs.issued,
    fun request' hr => ?_⟩
  rcases (step_keeps h hi.keyed).remembers runId request' hr with hr | hr
  · exact hs.request request' hr
  · exact absurd hs.issued hr.1

/-- A registration makes the service know its run. -/
theorem startAgent_knows (hs : s.Recorded)
    (h : s.step config (.startAgent req ceiling runId leaseId reply) = some t) :
    t.Knows runId req := by
  have hi : runId ∈ t.issued := by
    have hst := view_step hs.issues h runId
    rw [label_of_registers rfl] at hst
    exact hst.issued_of_register
  refine ⟨step_recorded h hs, hi, fun request' hr => ?_⟩
  obtain ⟨u, hu, rfl⟩ := map_eq_some_iff.mp h
  obtain ⟨⟨hf, -⟩, rfl⟩ := issue_eq_some.mp hu
  have hk : ({ s with issued := runId :: leaseId :: s.issued } : Service).Keyed :=
    ⟨hs.issues.keyed.runs, hs.issues.keyed.stored⟩
  rcases (startAgent_keeps hk).remembers runId request' hr with hr | hr
  · exact absurd (hs.issues.remembers runId request' hr) hf
  · exact hr.2

/-- The lease of a retry authorizes no more than the lease the run was started with exactly
when the policy of its definition stays within the ceiling it was started under. -/
theorem retry_within_iff {definitions : BTreeMap String AgentDefinition} {stored : Bool}
    {unixNow instant : ℕ} {es fs : List ServiceEvent} {ceiling : CapabilityPolicy}
    {newRunId newLeaseId : String} {w : Service} {reply reply' : RegisterReply}
    {write : StoreReply} {lease' : CapabilityLease} {definition : AgentDefinition}
    (hs : run (step config) (new definitions stored unixNow instant) es = some s)
    (hstart : s.step config (.startAgent request (some ceiling) runId leaseId reply) = some t)
    (hlease : t.capabilityLeases[leaseId]? = some lease)
    (hrun : run (step config) t fs = some u)
    (hretry : u.step config (.retryAgentRun runId newRunId newLeaseId reply' write) = some w)
    (hlease' : w.capabilityLeases[newLeaseId]? = some lease')
    (hbefore : s.agentDefinitions[request.agent]? = some definition)
    (hafter : u.agentDefinitions[request.agent]? = some definition) :
    AuthorizesWithin config.urls lease'.policy lease.policy ↔
      PolicyWithin config.urls (definition.capabilityPolicy.getD .default) ceiling := by
  have hr : s.Recorded := run_invariant step_recorded hs (new_recorded ..)
  have hk := startAgent_knows hr hstart
  have hk' : u.Knows runId request := run_invariant step_knows hrun hk
  obtain ⟨definition₁, hdefinition₁, hpolicy₁⟩ : ∃ definition,
      s.agentDefinitions[request.agent]? = some definition ∧
        lease.policy = leasePolicy definition (some ceiling) := by
    obtain ⟨s', hs', rfl⟩ := map_eq_some_iff.mp hstart
    obtain ⟨⟨-, hf, -⟩, rfl⟩ := issue_eq_some.mp hs'
    rcases startAgent_leases leaseId lease hlease with hold | ⟨-, hg⟩
    · exact absurd (hr.leased leaseId lease hold) hf
    · exact hg.definition
  obtain ⟨definition₂, hdefinition₂, hpolicy₂, hv⟩ : ∃ definition,
      u.agentDefinitions[request.agent]? = some definition ∧
        lease'.policy = leasePolicy definition none ∧
          lease'.policy.validate config.urls = .ok () := by
    obtain ⟨u', hu', rfl⟩ := map_eq_some_iff.mp hretry
    obtain ⟨⟨-, hf, -⟩, rfl⟩ := issue_eq_some.mp hu'
    rcases retryAgentRun_leases hlease' with hold | ⟨-, request', hre, hg⟩
    · exact absurd (hk'.recorded.leased newLeaseId lease' hold) hf
    · obtain rfl := hk'.request request' (.inl hre)
      obtain ⟨definition, hd, hp⟩ := hg.definition
      exact ⟨definition, hd, hp, hg.valid⟩
  cases hbefore.symm.trans hdefinition₁
  cases hafter.symm.trans hdefinition₂
  have hfi : lease.policy = lease'.policy.intersect ceiling := by
    rw [hpolicy₁, hpolicy₂]
    rfl
  rw [hfi, authorizesWithin_intersect_iff hv, hpolicy₂]
  rfl

/-- A ceiling that grants no service. -/
def sampleCeiling : CapabilityPolicy := { CapabilityPolicy.default with services := some [] }

def startedUnderCeiling : ServiceEvent :=
  .startAgent sampleRequest (some sampleCeiling) (sampleId 'a') (sampleId 'b') accepted

def retried : ServiceEvent :=
  .retryAgentRun (sampleId 'a') (sampleId 'c') (sampleId 'd') accepted written

/-- The arguments of a tool call that names a service. -/
def serviceArguments : Value := .object [("service", .string "network")]

theorem retry_within_iff_sample : ∃ (definition : AgentDefinition) (lease lease' : CapabilityLease),
    sampleDefinitions[sampleRequest.agent]? = some definition ∧
      (AuthorizesWithin sampleConfig.urls lease'.policy lease.policy ↔
        PolicyWithin sampleConfig.urls (definition.capabilityPolicy.getD .default)
          sampleCeiling) := by
  obtain ⟨definition, hd⟩ : ∃ definition,
      sampleDefinitions[sampleRequest.agent]? = some definition :=
    isSome_iff_exists.mp (by decide +kernel)
  obtain ⟨t, hs, hl⟩ := exists_last [startedUnderCeiling]
    (fun t => sampleId 'b' ∈ t.capabilityLeases) (by decide +kernel)
  obtain ⟨u, hu, ha⟩ := exists_last ([startedUnderCeiling] ++ failedTask (sampleId 'a'))
    (fun u => u.agentDefinitions[sampleRequest.agent]? =
      sampleDefinitions[sampleRequest.agent]?) (by decide +kernel)
  obtain ⟨w, hw, hl'⟩ := exists_last
    (([startedUnderCeiling] ++ failedTask (sampleId 'a')) ++ [retried])
    (fun w => sampleId 'd' ∈ w.capabilityLeases) (by decide +kernel)
  obtain ⟨lease, hl⟩ := exists_getElem?_of_mem hl
  obtain ⟨lease', hl'⟩ := exists_getElem?_of_mem hl'
  obtain ⟨t', ht', hru⟩ := run_append_eq_some.mp hu
  cases hs.symm.trans ht'
  obtain ⟨u', hu', hr⟩ := run_append_eq_some.mp hw
  cases hu.symm.trans hu'
  have ho {s t : Service} {e : ServiceEvent} (h : run (step sampleConfig) s [e] = some t) :
      step sampleConfig s e = some t := by
    obtain ⟨t', ht', h⟩ := run_cons_eq_some.mp h
    cases h
    exact ht'
  have hn : run (step sampleConfig) (new sampleDefinitions false 1000 0) [] =
      some sampleService := rfl
  exact ⟨definition, lease, lease', hd, retry_within_iff hn (ho hs) hl hru
    (ho hr) hl' hd (ha.trans hd)⟩

/-- A call that names a service is refused to the run and granted to its retry. -/
theorem retry_widens : ∃ t, ∃ lease lease' : CapabilityLease,
    run (step sampleConfig) sampleService
        ([startedUnderCeiling] ++ failedTask (sampleId 'a') ++ [retried]) = some t ∧
      t.agentDefinitions[sampleRequest.agent]? = sampleDefinitions[sampleRequest.agent]? ∧
        t.capabilityLeases[sampleId 'b']? = some lease ∧
          t.capabilityLeases[sampleId 'd']? = some lease' ∧
            ¬ AuthorizesWithin sampleConfig.urls lease'.policy lease.policy := by
  let authorized (lease : CapabilityLease) : Bool :=
    (lease.policy.authorize sampleConfig.urls "get_service_health" serviceArguments).isOk
  obtain ⟨t, hru, hd, hl, hl'⟩ := exists_last
    ([startedUnderCeiling] ++ failedTask (sampleId 'a') ++ [retried])
    (fun t => t.agentDefinitions[sampleRequest.agent]? = sampleDefinitions[sampleRequest.agent]? ∧
      t.capabilityLeases[sampleId 'b']?.any (fun lease => !authorized lease) = true ∧
        t.capabilityLeases[sampleId 'd']?.any authorized = true) (by decide +kernel)
  obtain ⟨lease, hl, hr⟩ := (any_eq_true _ _).mp hl
  obtain ⟨lease', hl', hg⟩ := (any_eq_true _ _).mp hl'
  refine ⟨t, lease, lease', hru, hd, hl, hl', fun hw => ?_⟩
  have hok : authorized lease = true := by
    have := hw "get_service_health" serviceArguments
    cases h : lease'.policy.authorize sampleConfig.urls "get_service_health" serviceArguments with
    | error error =>
      simp only [authorized, h] at hg
      cases hg
    | ok _ =>
      simp only [authorized, this h]
      rfl
  rw [hok] at hr
  cases hr

end Service

end FocalDesk
