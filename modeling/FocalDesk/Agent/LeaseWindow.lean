import FocalDesk.Agent.Origin
import FocalDesk.Agent.Retry

/-!
The lease behind a plan: it was granted when its run was registered, and lasts as long as the
confirmation of the plan advertises only if that was soon enough before.
-/
namespace FocalDesk
open Library Option Std.ExtTreeMap

variable {config : ServiceConfig} {s t u : Service} {runId nrid planId leaseId gr : String}
  {req : AgentRequest} {e : ServiceEvent} {es : List ServiceEvent} {lease fresh : CapabilityLease}
  {reply : RegisterReply} {due : ℕ}

namespace Service

/-- An event while the plan may be confirmed. A revocation is explicit, and a restart drops
every plan. -/
def InWindow (leaseId : String) (deadline : ℕ) : ServiceEvent → Prop
  | .tick unixNow _ => unixNow < deadline
  | .revokeCapabilityLease revoked => revoked ≠ leaseId
  | .restart _ _ => False
  | _ => True

/-- The lease is there and live, and a call is decided by its tools and its policy alone. -/
def BackedBy (config : ServiceConfig) (leaseId : String) (s : Service) : Prop :=
  ∃ lease, s.capabilityLeases[leaseId]? = some lease ∧ lease.revoked = false ∧
    s.unixNow < lease.expiresAtUnix ∧
    ∀ tool arguments, s.authorizeTool config leaseId tool arguments true = (do
      bailIf (tool ∉ lease.tools) ("tool is outside the capability lease: " ++ tool)
      lease.policy.authorize config.urls tool arguments)

/-- The lease of a plan lasts for the life of the plan. -/
def Covers (s : Service) (leaseId : String) : Prop :=
  ∃ lease, s.capabilityLeases[leaseId]? = some lease ∧ lease.revoked = false ∧
    s.unixNow + agentActionTtl ≤ lease.expiresAtUnix

theorem backedBy_of_live (h : s.capabilityLeases[leaseId]? = some lease)
    (hrevoked : lease.revoked = false) (hlive : s.unixNow < lease.expiresAtUnix) :
    s.BackedBy config leaseId := by
  refine ⟨lease, h, hrevoked, hlive, fun t args => ?_⟩
  have hn : ¬ lease.expiresAtUnix ≤ s.unixNow := by omega
  simp [authorizeTool, h, hrevoked, hn, okOr, bailIf, bind, Except.bind]

/-! What keeps a live lease. -/

/-- `lease` stays what `leaseId` names. -/
def Holds (leaseId : String) (lease : CapabilityLease) (s t : Service) : Prop :=
  s.capabilityLeases[leaseId]? = some lease → t.capabilityLeases[leaseId]? = some lease

theorem Moves.holds (h : Moves s t) : Holds leaseId lease s t := by
  intro hl
  rw [h.leases]
  exact hl

theorem Holds.trans (h : Holds leaseId lease s t) (h' : Holds leaseId lease t u) :
    Holds leaseId lease s u := fun hl => h' (h hl)

section Registration
variable (hrevoked : lease.revoked = false) (hlive : s.unixNow < lease.expiresAtUnix)
  (hne : gr ≠ leaseId)
include hrevoked hlive hne

/-- The sweep of a registration drops only leases that are over. -/
theorem grantLease_holds (hn : fresh.leaseId = gr) :
    Holds leaseId lease s (s.grantLease fresh reply).1 := by
  intro hl
  have hk : (s.capabilityLeases.filter fun _ lease =>
      !lease.revoked && decide (s.unixNow < lease.expiresAtUnix))[leaseId]? = some lease := by
    rw [getElem?_filter', hl]
    simp [hrevoked, hlive]
  have hi : ((s.capabilityLeases.filter fun _ lease =>
      !lease.revoked && decide (s.unixNow < lease.expiresAtUnix)).insert fresh.leaseId fresh)[leaseId]? =
        some lease := by
    rw [getElem?_insert, hn,
      if_neg fun heq => hne (Std.LawfulEqCmp.eq_of_compare heq)]
    exact hk
  unfold grantLease
  dsimp only
  split
  · exact hk
  · split
    · exact hi
    · split
      · exact hi
      · exact hi

theorem registerAgentRun_holds {trig : Option AgentTriggerSource}
    {ceiling : Option CapabilityPolicy} : Holds leaseId lease s
      (s.registerAgentRun config req runId gr trig ceiling reply).1 := by
  unfold registerAgentRun
  split
  case h_1 => exact id
  case h_2 defn pol _ =>
    have hg : Holds leaseId lease s (s.grantLease
        (s.newLease config defn pol runId gr) reply).1 :=
      grantLease_holds hrevoked hlive hne rfl
    split
    case h_1 heq =>
      rw [heq] at hg
      exact hg
    case h_2 u heq =>
      rw [heq] at hg
      have hi : Moves u (u.insertAgentRun
          (u.newStatus config defn req runId trig) req reply).1 :=
        insertAgentRun_moves
      split
      case h_1 hr =>
        rw [hr] at hi
        exact hg.trans hi.holds
      case h_2 hr =>
        rw [hr] at hi
        exact hg.trans hi.holds

theorem startAgent_holds {ceiling : Option CapabilityPolicy} :
    Holds leaseId lease s (s.startAgent config req ceiling runId gr reply) := by
  have hr : Holds leaseId lease s
      (s.registerAgentRun config req runId gr none ceiling reply).1 :=
    registerAgentRun_holds hrevoked hlive hne
  unfold startAgent
  split
  case h_1 heq => rwa [heq] at hr
  case h_2 heq =>
    rw [heq] at hr
    exact hr

theorem fireAgentTrigger_holds {src : AgentTriggerSource} {fire : Except String Unit}
    {write : StoreReply} : Holds leaseId lease s
      (s.fireAgentTrigger config req src runId gr reply fire write) := by
  have hr : Holds leaseId lease s
      (s.registerAgentRun config req runId gr (some src) none reply).1 :=
    registerAgentRun_holds hrevoked hlive hne
  unfold fireAgentTrigger
  split
  case h_1 heq => rwa [heq] at hr
  case h_2 u heq =>
    rw [heq] at hr
    split
    case h_1 err _ =>
      have hs : Moves u (u.transition runId write
          (·.settle .failed u.unixNow (some err)) (.failed err)).1 :=
        transition_writesRuns.moves
      split
      case h_1 hse =>
        rw [hse] at hs
        exact hr.trans hs.holds
      case h_2 hse =>
        rw [hse] at hs
        exact hr.trans hs.holds
    case h_2 => exact hr.trans recordAgentEvent_writesRuns.moves.holds

theorem retryAgentRun_holds {write : StoreReply} : Holds leaseId lease s
    (s.retryAgentRun config runId nrid gr reply write) := by
  unfold retryAgentRun
  split
  case h_2 => exact id
  case h_1 run req _ _ =>
    split
    case isFalse => exact id
    case isTrue =>
      have hr : Holds leaseId lease s
          (s.registerAgentRun config req nrid gr none none reply).1 :=
        registerAgentRun_holds hrevoked hlive hne
      split
      case h_1 heq => rwa [heq] at hr
      case h_2 u heq =>
        rw [heq] at hr
        have hc : Moves u (u.transition nrid write
            (fun new => { new with
              observations := run.observations
              completedToolSteps := run.observations.length })
            (.retried runId run.observations.length)).1 := transition_writesRuns.moves
        split
        case h_1 hu =>
          rw [hu] at hc
          exact hr.trans hc.holds
        case h_2 hu =>
          rw [hu] at hc
          exact hr.trans hc.holds

end Registration

/-- A live lease survives every step inside of the window. -/
theorem step_holds (h : s.step config e = some t) (hle : s.Leased)
    (hl : s.capabilityLeases[leaseId]? = some lease) (hrevoked : lease.revoked = false)
    (hlive : s.unixNow < lease.expiresAtUnix) (he : InWindow leaseId due e) :
    t.capabilityLeases[leaseId]? = some lease := by
  have his : leaseId ∈ s.issued := hle leaseId lease hl
  have hs (ht : t.capabilityLeases = s.capabilityLeases) :
      t.capabilityLeases[leaseId]? = some lease := by
    rw [ht]
    exact hl
  have hi {u : Service} {runId gr : String} (hu : s.issue runId gr = some u) :
      u.capabilityLeases[leaseId]? = some lease ∧ u.unixNow < lease.expiresAtUnix ∧
        gr ≠ leaseId := by
    obtain ⟨⟨-, hf, -⟩, rfl⟩ := issue_eq_some.mp hu
    refine ⟨hl, hlive, ?_⟩
    rintro rfl
    exact hf his
  cases e with
  | tick unixNow instant =>
    simp only [step] at h
    split at h
    · cases h
      exact hs rfl
    · cases h
  | setAgentDefinitions | setDisabledAgents =>
    cases h
    exact hs rfl
  | expireLeases =>
    cases h
    have hn : ¬ lease.expiresAtUnix ≤ s.unixNow := by omega
    simp only [expireLeases, getElem?_map, hl, map_some, hn,
      decide_false, Bool.or_false]
  | revokeCapabilityLease revoked =>
    cases h
    rw [revokeCapabilityLease, getElem?_modify,
      if_neg fun heq => he (Std.LawfulEqCmp.eq_of_compare heq)]
    exact hl
  | startAgent =>
    obtain ⟨u, hu, rfl⟩ := map_eq_some_iff.mp h
    obtain ⟨hk, hlive, hne⟩ := hi hu
    exact startAgent_holds hrevoked hlive hne hk
  | fireAgentTrigger =>
    obtain ⟨u, hu, rfl⟩ := map_eq_some_iff.mp h
    obtain ⟨hk, hlive, hne⟩ := hi hu
    exact fireAgentTrigger_holds hrevoked hlive hne hk
  | retryAgentRun =>
    obtain ⟨u, hu, rfl⟩ := map_eq_some_iff.mp h
    obtain ⟨hk, hlive, hne⟩ := hi hu
    exact retryAgentRun_holds hrevoked hlive hne hk
  | execution =>
    obtain ⟨_, -, hst⟩ := bind_eq_some_iff.mp h
    exact hs (stepExecution_moves hst).leases
  | confirmAgentAction =>
    simp only [step] at h
    split at h
    · cases h
    · cases h
      refine hs ?_
      unfold confirmAgentAction
      split
      · rfl
      · split <;> rfl
  | confirmation =>
    obtain ⟨_, -, hst⟩ := bind_eq_some_iff.mp h
    exact hs (stepConfirmation_moves hst).leases
  | cancelAgentRun =>
    simp only [step] at h
    split at h
    · cases h
    · cases h
      refine hs ?_
      unfold cancelAgentRun
      split
      · rfl
      · split
        · split <;> rfl
        · rfl
  | cancellation =>
    obtain ⟨_, -, hst⟩ := bind_eq_some_iff.mp h
    exact hs (stepCancellation_moves hst).leases
  | restart => exact absurd he id

/-- What a run inside of the window keeps. -/
structure Live (leaseId : String) (lease : CapabilityLease) (s : Service) : Prop where
  recorded : s.Recorded
  held : s.capabilityLeases[leaseId]? = some lease
  time : s.unixNow < lease.expiresAtUnix

theorem step_live (hrevoked : lease.revoked = false) (hd : due ≤ lease.expiresAtUnix)
    (h : s.step config e = some t) (he : InWindow leaseId due e) (hs : s.Live leaseId lease)
    : t.Live leaseId lease := by
  refine ⟨step_recorded h hs.recorded,
    step_holds h hs.recorded.leased hs.held hrevoked hs.time he, ?_⟩
  by_cases ht : ∃ unixNow instant, e = .tick unixNow instant
  · obtain ⟨unixNow, instant, rfl⟩ := ht
    simp only [step] at h
    split at h
    · cases h
      exact Nat.lt_of_lt_of_le he hd
    · cases h
  · rw [step_clock h fun unixNow instant heq => ht ⟨unixNow, instant, heq⟩]
    exact hs.time

theorem run_live (hrevoked : lease.revoked = false) (hd : due ≤ lease.expiresAtUnix)
    (h : run (step config) s es = some t) (hes : ∀ e ∈ es, InWindow leaseId due e)
    (hs : s.Live leaseId lease) : t.Live leaseId lease := by
  induction es generalizing s with
  | nil =>
    cases h
    exact hs
  | cons e es ih =>
    obtain ⟨u, hu, h⟩ := run_cons_eq_some.mp h
    exact ih h (fun e he => hes e (List.mem_cons_of_mem _ he))
      (step_live hrevoked hd hu (hes e List.mem_cons_self) hs)

/-- A proposal that advertises a confirmation has stored its plan under the lease of its task. -/
theorem propose_stores {write : StoreReply}
    (h : s.step config (.execution runId (.propose planId write)) = some t)
    {exec : Execution} {resp : AgentResponse} {conf : AgentConfirmation}
    (he : t.executions[runId]? = some exec)
    (hs : exec.stage = .publishing resp)
    (hc : resp.confirmation = some conf) :
    conf.expiresAtUnix = s.unixNow + agentActionTtl ∧
      ∃ plan, t.pendingAgentActions[conf.planId]? = some plan ∧ plan.leaseId = exec.leaseId := by
  obtain ⟨pre, hp, hst⟩ := bind_eq_some_iff.mp h
  cases stepExecution_cases hst with
  | propose hf ha hi hpl hid =>
    unfold propose at he ⊢
    dsimp only at he ⊢
    split at he
    case isTrue =>
      -- A full table ends the task instead.
      simp only [leaveFailed, leave, setStage, getElem?_modify_self] at he
      obtain ⟨_, -, rfl⟩ := map_eq_some_iff.mp he
      cases hs
    case isFalse hr =>
      rw [if_neg hr]
      simp only [setStage, insertPlan, sweepPlans, getElem?_modify_self, hp,
        map_some, some.injEq] at he
      subst he
      cases hs
      cases hc
      exact ⟨rfl, _, getElem?_insert_self, rfl⟩

/-- The lease behind a plan is live until the time its confirmation advertises, whatever the
service does, exactly when it lasts that long at the proposal. -/
theorem plan_backed_iff {definitions : BTreeMap String AgentDefinition} {stored : Bool}
    {unixNow instant : ℕ} {write : StoreReply} {execution : Execution} {response : AgentResponse}
    {confirmation : AgentConfirmation}
    (hs : run (step config) (new definitions stored unixNow instant) es = some s)
    (hpropose : s.step config (.execution runId (.propose planId write)) = some t)
    (hexecution : t.executions[runId]? = some execution)
    (hstage : execution.stage = .publishing response)
    (hconfirmation : response.confirmation = some confirmation) :
    ∃ plan, t.pendingAgentActions[confirmation.planId]? = some plan ∧
      ((∀ (fs : List ServiceEvent) (u : Service),
          (∀ e ∈ fs, InWindow plan.leaseId confirmation.expiresAtUnix e) →
            run (step config) t fs = some u → u.BackedBy config plan.leaseId) ↔
        s.Covers plan.leaseId) := by
  obtain ⟨he, plan, hpl, -⟩ := propose_stores hpropose hexecution hstage hconfirmation
  have hle : t.capabilityLeases = s.capabilityLeases := by
    obtain ⟨_, -, hst⟩ := bind_eq_some_iff.mp hpropose
    exact (stepExecution_moves hst).leases
  have hcl : t.unixNow = s.unixNow := step_clock hpropose nofun
  refine ⟨plan, hpl, ?_⟩
  rw [he]
  constructor
  · intro hb
    obtain ⟨lease, hl, hrevoked, -⟩ := hb [] t (by simp) rfl
    refine ⟨lease, hle ▸ hl, hrevoked, ?_⟩
    by_contra hea
    -- The clock may tick to the end of the lease before the plan is over.
    have ha : run (step config) t [.tick lease.expiresAtUnix t.instant] =
        some { t with unixNow := lease.expiresAtUnix } := by
      simp [run_cons, step]
    obtain ⟨other, ho, -, hlive, -⟩ := hb _ _ (by simpa [InWindow] using hea) ha
    obtain rfl : lease = other := some.inj (hl.symm.trans ho)
    exact absurd hlive (Nat.lt_irrefl _)
  · rintro ⟨lease, hl, hrevoked, hc⟩ fs u hfs hru
    have hr : t.Recorded :=
      step_recorded hpropose (run_invariant step_recorded hs (new_recorded ..))
    have hlive : t.Live plan.leaseId lease := by
      refine ⟨hr, hle ▸ hl, ?_⟩
      have hp : 0 < agentActionTtl := by decide
      omega
    have ha := run_live hrevoked hc hru hfs hlive
    exact backedBy_of_live ha.held hrevoked ha.time

/-- The events of a run up to the end of its agent's proposal. -/
def untilProposal : List ServiceEvent :=
  .startAgent sampleRequest none (sampleId 'a') (sampleId 'b') accepted ::
    polledTask (sampleId 'a') ++ [.execution (sampleId 'a') (.finish (.ok proposal) written)]

def proposed : ServiceEvent := .execution (sampleId 'a') (.propose (sampleId 'c') written)

/-- The advertised confirmation of the sample run. -/
def advertised (t : Service) : Option AgentConfirmation := do
  let execution ← t.executions[sampleId 'a']?
  match execution.stage with
  | .publishing response => response.confirmation
  | _ => none

theorem advertised_eq_some {t : Service} {conf : AgentConfirmation}
    (h : t.advertised = some conf) : ∃ exec resp,
      t.executions[sampleId 'a']? = some exec ∧ exec.stage = .publishing resp ∧
        resp.confirmation = some conf := by
  obtain ⟨exec, he, h⟩ := bind_eq_some_iff.mp h
  split at h
  case h_1 resp hs => exact ⟨exec, resp, he, hs, h⟩
  case h_2 => cases h

theorem plan_backed_iff_sample : ∃ s t plan confirmation,
    run (step sampleConfig) sampleService untilProposal = some s ∧
      step sampleConfig s proposed = some t ∧ t.advertised = some confirmation ∧
        t.pendingAgentActions[confirmation.planId]? = some plan ∧
          ((∀ (fs : List ServiceEvent) (u : Service),
              (∀ e ∈ fs, InWindow plan.leaseId confirmation.expiresAtUnix e) →
                run (step sampleConfig) t fs = some u → u.BackedBy sampleConfig plan.leaseId) ↔
            s.Covers plan.leaseId) := by
  obtain ⟨t, hru, ha⟩ := exists_last (untilProposal ++ [proposed])
    (fun t => t.advertised.isSome = true) (by decide +kernel)
  obtain ⟨confirmation, hc⟩ := isSome_iff_exists.mp ha
  obtain ⟨s, hs, hl⟩ := run_append_eq_some.mp hru
  obtain ⟨t', hp, hn⟩ := run_cons_eq_some.mp hl
  cases hn
  obtain ⟨exec, resp, he, hst, hr⟩ := advertised_eq_some hc
  obtain ⟨plan, hpl, hi⟩ := plan_backed_iff hs hp he hst hr
  exact ⟨s, t, plan, confirmation, hs, hp, hc, hpl, hi⟩

/-- A second passes before the proposal, and the lease ends a second before the plan. -/
def lateProposal : List ServiceEvent := untilProposal ++ [.tick 1001 1, proposed]

theorem plan_outlives_lease : ∃ t u confirmation,
    run (step sampleConfig) sampleService lateProposal = some t ∧
      t.advertised = some confirmation ∧
        run (step sampleConfig) t [.tick 1120 120] = some u ∧
          u.unixNow < confirmation.expiresAtUnix ∧
            (∃ plan, u.pendingAgentActions[confirmation.planId]? = some plan ∧
              ¬ u.BackedBy sampleConfig plan.leaseId) := by
  obtain ⟨u, hr, hu⟩ := exists_last (lateProposal ++ [.tick 1120 120])
    (fun u => u.unixNow = 1120 ∧ (u.pendingAgentActions[sampleId 'c']?.any fun plan =>
      !(u.capabilityLeases[plan.leaseId]?.any fun lease =>
        decide (u.unixNow < lease.expiresAtUnix))) = true) (by decide +kernel)
  obtain ⟨t, ht, ha⟩ := exists_last lateProposal
    (fun t => (t.advertised.any fun confirmation =>
      confirmation.planId == sampleId 'c' && confirmation.expiresAtUnix == 1121) = true)
    (by decide +kernel)
  obtain ⟨hcl, hun⟩ := hu
  obtain ⟨t', ht', hla⟩ := run_append_eq_some.mp hr
  obtain rfl : t = t' := some.inj (ht.symm.trans ht')
  obtain ⟨confirmation, hc, hf⟩ := (any_eq_true _ _).mp ha
  simp only [Bool.and_eq_true, beq_iff_eq] at hf
  obtain ⟨hp, he⟩ := hf
  obtain ⟨plan, hpl, hd⟩ := (any_eq_true _ _).mp hun
  refine ⟨t, u, confirmation, ht, hc, hla, by omega, plan, by rw [hp, hpl], ?_⟩
  rintro ⟨lease, hl, -, hlive, -⟩
  simp [hl, hlive] at hd

end Service

end FocalDesk
