import FocalDesk.Agent.Moves

/-! A task that has not started holds a request that passed registration. -/
namespace FocalDesk
open Library Option

variable {config : ServiceConfig} {s t u : Service} {runId r lid : String}
  {req : AgentRequest} {execution : Execution} {e : ServiceEvent} {reply : StoreReply}

namespace Service

/-- What registration checked of the provider of a request. -/
def Admitted (config : ServiceConfig) (request : AgentRequest) : Prop :=
  request.provider.getD config.defaultProvider ∈ config.providers ∧ config.toolExecutor = true

def Ready (config : ServiceConfig) (s : Service) : Prop :=
  ∀ runId execution, s.Starts runId execution → Admitted config execution.request

theorem Ready.of_startsNone (hs : s.Ready config) (h : StartsNone s t) : t.Ready config :=
  fun runId execution ht => hs runId execution (h runId execution ht)

theorem checkRegistration_admitted {ceiling : Option CapabilityPolicy}
    {usage : Except String (ℕ × ℕ)} {res : AgentDefinition × CapabilityPolicy}
    (h : s.checkRegistration config req ceiling usage = .ok res) :
    Admitted config req := by
  unfold checkRegistration at h
  obtain ⟨_, hv, -⟩ := bind_eq_ok.mp h
  unfold validateAgentRequest at hv
  simp only [bind_eq_ok, bailIf_eq_ok] at hv
  obtain ⟨_, _, _, _, _, hp, _, ht, _⟩ := hv
  exact ⟨by simpa using hp, by simpa using ht⟩

theorem forgetRuns_moves (del : String → Bool) (evicted : List String) (s : Service) :
    Moves s (forgetRuns del evicted s).1 := by
  induction evicted generalizing s with
  | nil => exact .refl
  | cons runId evicted ih =>
    have hr (t : Service) (h : t.executions = s.executions)
        (hl : t.capabilityLeases = s.capabilityLeases) :
        Moves s (forgetRuns del evicted t).1 := (moves_of_eq h hl).trans (ih t)
    unfold forgetRuns
    dsimp only
    split
    · exact hr _ rfl rfl
    · split
      · exact hr _ rfl rfl
      · exact moves_of_eq rfl rfl

variable {reply : RegisterReply}

theorem insertAgentRun_moves {stat : AgentRunStatus} :
    Moves s (s.insertAgentRun stat req reply).1 := by
  have he : Moves s { s with agentRuns := (evictRuns s.agentRuns.size s.agentRuns []).1 } :=
    moves_of_eq rfl rfl
  have hf := he.trans
    (forgetRuns_moves reply.delete (evictRuns s.agentRuns.size s.agentRuns []).2.1 _)
  unfold insertAgentRun
  dsimp only
  split
  · exact he
  · split
    case h_1 heq => rwa [heq] at hf
    case h_2 u heq =>
      rw [heq] at hf
      have hsa : Moves u (u.save reply.save stat req).1 := save_writesRuns.moves
      split
      case h_1 hs =>
        rw [hs] at hsa
        exact hf.trans hsa
      case h_2 hs =>
        rw [hs] at hsa
        exact (hf.trans hsa).trans (moves_of_eq rfl rfl)

theorem grantLease_startsNone {ls : CapabilityLease} :
    StartsNone s (s.grantLease ls reply).1 := by
  refine startsNone_of_eq ?_
  unfold grantLease
  dsimp only
  split
  · rfl
  · split
    · rfl
    · split <;> rfl

/-- A registration starts no task of its own, and goes through for admitted requests only. -/
theorem registerAgentRun_startsNone (config : ServiceConfig) (s : Service) (req : AgentRequest)
    (runId lid : String) (trig : Option AgentTriggerSource) (ceiling : Option CapabilityPolicy)
    (reply : RegisterReply) :
    StartsNone s (s.registerAgentRun config req runId lid trig ceiling reply).1 ∧
      ((s.registerAgentRun config req runId lid trig ceiling reply).2 = .ok () →
        Admitted config req) := by
  unfold registerAgentRun
  split
  · exact ⟨.refl, nofun⟩
  case h_2 defn pol hc =>
    have ha := checkRegistration_admitted hc
    have hg : StartsNone s (s.grantLease (s.newLease config defn pol runId lid)
        reply).1 := grantLease_startsNone
    split
    case h_1 heq =>
      rw [heq] at hg
      exact ⟨hg, fun _ => ha⟩
    case h_2 u heq =>
      rw [heq] at hg
      have hi : Moves u (u.insertAgentRun
          (u.newStatus config defn req runId trig) req reply).1 :=
        insertAgentRun_moves
      split
      case h_1 hr =>
        rw [hr] at hi
        exact ⟨hg.trans hi.startsNone, fun _ => ha⟩
      case h_2 hr =>
        rw [hr] at hi
        exact ⟨hg.trans (hi.startsNone.trans (startsNone_of_eq rfl)), fun _ => ha⟩

theorem spawn_ready {observations : List AgentStepResult} (hs : s.Ready config)
    (h : Admitted config req) : (s.spawn runId req observations).Ready config := by
  intro r execution ⟨hg, hst⟩
  rw [spawn, setExecution, Std.ExtTreeMap.getElem?_insert] at hg
  split at hg
  case isTrue =>
    cases hg
    exact h
  case isFalse => exact hs r execution ⟨hg, hst⟩

theorem startAgent_ready {ceiling : Option CapabilityPolicy} (hs : s.Ready config) :
    (s.startAgent config req ceiling runId lid reply).Ready config := by
  obtain ⟨hn, ha⟩ := registerAgentRun_startsNone config s req runId lid none ceiling reply
  unfold startAgent
  split
  case h_1 heq =>
    rw [heq] at hn
    exact hs.of_startsNone hn
  case h_2 heq =>
    rw [heq] at hn ha
    exact spawn_ready (hs.of_startsNone hn) (ha rfl)

theorem fireAgentTrigger_ready {src : AgentTriggerSource}
    {fire : Except String Unit} {write : StoreReply} (hs : s.Ready config) :
    (s.fireAgentTrigger config req src runId lid reply fire write).Ready config := by
  obtain ⟨hn, ha⟩ := registerAgentRun_startsNone config s req runId lid (some src) none reply
  unfold fireAgentTrigger
  split
  case h_1 heq =>
    rw [heq] at hn
    exact hs.of_startsNone hn
  case h_2 u heq =>
    rw [heq] at hn ha
    have hu := hs.of_startsNone hn
    split
    case h_1 err _ =>
      have hse : StartsNone u (u.transition runId write
          (·.settle .failed u.unixNow (some err)) (.failed err)).1 :=
        transition_writesRuns.moves.startsNone
      split
      case h_1 hst =>
        rw [hst] at hse
        exact hu.of_startsNone hse
      case h_2 hst =>
        rw [hst] at hse
        exact hu.of_startsNone (hse.trans (startsNone_of_eq rfl))
    case h_2 =>
      exact spawn_ready (hu.of_startsNone recordAgentEvent_writesRuns.moves.startsNone) (ha rfl)

theorem retryAgentRun_ready {nrid : String} {write : StoreReply} (hs : s.Ready config) :
    (s.retryAgentRun config runId nrid lid reply write).Ready config := by
  unfold retryAgentRun
  split
  case h_2 => exact hs
  case h_1 run req _ _ =>
    obtain ⟨hn, ha⟩ := registerAgentRun_startsNone config s req nrid lid none none reply
    split
    case isFalse => exact hs
    case isTrue =>
      split
      case h_1 heq =>
        rw [heq] at hn
        exact hs.of_startsNone hn
      case h_2 u heq =>
        rw [heq] at hn ha
        have hu := hs.of_startsNone hn
        have hc : StartsNone u (u.transition nrid write
            (fun new => { new with
              observations := run.observations
              completedToolSteps := run.observations.length })
            (.retried runId run.observations.length)).1 := transition_writesRuns.moves.startsNone
        split
        case h_1 hup =>
          rw [hup] at hc
          exact hu.of_startsNone hc
        case h_2 hup =>
          rw [hup] at hc
          exact spawn_ready (hu.of_startsNone hc) (ha rfl)

theorem step_ready (hs : s.Ready config) (h : s.step config e = some t) : t.Ready config := by
  have hi {runId lid u} (hu : s.issue runId lid = some u) : u.Ready config := by
    obtain ⟨-, rfl⟩ := issue_eq_some.mp hu
    exact hs.of_startsNone (startsNone_of_eq rfl)
  cases e with
  | tick unixNow instant =>
    simp only [step] at h
    split at h
    · cases h
      exact hs.of_startsNone (startsNone_of_eq rfl)
    · cases h
  | setAgentDefinitions | setDisabledAgents | expireLeases | revokeCapabilityLease =>
    cases h
    exact hs.of_startsNone (startsNone_of_eq rfl)
  | startAgent =>
    obtain ⟨u, hu, rfl⟩ := map_eq_some_iff.mp h
    exact startAgent_ready (hi hu)
  | fireAgentTrigger =>
    obtain ⟨u, hu, rfl⟩ := map_eq_some_iff.mp h
    exact fireAgentTrigger_ready (hi hu)
  | retryAgentRun =>
    obtain ⟨u, hu, rfl⟩ := map_eq_some_iff.mp h
    exact retryAgentRun_ready (hi hu)
  | execution =>
    obtain ⟨_, -, hst⟩ := bind_eq_some_iff.mp h
    exact hs.of_startsNone (stepExecution_moves hst).startsNone
  | confirmAgentAction =>
    simp only [step] at h
    split at h
    · cases h
    · cases h
      unfold confirmAgentAction
      split
      · exact hs
      · split
        · exact hs
        · exact hs.of_startsNone (startsNone_of_eq rfl)
  | confirmation =>
    obtain ⟨_, -, hst⟩ := bind_eq_some_iff.mp h
    exact hs.of_startsNone (stepConfirmation_moves hst).startsNone
  | cancelAgentRun =>
    simp only [step] at h
    split at h
    · cases h
    · cases h
      unfold cancelAgentRun
      split
      · exact hs
      · split
        · split <;> exact hs.of_startsNone (startsNone_of_eq rfl)
        · exact hs.of_startsNone (startsNone_of_eq rfl)
  | cancellation =>
    obtain ⟨_, -, hst⟩ := bind_eq_some_iff.mp h
    exact hs.of_startsNone (stepCancellation_moves hst).startsNone
  | restart defs disabled =>
    cases h
    intro runId execution hsa
    have hn : (s.restart defs disabled).executions = ∅ := by
      unfold restart
      dsimp only
      split <;> rfl
    have hg := hsa.1
    simp [hn] at hg

end Service

end FocalDesk
