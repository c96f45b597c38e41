import FocalDesk.Agent.View

/-! What registrations and restarts do to each run. -/
namespace FocalDesk
open Library Std.ExtTreeMap

variable {cfg : ServiceConfig} {s t u : Service} {rid r lid : String}
  {req : AgentRequest} {stat : AgentRunStatus} {saved : Bool}

namespace Service

/-- A registration leaves every other run alone, or evicts it. -/
def SameOrEvicted (v v' : RunView) : Prop :=
  v' = v ∨ ∃ state requested leased, v.state = some state ∧ state.isTerminal = true ∧
    v' = { v with state := none, requested, leased }

theorem SameOrEvicted.eq_of_none {v v' : RunView} (h : SameOrEvicted v v') (hv : v.state = none) :
    v' = v := by
  rcases h with h | ⟨state, _, _, hs, -⟩
  · exact h
  · rw [hv] at hs
    cases hs

theorem SameOrEvicted.issued {v v' : RunView} (h : SameOrEvicted v v') (hv : v.issued) :
    v'.issued := by
  rcases h with rfl | ⟨_, _, _, -, -, rfl⟩
  · exact hv
  · exact hv

theorem save_view : (s.save saved stat req).1.view r = s.view r := by
  rw [save_writesRuns.view r]
  simp only [view, save_agentRuns]

variable {reply : RegisterReply}

theorem grantLease_view_of_ne {ls : CapabilityLease}
    (h : ls.runId ≠ r) : (s.grantLease ls reply).1.view r = s.view r := by
  unfold grantLease
  dsimp only
  split
  · rfl
  · split
    · rfl
    · split <;> simp [view, h]

theorem grantLease_view (s : Service) (ls : CapabilityLease) (reply : RegisterReply) :
    ∃ leased, (s.grantLease ls reply).1.view ls.runId = { s.view ls.runId with leased } ∧
      ((s.grantLease ls reply).2 = .ok () → leased) := by
  unfold grantLease
  dsimp only
  split
  · exact ⟨_, rfl, by simp⟩
  · split
    · exact ⟨_, rfl, by simp⟩
    · split
      · exact ⟨_, rfl, by simp⟩
      · exact ⟨_, rfl, by simp⟩

theorem forgetRuns_view (del : String → Bool) (evicted : List String) (s : Service) :
    ∃ requested leased, (forgetRuns del evicted s).1.view r =
        { s.view r with requested, leased } ∧
      (r ∉ evicted → (forgetRuns del evicted s).1.view r = s.view r) := by
  induction evicted generalizing s with
  | nil => exact ⟨_, _, rfl, fun _ => rfl⟩
  | cons rid evicted ih =>
    let erased : Service := { s with
      runCapabilityLeases := s.runCapabilityLeases.erase rid
      agentRequests := s.agentRequests.erase rid }
    have he : r ≠ rid → erased.view r = s.view r := by
      intro hr
      simp [erased, view, Ne.symm hr]
    have hre (t : Service) (ht : t.view r = erased.view r) :
        ∃ requested leased, (forgetRuns del evicted t).1.view r =
          { s.view r with requested, leased } ∧
          (r ∉ rid :: evicted → (forgetRuns del evicted t).1.view r = s.view r) := by
      obtain ⟨requested, leased, hv, hs⟩ := ih t
      refine ⟨requested, leased, by rw [hv, ht]; rfl, fun hr => ?_⟩
      rw [List.mem_cons, not_or] at hr
      rw [hs hr.2, ht, he hr.1]
    unfold forgetRuns
    dsimp only
    split
    · exact hre erased rfl
    · split
      · exact hre _ rfl
      · refine ⟨_, _, rfl, fun hr => he ?_⟩
        rw [List.mem_cons, not_or] at hr
        exact hr.1

/-- The runs and requests after the evictions an insertion makes. -/
theorem evictRuns_view (del : String → Bool) : SameOrEvicted (s.view r)
    ((forgetRuns del (evictRuns s.agentRuns.size s.agentRuns []).2.1
      { s with agentRuns := (evictRuns s.agentRuns.size s.agentRuns []).1 }).1.view r) := by
  obtain ⟨requested, leased, hv, hs⟩ := forgetRuns_view (r := r) del
    (evictRuns s.agentRuns.size s.agentRuns []).2.1
    { s with agentRuns := (evictRuns s.agentRuns.size s.agentRuns []).1 }
  rcases evictRuns_spec s.agentRuns.size s.agentRuns [] r with
    ⟨hg, hin⟩ | ⟨hn, -, stat, hst, ht⟩
  · refine .inl ?_
    rw [hs (by simp [hin])]
    simp only [view, hg]
  · refine .inr ⟨stat.state, requested, leased, by simp [view, hst], ht, ?_⟩
    rw [hv]
    simp [view, hn]

theorem evictOnly_view : SameOrEvicted (s.view r)
    ({ s with agentRuns := (evictRuns s.agentRuns.size s.agentRuns []).1 }.view r) := by
  rcases evictRuns_spec s.agentRuns.size s.agentRuns [] r with
    ⟨hg, -⟩ | ⟨hn, -, stat, hs, ht⟩
  · refine .inl ?_
    simp only [view, hg]
  · exact .inr ⟨stat.state, r ∈ s.agentRequests, r ∈ s.runCapabilityLeases,
      by simp [view, hs], ht, by simp [view, hn]⟩

theorem insertAgentRun_view_of_ne (h : stat.runId ≠ r) :
    SameOrEvicted (s.view r) ((s.insertAgentRun stat req reply).1.view r) := by
  have he := evictRuns_view (s := s) (r := r) reply.delete
  unfold insertAgentRun
  dsimp only
  split
  · exact evictOnly_view
  · split
    case h_1 heq => rwa [heq] at he
    case h_2 t heq =>
      rw [heq] at he
      have hsa : (t.save reply.save stat req).1.view r = t.view r := save_view
      split
      case h_1 hs =>
        rw [hs] at hsa
        rwa [hsa]
      case h_2 u hs =>
        rw [hs] at hsa
        have hi : ({ u with
            agentRequests := u.agentRequests.insert stat.runId req
            agentRuns := u.agentRuns.insert stat.runId stat } : Service).view r = u.view r := by
          simp [view, getElem?_insert, h]
        rwa [hi, hsa]

/-- The run an insertion is about, when its id is new. -/
theorem insertAgentRun_view (s : Service) (stat : AgentRunStatus) (req : AgentRequest)
    (reply : RegisterReply) (hf : s.agentRuns[stat.runId]? = none) :
    ((s.insertAgentRun stat req reply).2 = .ok () ∧
        (s.insertAgentRun stat req reply).1.view stat.runId =
          { s.view stat.runId with state := some stat.state, requested := True }) ∨
      ((s.insertAgentRun stat req reply).2 ≠ .ok () ∧
        (s.insertAgentRun stat req reply).1.view stat.runId = s.view stat.runId) := by
  have hn : (s.view stat.runId).state = none := by simp [view, hf]
  have he := (evictRuns_view (s := s) (r := stat.runId) reply.delete).eq_of_none hn
  unfold insertAgentRun
  dsimp only
  split
  · exact .inr ⟨by simp, (evictOnly_view).eq_of_none hn⟩
  · split
    case h_1 heq =>
      rw [heq] at he
      exact .inr ⟨by simp, he⟩
    case h_2 t heq =>
      rw [heq] at he
      have hsa : (t.save reply.save stat req).1.view stat.runId = _ := (save_view).trans he
      split
      case h_1 hs =>
        rw [hs] at hsa
        exact .inr ⟨by simp, hsa⟩
      case h_2 u hs =>
        rw [hs] at hsa
        refine .inl ⟨rfl, ?_⟩
        rw [← hsa]
        simp [view]

variable {ceiling : Option CapabilityPolicy}

theorem registerAgentRun_view_of_ne {trig : Option AgentTriggerSource} (h : rid ≠ r) :
    SameOrEvicted (s.view r)
      ((s.registerAgentRun cfg req rid lid trig ceiling reply).1.view r) := by
  unfold registerAgentRun
  split
  · exact .inl rfl
  case h_2 defn pol _ =>
    have hg : (s.grantLease (s.newLease cfg defn pol rid lid) reply).1.view r =
        s.view r := grantLease_view_of_ne h
    split
    case h_1 heq =>
      rw [heq] at hg
      exact .inl hg
    case h_2 t heq =>
      rw [heq] at hg
      have hi : SameOrEvicted (t.view r) ((t.insertAgentRun
          (t.newStatus cfg defn req rid trig) req reply).1.view r) :=
        insertAgentRun_view_of_ne h
      rw [hg] at hi
      split
      case h_1 hr => rwa [hr] at hi
      case h_2 u hr =>
        rw [hr] at hi
        have hs : ({ u with
            agentCancellations := u.agentCancellations.insert rid false } : Service).view r =
              u.view r := by
          simp [view, getElem?_insert, h]
        rwa [hs]

/-- The run a registration is about, when its id is new. -/
theorem registerAgentRun_view (cfg : ServiceConfig) (s : Service) (req : AgentRequest)
    (rid lid : String) (trig : Option AgentTriggerSource) (ceiling : Option CapabilityPolicy)
    (reply : RegisterReply) (hf : s.agentRuns[rid]? = none) :
    ((s.registerAgentRun cfg req rid lid trig ceiling reply).2 = .ok () ∧
        (s.registerAgentRun cfg req rid lid trig ceiling reply).1.view rid =
          { s.view rid with
            state := some .waitingForPermission, requested := True, leased := True,
            sender := some false }) ∨
      ((s.registerAgentRun cfg req rid lid trig ceiling reply).2 ≠ .ok () ∧
        ∃ leased,
          (s.registerAgentRun cfg req rid lid trig ceiling reply).1.view rid =
            { s.view rid with leased }) := by
  unfold registerAgentRun
  split
  · exact .inr ⟨by simp, _, rfl⟩
  case h_2 defn pol _ =>
    obtain ⟨leased, hg, hok⟩ := grantLease_view s (s.newLease cfg defn pol rid lid) reply
    split
    case h_1 heq =>
      rw [heq] at hg
      exact .inr ⟨by simp, leased, hg⟩
    case h_2 t heq =>
      rw [heq] at hg hok
      have hg : t.view rid = { s.view rid with leased } := hg
      have hn : t.agentRuns[rid]? = none := by
        have := congrArg RunView.state hg
        simpa [view, hf] using this
      rcases insertAgentRun_view t (t.newStatus cfg defn req rid trig) req
        reply hn with ⟨hr, hv⟩ | ⟨hr, hv⟩
      · split
        case h_1 he =>
          rw [he] at hr
          cases hr
        case h_2 u hu =>
          refine .inl ⟨rfl, ?_⟩
          rw [hu] at hv
          have hv : u.view rid = { t.view rid with
            state := some .waitingForPermission, requested := True } := hv
          have hs : ({ u with
              agentCancellations := u.agentCancellations.insert rid false } : Service).view
                rid = { u.view rid with sender := some false } := by
            simp [view]
          rw [hs, hv, hg]
          simp [hok rfl]
      · split
        case h_1 u error hu =>
          rw [hu] at hv
          exact .inr ⟨by simp, leased, hv.trans hg⟩
        case h_2 u hu =>
          rw [hu] at hr
          exact absurd rfl hr

theorem startAgent_view_of_ne (h : rid ≠ r) : SameOrEvicted (s.view r)
      ((s.startAgent cfg req ceiling rid lid reply).view r) := by
  have hr : SameOrEvicted (s.view r)
      ((s.registerAgentRun cfg req rid lid none ceiling reply).1.view r) :=
    registerAgentRun_view_of_ne h
  unfold startAgent
  split
  case h_1 heq => rwa [heq] at hr
  case h_2 heq =>
    rw [heq] at hr
    rwa [spawn, setExecution_view_of_ne h]

variable {write : StoreReply}

theorem fireAgentTrigger_view_of_ne {src : AgentTriggerSource}
    {fire : Except String Unit} (h : rid ≠ r) : SameOrEvicted (s.view r)
      ((s.fireAgentTrigger cfg req src rid lid reply fire write).view r) := by
  have hr : SameOrEvicted (s.view r)
      ((s.registerAgentRun cfg req rid lid (some src) none reply).1.view r) :=
    registerAgentRun_view_of_ne h
  unfold fireAgentTrigger
  split
  case h_1 heq => rwa [heq] at hr
  case h_2 u heq =>
    rw [heq] at hr
    split
    case h_1 err _ =>
      have hs : (u.transition rid write
          (·.settle .failed u.unixNow (some err)) (.failed err)).1.view r = u.view r :=
        transition_view_of_ne h
      split
      case h_1 hse =>
        rw [hse] at hs
        rwa [hs]
      case h_2 w hse =>
        rw [hse] at hs
        have he : ({ w with
            agentCancellations := w.agentCancellations.erase rid } : Service).view r =
              w.view r := by
          simp [view, getElem?_erase, h]
        rwa [he, hs]
    case h_2 =>
      rwa [spawn, setExecution_view_of_ne h, recordAgentEvent_view]

theorem retryAgentRun_view_of_ne {nrid : String} (h : nrid ≠ r) : SameOrEvicted (s.view r)
      ((s.retryAgentRun cfg rid nrid lid reply write).view r) := by
  unfold retryAgentRun
  split
  case h_2 => exact .inl rfl
  case h_1 run req _ _ =>
    have hr : SameOrEvicted (s.view r)
        ((s.registerAgentRun cfg req nrid lid none none reply).1.view r) :=
      registerAgentRun_view_of_ne h
    split
    case isFalse => exact .inl rfl
    case isTrue =>
      split
      case h_1 heq => rwa [heq] at hr
      case h_2 u heq =>
        rw [heq] at hr
        have hc : (u.transition nrid write
            (fun new => { new with
              observations := run.observations
              completedToolSteps := run.observations.length })
            (.retried rid run.observations.length)).1.view r = u.view r :=
          transition_same fun _ => rfl
        split
        case h_1 hu =>
          rw [hu] at hc
          rwa [hc]
        case h_2 hu =>
          rw [hu] at hc
          rwa [spawn, setExecution_view_of_ne h, hc]

/-- What a registration makes of the run it is about. -/
inductive Registered (v : RunView) : RunView → Prop
  | refused {leased} : Registered v { v with leased }
  | recorded {state sender} (hstate : state ≠ .awaitingConfirmation)
      (hsender : sender = none ∨ sender = some false) :
      Registered v { v with state := some state, requested := True, leased := True, sender }
  | spawned : Registered v
      { v with
        state := some .waitingForPermission, requested := True, leased := True,
        sender := some false, stage := some .starting }

theorem startAgent_view (hf : s.agentRuns[rid]? = none) : Registered (s.view rid)
      ((s.startAgent cfg req ceiling rid lid reply).view rid) := by
  have hr := registerAgentRun_view cfg s req rid lid none ceiling reply hf
  unfold startAgent
  rcases hr with ⟨hok, hv⟩ | ⟨hok, leased, hv⟩
  · split
    case h_1 heq =>
      rw [heq] at hok
      cases hok
    case h_2 heq =>
      rw [heq] at hv
      rw [spawn, setExecution_view, hv]
      exact .spawned
  · split
    case h_1 heq =>
      rw [heq] at hv
      rw [hv]
      exact .refused
    case h_2 heq =>
      rw [heq] at hok
      exact absurd rfl hok

theorem fireAgentTrigger_view {src : AgentTriggerSource}
    {fire : Except String Unit} (hf : s.agentRuns[rid]? = none) :
    Registered (s.view rid) ((s.fireAgentTrigger cfg req src rid lid reply
      fire write).view rid) := by
  have hre := registerAgentRun_view cfg s req rid lid (some src) none reply hf
  unfold fireAgentTrigger
  rcases hre with ⟨hok, hv⟩ | ⟨hok, leased, hv⟩
  · split
    case h_1 heq =>
      rw [heq] at hok
      cases hok
    case h_2 u heq =>
      rw [heq] at hv
      split
      case h_1 err _ =>
        have hs : (u.transition rid write
            (·.settle .failed u.unixNow (some err)) (.failed err)).1.view rid =
              (u.view rid).record .failed := settle_view
        have hr : (u.view rid).record .failed = { s.view rid with
            state := some .failed, requested := True, leased := True, sender := some false } := by
          rw [hv]
          rfl
        split
        case h_1 hse =>
          rw [hse, hr] at hs
          rw [hs]
          exact .recorded nofun (.inr rfl)
        case h_2 w hse =>
          rw [hse, hr] at hs
          have he : ({ w with
              agentCancellations := w.agentCancellations.erase rid } : Service).view rid =
                { w.view rid with sender := none } := by
            simp [view]
          rw [he, hs]
          exact .recorded nofun (.inl rfl)
      case h_2 =>
        rw [spawn, setExecution_view, recordAgentEvent_view, hv]
        exact .spawned
  · split
    case h_1 heq =>
      rw [heq] at hv
      rw [hv]
      exact .refused
    case h_2 heq =>
      rw [heq] at hok
      exact absurd rfl hok

theorem retryAgentRun_view {nrid : String} (hf : s.agentRuns[nrid]? = none) :
    Registered (s.view nrid) ((s.retryAgentRun cfg rid nrid lid reply write).view nrid) := by
  have hs : Registered (s.view nrid) (s.view nrid) := Registered.refused (v := s.view nrid)
  unfold retryAgentRun
  split
  case h_2 => exact hs
  case h_1 run req _ _ =>
    split
    case isFalse => exact hs
    case isTrue =>
      have hr := registerAgentRun_view cfg s req nrid lid none none reply hf
      rcases hr with ⟨hok, hv⟩ | ⟨hok, leased, hv⟩
      · split
        case h_1 heq =>
          rw [heq] at hok
          cases hok
        case h_2 u heq =>
          rw [heq] at hv
          have hc : (u.transition nrid write
              (fun new => { new with
                observations := run.observations
                completedToolSteps := run.observations.length })
              (.retried rid run.observations.length)).1.view nrid = u.view nrid :=
            transition_same fun _ => rfl
          rw [hv] at hc
          split
          case h_1 hu =>
            rw [hu] at hc
            rw [hc]
            exact .recorded nofun (.inr rfl)
          case h_2 hu =>
            rw [hu] at hc
            rw [spawn, setExecution_view, hc]
            exact .spawned
      · split
        case h_1 heq =>
          rw [heq] at hv
          rw [hv]
          exact .refused
        case h_2 heq =>
          rw [heq] at hok
          exact absurd rfl hok

theorem interrupt_isTerminal (now : ℕ) (stat : AgentRunStatus) :
    (interrupt now stat).state.isTerminal := by
  unfold interrupt
  split
  case isTrue h => exact h
  case isFalse => simp [AgentRunStatus.settle, AgentRunState.isTerminal]

theorem restart_view (s : Service) (r : String) (defs : BTreeMap String AgentDefinition)
    (disabled : List String) :
    ∃ state requested, (s.restart defs disabled).view r = { s.view r with
        state, requested, leased := False, sender := none, stage := none, plans := ∅,
        confirming := fun _ => none, cancelling := fun _ => none } ∧
      ∀ st, state = some st → st.isTerminal ∧ r ∈ (s.restart defs disabled).agentRuns := by
  refine ⟨((s.restart defs disabled).view r).state,
    ((s.restart defs disabled).view r).requested, ?_, ?_⟩
  · unfold restart
    dsimp only
    split
    case h_1 => simp [view, new, inFlight, funext_iff]
    case h_2 => simp [view, new, inFlight, funext_iff]
  · intro st hst
    obtain ⟨stat, hs, rfl⟩ := Option.map_eq_some_iff.mp hst
    refine ⟨?_, mem_of_getElem? hs⟩
    unfold restart at hs
    dsimp only at hs
    split at hs
    · simp [new] at hs
    · rcases getElem?_foldl_insert hs with h | ⟨run, hr, -, rfl⟩
      · simp at h
      · obtain ⟨run', -, rfl⟩ := List.mem_map.mp hr
        exact interrupt_isTerminal _ _

end Service

end FocalDesk
