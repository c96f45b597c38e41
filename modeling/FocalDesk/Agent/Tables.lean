import FocalDesk.Agent.Steps

/-! What the tables of the service remember of a run, and that every step keeps it. -/
namespace FocalDesk
open Library List Option Std.ExtTreeMap

variable {cfg : ServiceConfig} {s t u : Service} {runId lid : String}
  {request req : AgentRequest} {status : AgentRunStatus} {saved : Bool}
  {upd : AgentRunStatus → AgentRunStatus} {kind : AgentRunEventKind} {reply : StoreReply}
  {added added' : String → AgentRequest → Prop} {e : ServiceEvent} {call : ℕ}

namespace Service

/-- A request the service holds for a run, in memory or in its store. -/
def Remembers (s : Service) (runId : String) (request : AgentRequest) : Prop :=
  s.agentRequests[runId]? = some request ∨
    ∃ store, s.agentRunStore = some store ∧ ∃ status, store[runId]? = some (status, request)

/-- Runs are kept under their own ids. -/
structure Keyed (s : Service) : Prop where
  runs : ∀ (runId : String) (status : AgentRunStatus),
    s.agentRuns[runId]? = some status → status.runId = runId
  stored : ∀ store, s.agentRunStore = some store → ∀ (runId : String)
    (run : AgentRunStatus × AgentRequest), store[runId]? = some run → run.1.runId = runId

/-- What `t` holds was held by `s` or is among what was added. -/
structure Kept (added : String → AgentRequest → Prop) (s t : Service) : Prop where
  keyed : t.Keyed
  runs : ∀ runId, runId ∈ t.agentRuns →
    runId ∈ s.agentRuns ∨ ∃ request, s.Remembers runId request ∨ added runId request
  remembers : ∀ runId request, t.Remembers runId request →
    s.Remembers runId request ∨ added runId request

def Keeps (added : String → AgentRequest → Prop) (s t : Service) : Prop :=
  s.Keyed → Kept added s t

theorem Keeps.refl : Keeps added s s :=
  fun h => ⟨h, fun _ => .inl, fun _ _ => .inl⟩

theorem Keeps.trans (h : Keeps added s t) (h' : Keeps added t u) : Keeps added s u := by
  intro hs
  have ht := h hs
  have hu := h' ht.keyed
  refine ⟨hu.keyed, fun runId hr => ?_, fun runId req hr => ?_⟩
  · rcases hu.runs runId hr with hr | ⟨req, hr | hr⟩
    · exact ht.runs runId hr
    · exact .inr ⟨req, ht.remembers runId req hr⟩
    · exact .inr ⟨req, .inr hr⟩
  · rcases hu.remembers runId req hr with hr | hr
    · exact ht.remembers runId req hr
    · exact .inr hr

theorem Keeps.mono (h : Keeps added s t) (hle : ∀ runId req, added runId req →
    added' runId req) : Keeps added' s t := by
  intro hs
  have ht := h hs
  refine ⟨ht.keyed, fun runId hr => ?_, fun runId req hr =>
    (ht.remembers runId req hr).imp_right (hle runId req)⟩
  exact (ht.runs runId hr).imp_right fun ⟨req, hr⟩ =>
    ⟨req, hr.imp_right (hle runId req)⟩

/-- The usual case: the update adds nothing. -/
abbrev Preserves (s t : Service) : Prop := Keeps (fun _ _ => False) s t

theorem Preserves.trans (h : Preserves s t) (h' : Preserves t u) : Preserves s u :=
  Keeps.trans h h'

theorem Preserves.keeps (h : Preserves s t) : Keeps added s t := h.mono fun _ _ => False.elim

theorem keeps_of_eq (hru : t.agentRuns = s.agentRuns) (hr : t.agentRequests = s.agentRequests)
    (hst : t.agentRunStore = s.agentRunStore) :
    Keeps added s t := by
  intro hs
  refine ⟨⟨fun runId status h => hs.runs runId status (hru ▸ h),
    fun sto h => hs.stored sto (hst ▸ h)⟩, fun runId h => .inl (hru ▸ h),
    fun runId req h => .inl ?_⟩
  rw [Remembers, hr, hst] at h
  exact h

/-! Persistence. -/

theorem save_agentRuns : (s.save saved status req).1.agentRuns = s.agentRuns := by
  unfold save
  split
  · rfl
  · split <;> rfl

theorem save_remembers {runId : String} {request' : AgentRequest}
    (h : (s.save saved status req).1.Remembers runId request') :
    s.Remembers runId request' ∨ (runId = status.runId ∧ request' = req) := by
  unfold save at h
  split at h
  case h_1 => exact .inl h
  case h_2 sto hs =>
    split at h
    case isFalse => exact .inl h
    case isTrue =>
      rcases h with h | ⟨sto', hs', status', hg⟩
      · exact .inl (.inl h)
      · cases hs'
        rw [Std.ExtTreeMap.getElem?_insert] at hg
        split at hg
        case isTrue heq =>
          cases hg
          exact .inr ⟨(Std.LawfulEqCmp.eq_of_compare heq).symm, rfl⟩
        case isFalse => exact .inl (.inr ⟨sto, hs, status', hg⟩)

theorem save_keyed (hs : s.Keyed) : (s.save saved status req).1.Keyed := by
  refine ⟨fun runId status' h => hs.runs runId status' (save_agentRuns ▸ h), ?_⟩
  unfold save
  split
  · exact hs.stored
  case h_2 store hst =>
    split
    case isFalse => exact hs.stored
    case isTrue =>
      intro sto' hst' runId run hr
      cases hst'
      rw [Std.ExtTreeMap.getElem?_insert] at hr
      split at hr
      case isTrue heq =>
        cases hr
        exact Std.LawfulEqCmp.eq_of_compare heq
      case isFalse => exact hs.stored store hst runId run hr

/-- Saving a run with the request held for it remembers nothing new. -/
theorem save_preserves (h : s.agentRequests[status.runId]? = some req) :
    Preserves s (s.save saved status req).1 := by
  intro hs
  refine ⟨save_keyed hs, fun runId h' => .inl (save_agentRuns ▸ h'), fun runId request' h' => ?_⟩
  rcases save_remembers h' with h' | ⟨rfl, rfl⟩
  · exact .inl h'
  · exact .inl (.inl h)

theorem insertRun_preserves (hid : status.runId = runId) (hr : runId ∈ s.agentRuns) :
    Preserves s { s with agentRuns := s.agentRuns.insert runId status } := by
  intro hs
  refine ⟨⟨fun runId' status' h => ?_, hs.stored⟩, fun runId' h => .inl ?_, fun _ _ h => .inl h⟩
  · simp only [Std.ExtTreeMap.getElem?_insert] at h
    split at h
    case isTrue heq =>
      cases h
      exact hid.trans (Std.LawfulEqCmp.eq_of_compare heq)
    case isFalse => exact hs.runs runId' status' h
  · rcases Std.ExtTreeMap.mem_insert.mp h with h | h
    · exact Std.LawfulEqCmp.eq_of_compare h ▸ hr
    · exact h

theorem persistAgentRun_preserves : Preserves s (s.persistAgentRun saved status).1 := by
  unfold persistAgentRun
  split
  · exact Keeps.refl
  · exact Keeps.refl
  · exact save_preserves ‹_›

theorem updateAgentRun_preserves (s : Service) (runId : String) (saved : Bool)
    (hid : ∀ status, (upd status).runId = status.runId) :
    Preserves s (s.updateAgentRun runId saved upd).1 := by
  intro hs
  unfold updateAgentRun
  split
  · exact Keeps.refl hs
  case h_2 status hg =>
    have hi : Preserves s
        { s with agentRuns := s.agentRuns.insert runId (upd status) } :=
      insertRun_preserves ((hid status).trans (hs.runs runId status hg)) (mem_of_getElem? hg)
    exact hi.trans persistAgentRun_preserves hs

theorem putRun_preserves (hid : status.runId = runId) (hr : runId ∈ s.agentRuns) :
    Preserves s (s.putRun runId saved status) := by
  have hi : Preserves s { s with agentRuns := s.agentRuns.insert runId status } :=
    insertRun_preserves hid hr
  unfold putRun
  dsimp only
  split
  · exact hi
  case h_2 req hre => exact hi.trans (save_preserves (hid ▸ hre))

theorem recordAgentEvent_preserves : Preserves s (s.recordAgentEvent runId saved kind) := by
  intro hs
  unfold recordAgentEvent
  split
  · exact Keeps.refl hs
  case h_2 status hg =>
    exact putRun_preserves ((status.appendEvent_runId _ _).trans (hs.runs runId status hg))
      (mem_of_getElem? hg) hs

theorem checkpointStep_preserves {step : AgentStepResult} :
    Preserves s (s.checkpointStep runId saved step) := by
  intro hs
  unfold checkpointStep
  split
  · exact Keeps.refl hs
  case h_2 status hg => exact putRun_preserves (hs.runs runId status hg) (mem_of_getElem? hg) hs

theorem transition_preserves (hid : ∀ status, (upd status).runId = status.runId) :
    Preserves s (s.transition runId reply upd kind).1 := by
  have hu := updateAgentRun_preserves s runId reply.save hid
  unfold transition
  split
  case h_1 heq => rwa [heq] at hu
  case h_2 heq =>
    rw [heq] at hu
    exact hu.trans recordAgentEvent_preserves

theorem leave_preserves (hid : ∀ status, (upd status).runId = status.runId) :
    Preserves s (s.leave runId reply upd kind) :=
  (transition_preserves hid).trans (keeps_of_eq rfl rfl rfl)

theorem leaveCancelled_preserves : Preserves s (s.leaveCancelled runId reply) :=
  leave_preserves fun _ => rfl

theorem leaveFailed_preserves {err : String} : Preserves s (s.leaveFailed runId reply err) :=
  leave_preserves fun _ => rfl

theorem advance_preserves {kind : Option AgentRunEventKind} {stg : ExecutionStage}
    (hid : ∀ status, (upd status).runId = status.runId) :
    Preserves s (s.advance runId reply upd kind stg) := by
  have hu := updateAgentRun_preserves s runId reply.save hid
  unfold advance
  split
  case h_1 heq =>
    rw [heq] at hu
    exact hu.trans (keeps_of_eq rfl rfl rfl)
  case h_2 heq =>
    rw [heq] at hu
    split
    · exact hu.trans ((recordAgentEvent_preserves).trans (keeps_of_eq rfl rfl rfl))
    · exact hu.trans (keeps_of_eq rfl rfl rfl)

theorem setStage_preserves {stg : ExecutionStage} : Preserves s (s.setStage runId stg) :=
  keeps_of_eq rfl rfl rfl

variable {execution : Execution}

theorem setExecution_preserves : Preserves s (s.setExecution runId execution) :=
  keeps_of_eq rfl rfl rfl

theorem start_preserves : Preserves s (s.start cfg runId execution reply) := by
  unfold start
  split
  · exact setStage_preserves
  · exact (setExecution_preserves).trans recordAgentEvent_preserves

theorem authorizeRun_preserves {gr : Bool} :
    Preserves s (s.authorizeRun cfg runId execution gr reply) := by
  unfold authorizeRun
  split
  · exact setStage_preserves
  · exact leaveFailed_preserves

theorem callTool_preserves {t : String} {args : Value} :
    Preserves s (s.callTool cfg runId execution t args reply) := by
  unfold callTool
  dsimp only
  split
  · exact (recordAgentEvent_preserves).trans setStage_preserves
  · exact (recordAgentEvent_preserves).trans (keeps_of_eq rfl rfl rfl)

theorem toolReturned_preserves {t : String} {args : Value} {res : Except String Value} :
    Preserves s (s.toolReturned runId execution t args res reply) := by
  cases res with
  | error error => exact setStage_preserves
  | ok res =>
    exact ((checkpointStep_preserves).trans recordAgentEvent_preserves).trans setExecution_preserves

theorem finish_preserves {res : Except String AgentResponse} :
    Preserves s (s.finish runId execution res reply) := by
  cases res with
  | error error => exact setStage_preserves
  | ok resp =>
    unfold finish
    dsimp only
    split
    · exact (recordAgentEvent_preserves).trans setStage_preserves
    · exact setStage_preserves

theorem propose_preserves {resp : AgentResponse}
    {act : AgentProposedAction} {pl : String} :
    Preserves s (s.propose runId execution resp act pl reply) := by
  have hs : Preserves s s.sweepPlans := keeps_of_eq rfl rfl rfl
  unfold propose
  dsimp only
  split
  · exact hs.trans leaveFailed_preserves
  · exact keeps_of_eq rfl rfl rfl

/-- A step of a task registers nothing. -/
theorem stepExecution_preserves {ev : ExecutionEvent}
    (h : s.stepExecution cfg runId execution ev = some t) : Preserves s t := by
  cases stepExecution_cases h with
  | start => exact start_preserves
  | authorize => exact authorizeRun_preserves
  | observeCancelled => exact leaveCancelled_preserves
  | observe => exact setStage_preserves
  | enqueue => exact advance_preserves fun _ => rfl
  | cancelQueued => exact leaveCancelled_preserves
  | acquire => exact setStage_preserves
  | markRunning => exact advance_preserves fun _ => rfl
  | poll => exact setStage_preserves
  | cancelRunning => exact leaveCancelled_preserves
  | pend => exact setStage_preserves
  | timeOut => exact setStage_preserves
  | plan => exact recordAgentEvent_preserves
  | callTool => exact callTool_preserves
  | toolReturned => exact toolReturned_preserves
  | finish => exact finish_preserves
  | concludeError => exact leaveFailed_preserves
  | conclude => exact setStage_preserves
  | propose => exact propose_preserves
  | publish => exact leave_preserves fun _ => rfl
  | drop => exact keeps_of_eq rfl rfl rfl

/-! Confirmations and cancellations. -/

theorem stepConfirmation_preserves {conf : Confirmation} {ev : ConfirmationEvent}
    (h : s.stepConfirmation cfg call conf ev = some t) : Preserves s t := by
  cases stepConfirmation_cases h with
  | @resolve st err reply =>
    have hr : Preserves s (s.transition conf.pending.runId reply
        (·.settle st s.unixNow err) (resolvedEvent err)).1 :=
      transition_preserves fun _ => rfl
    exact hr.trans (keeps_of_eq rfl rfl rfl)
  | check | refused | approved | unconfigured | unauthorized | execute | executed =>
    exact keeps_of_eq rfl rfl rfl

theorem stepCancellation_preserves {can : Cancellation} {ev : CancellationEvent}
    (h : s.stepCancellation call can ev = some t) : Preserves s t := by
  have ht {reply : StoreReply} : Preserves s (s.transition can.runId reply
      (·.settle .cancelled s.unixNow none) .cancelled).1 := transition_preserves fun _ => rfl
  cases stepCancellation_cases h with
  | settled => exact ht.trans (keeps_of_eq rfl rfl rfl)
  | failed => exact ht.trans (keeps_of_eq rfl rfl rfl)
  | awaiting | notAwaiting | purge => exact keeps_of_eq rfl rfl rfl

/-! Registration. -/

/-- The run and request a registration adds. -/
def Adds (runId : String) (request : AgentRequest) : String → AgentRequest → Prop :=
  fun runId' request' => runId' = runId ∧ request' = request

/-- Every run is left as it was or, when it was terminal, evicted. -/
theorem evictRuns_spec (fuel : ℕ) (rs : BTreeMap String AgentRunStatus) (evicted : List String)
    (r : String) :
    ((evictRuns fuel rs evicted).1[r]? = rs[r]? ∧
        (r ∈ (evictRuns fuel rs evicted).2.1 ↔ r ∈ evicted)) ∨
      ((evictRuns fuel rs evicted).1[r]? = none ∧ r ∈ (evictRuns fuel rs evicted).2.1 ∧
        ∃ status, rs[r]? = some status ∧ status.state.isTerminal) := by
  induction fuel generalizing rs evicted with
  | zero => exact .inl ⟨rfl, Iff.rfl⟩
  | succ fuel ih =>
    unfold evictRuns
    split
    · exact .inl ⟨rfl, Iff.rfl⟩
    · split
      case h_1 => exact .inl ⟨rfl, Iff.rfl⟩
      case h_2 oldest status hmi =>
        have hm := minByKey_mem hmi
        rw [mem_filter, mem_toList_iff_getElem?_eq_some] at hm
        by_cases hr : oldest = r
        · subst hr
          rcases ih (rs.erase oldest) (evicted ++ [oldest]) with ⟨hs, hin⟩ | ⟨_, _, _, hg, _⟩
          · refine .inr ⟨?_, hin.mpr (by simp), status, hm.1, hm.2⟩
            rw [hs, getElem?_erase_self]
          · rw [getElem?_erase_self] at hg
            cases hg
        · have he : (rs.erase oldest)[r]? = rs[r]? := by
            simp [getElem?_erase, hr]
          rcases ih (rs.erase oldest) (evicted ++ [oldest]) with ⟨hs, hin⟩ | ⟨hn, hin, hg⟩
          · refine .inl ⟨hs.trans he, hin.trans ?_⟩
            simp [Ne.symm hr]
          · rw [he] at hg
            exact .inr ⟨hn, hin, hg⟩

theorem evictRuns_preserves : Preserves s
    { s with agentRuns := (evictRuns s.agentRuns.size s.agentRuns []).1 } := by
  have he {runId : String} {status : AgentRunStatus}
      (h : (evictRuns s.agentRuns.size s.agentRuns []).1[runId]? = some status) :
      s.agentRuns[runId]? = some status := by
    rcases evictRuns_spec s.agentRuns.size s.agentRuns [] runId with ⟨hsa, -⟩ | ⟨hn, -⟩
    · rw [← hsa, h]
    · rw [hn] at h
      cases h
  intro hs
  refine ⟨⟨fun runId status h => hs.runs runId status (he h), hs.stored⟩,
    fun runId h => .inl ?_, fun _ _ h => .inl h⟩
  obtain ⟨status, hst⟩ := exists_getElem?_of_mem h
  exact mem_of_getElem? (he hst)

theorem forgetRuns_preserves (del : String → Bool) (evicted : List String) (s : Service) :
    Preserves s (forgetRuns del evicted s).1 := by
  induction evicted generalizing s with
  | nil => exact Keeps.refl
  | cons runId evicted ih =>
    have he : Preserves s { s with
        runCapabilityLeases := s.runCapabilityLeases.erase runId
        agentRequests := s.agentRequests.erase runId } := by
      intro hs
      refine ⟨⟨hs.runs, hs.stored⟩, fun _ => .inl, fun runId' req h => .inl ?_⟩
      exact h.imp_left getElem?_of_erase
    unfold forgetRuns
    dsimp only
    split
    · exact he.trans (ih _)
    case h_2 sto hst =>
      split
      · refine he.trans (Keeps.trans ?_ (ih _))
        intro hs
        refine ⟨⟨hs.runs, ?_⟩, fun _ => .inl, fun runId' req h => .inl ?_⟩
        · rintro sto' hst' runId' run hr
          cases hst'
          exact hs.stored sto hst runId' run (getElem?_of_erase hr)
        refine h.imp_right ?_
        rintro ⟨sto', hst', status, hg⟩
        cases hst'
        exact ⟨sto, hst, status, getElem?_of_erase hg⟩
      · exact he

variable {reply : RegisterReply}

theorem insertAgentRun_keeps :
    Keeps (Adds status.runId req) s (s.insertAgentRun status req reply).1 := by
  have he := evictRuns_preserves (s := s)
  have hf := forgetRuns_preserves reply.delete
    (evictRuns s.agentRuns.size s.agentRuns []).2.1
    { s with agentRuns := (evictRuns s.agentRuns.size s.agentRuns []).1 }
  unfold insertAgentRun
  dsimp only
  split
  · exact he.keeps
  · split
    case h_1 heq =>
      rw [heq] at hf
      exact Preserves.keeps (he.trans hf)
    case h_2 t heq =>
      rw [heq] at hf
      have hk : Preserves s t := he.trans hf
      generalize hsa : t.save reply.save status req = saved
      obtain ⟨u, out⟩ := saved
      have hu : (t.save reply.save status req).1 = u := congrArg Prod.fst hsa
      have hr : u.agentRuns = t.agentRuns := hu ▸ save_agentRuns
      have hs {runId' : String} {request' : AgentRequest} (h : u.Remembers runId' request') :
          t.Remembers runId' request' ∨ Adds status.runId req runId' request' := by
        rw [← hu] at h
        exact save_remembers h
      refine hk.keeps.trans ?_
      intro ht
      cases out with
      | error error =>
        exact ⟨hu ▸ save_keyed ht, fun runId' h => .inl (hr ▸ h), fun runId' request' h => hs h⟩
      | ok =>
        refine ⟨⟨fun runId' status' h => ?_, (hu ▸ save_keyed ht : u.Keyed).stored⟩,
          fun runId' h => ?_, fun runId' request' h => ?_⟩
        · simp only [Std.ExtTreeMap.getElem?_insert, hr] at h
          split at h
          case isTrue heq =>
            cases h
            exact Std.LawfulEqCmp.eq_of_compare heq
          case isFalse => exact ht.runs runId' status' h
        · rcases Std.ExtTreeMap.mem_insert.mp h with h | h
          · exact .inr ⟨req, .inr ⟨(Std.LawfulEqCmp.eq_of_compare h).symm, rfl⟩⟩
          · exact .inl (hr ▸ h)
        · rcases h with h | h
          · simp only [Std.ExtTreeMap.getElem?_insert] at h
            split at h
            case isTrue heq =>
              cases h
              exact .inr ⟨(Std.LawfulEqCmp.eq_of_compare heq).symm, rfl⟩
            case isFalse => exact hs (.inl h)
          · exact hs (.inr h)

theorem grantLease_preserves {ls : CapabilityLease} :
    Preserves s (s.grantLease ls reply).1 := by
  unfold grantLease
  dsimp only
  split
  · exact keeps_of_eq rfl rfl rfl
  · split
    · exact keeps_of_eq rfl rfl rfl
    · split <;> exact keeps_of_eq rfl rfl rfl

theorem registerAgentRun_keeps {trig : Option AgentTriggerSource}
    {ceiling : Option CapabilityPolicy} : Keeps (Adds runId req) s
      (s.registerAgentRun cfg req runId lid trig ceiling reply).1 := by
  unfold registerAgentRun
  split
  · exact Keeps.refl
  case h_2 defn pol _ =>
    have hg : Preserves s
        (s.grantLease (s.newLease cfg defn pol runId lid) reply).1 :=
      grantLease_preserves
    split
    case h_1 heq =>
      rw [heq] at hg
      exact hg.keeps
    case h_2 t heq =>
      rw [heq] at hg
      have hi : Keeps (Adds runId req) t
          (t.insertAgentRun (t.newStatus cfg defn req runId trig) req reply).1 := by
        have hid : (t.newStatus cfg defn req runId trig).runId = runId := rfl
        rw [← hid]
        exact insertAgentRun_keeps
      split
      case h_1 hr =>
        rw [hr] at hi
        exact hg.keeps.trans hi
      case h_2 u hr =>
        rw [hr] at hi
        exact (hg.keeps.trans hi).trans (keeps_of_eq rfl rfl rfl)

theorem spawn_preserves {observations : List AgentStepResult} :
    Preserves s (s.spawn runId req observations) :=
  setExecution_preserves

theorem startAgent_keeps {ceiling : Option CapabilityPolicy} :
    Keeps (Adds runId req) s (s.startAgent cfg req ceiling runId lid reply) := by
  have hr : Keeps (Adds runId req) s
      (s.registerAgentRun cfg req runId lid none ceiling reply).1 :=
    registerAgentRun_keeps
  unfold startAgent
  split
  case h_1 heq => rwa [heq] at hr
  case h_2 heq =>
    rw [heq] at hr
    exact hr.trans (spawn_preserves).keeps

theorem fireAgentTrigger_keeps {src : AgentTriggerSource}
    {fire : Except String Unit} {write : StoreReply} : Keeps (Adds runId req) s
      (s.fireAgentTrigger cfg req src runId lid reply fire write) := by
  have hr : Keeps (Adds runId req) s
      (s.registerAgentRun cfg req runId lid (some src) none reply).1 :=
    registerAgentRun_keeps
  unfold fireAgentTrigger
  split
  case h_1 heq => rwa [heq] at hr
  case h_2 t heq =>
    rw [heq] at hr
    split
    case h_1 _ err _ =>
      have hf : Preserves t (t.transition runId write
          (fun run => run.settle .failed t.unixNow (some err)) (.failed err)).1 :=
        transition_preserves fun _ => rfl
      split
      case h_1 hru =>
        rw [hru] at hf
        exact hr.trans hf.keeps
      case h_2 hru =>
        rw [hru] at hf
        exact (hr.trans hf.keeps).trans (keeps_of_eq rfl rfl rfl)
    case h_2 =>
      exact hr.trans ((recordAgentEvent_preserves).trans spawn_preserves).keeps

theorem retryAgentRun_keeps {nrid : String} {write : StoreReply} :
    Keeps (fun runId' _ => runId' = nrid) s (s.retryAgentRun cfg runId nrid lid reply write) := by
  unfold retryAgentRun
  split
  case h_1 run req _ _ =>
    have hre : Keeps (fun runId' _ => runId' = nrid) s
        (s.registerAgentRun cfg req nrid lid none none reply).1 :=
      (registerAgentRun_keeps).mono fun _ _ => And.left
    split
    · split
      case h_1 heq => rwa [heq] at hre
      case h_2 t heq =>
        rw [heq] at hre
        have hr : Preserves t (t.transition nrid write
            (fun new => { new with
              observations := run.observations
              completedToolSteps := run.observations.length })
            (.retried runId run.observations.length)).1 := transition_preserves fun _ => rfl
        split
        case h_1 hru =>
          rw [hru] at hr
          exact hre.trans hr.keeps
        case h_2 hru =>
          rw [hru] at hr
          exact hre.trans (hr.trans spawn_preserves).keeps
    · exact Keeps.refl
  · exact Keeps.refl

/-! Restart. -/

theorem mem_loadRuns {sto : BTreeMap String (AgentRunStatus × AgentRequest)}
    {run : AgentRunStatus × AgentRequest} (h : run ∈ loadRuns sto) :
    ∃ runId : String, sto[runId]? = some run := by
  have hm := (mem_insertionSort _).mp (mem_of_mem_take h)
  obtain ⟨⟨runId, run'⟩, hin, rfl⟩ := mem_map.mp hm
  exact ⟨runId, mem_toList_iff_getElem?_eq_some.mp hin⟩

theorem interrupt_runId (now : ℕ) (status : AgentRunStatus) :
    (interrupt now status).runId = status.runId := by
  unfold interrupt
  split
  · rfl
  · exact AgentRunStatus.appendEvent_runId _ _ _

/-- What a restart reloads was in the store. -/
theorem restart_preserves {defs : BTreeMap String AgentDefinition}
    {disabled : List String} : Preserves s (s.restart defs disabled) := by
  intro hs
  have hl {sto} (hst : s.agentRunStore = some sto)
      {run : AgentRunStatus × AgentRequest} (h : run ∈ (loadRuns sto).map
        fun run => (interrupt s.unixNow run.1, run.2)) : s.Remembers run.1.runId run.2 := by
    obtain ⟨run', hr', rfl⟩ := mem_map.mp h
    obtain ⟨runId, hg⟩ := mem_loadRuns hr'
    refine .inr ⟨sto, hst, run'.1, ?_⟩
    simp only [interrupt_runId]
    rw [hs.stored sto hst runId run' hg, hg]
  unfold restart
  dsimp only
  split
  case h_1 hst =>
    refine ⟨⟨?_, ?_⟩, ?_, ?_⟩
    · intro runId status h
      simp [new] at h
    · intro sto h
      simp [new] at h
    · intro runId h
      simp [new] at h
    · rintro runId req (h | ⟨sto, h, -⟩)
      · simp [new] at h
      · simp [new] at h
  case h_2 sto hst =>
    refine ⟨⟨?_, ?_⟩, ?_, ?_⟩
    · intro runId status h
      rcases getElem?_foldl_insert h with h | ⟨run, -, rfl, rfl⟩
      · simp at h
      · rfl
    · intro sto' hst' runId run h
      cases hst'
      rcases getElem?_foldl_insert h with h | ⟨run', -, rfl, rfl⟩
      · exact hs.stored sto hst runId run h
      · rfl
    · intro runId h
      obtain ⟨status, hsa⟩ := exists_getElem?_of_mem h
      rcases getElem?_foldl_insert hsa with h | ⟨run, hr, rfl, -⟩
      · simp at h
      · exact .inr ⟨run.2, .inl (hl hst hr)⟩
    · rintro runId req (h | ⟨sto', hst', status, h⟩)
      · rcases getElem?_foldl_insert h with h | ⟨run, hr, rfl, rfl⟩
        · simp at h
        · exact .inl (hl hst hr)
      · cases hst'
        rcases getElem?_foldl_insert h with h | ⟨run, hr, rfl, rfl⟩
        · exact .inl (.inr ⟨sto, hst, status, h⟩)
        · exact .inl (hl hst hr)

/-! Steps. -/

theorem issue_eq_some : s.issue runId lid = some t ↔
    (runId ∉ s.issued ∧ lid ∉ s.issued ∧ runId ≠ lid ∧ isPlanId runId ∧
      isPlanId lid) ∧ { s with issued := runId :: lid :: s.issued } = t := by
  unfold issue
  split
  case isTrue h =>
    simp only [reduceCtorEq, false_iff, not_and]
    rintro ⟨h1, h2, h3, h4, h5⟩
    simp_all
  case isFalse h =>
    simp only [not_or, Bool.not_eq_false] at h
    exact ⟨fun ht => ⟨h, some.inj ht⟩, fun ht => congrArg some ht.2⟩

/-- The id under which an event registers a run. -/
def registers : ServiceEvent → Option String
  | .startAgent _ _ runId _ _ => some runId
  | .fireAgentTrigger _ _ runId _ _ _ _ => some runId
  | .retryAgentRun _ newRunId _ _ _ => some newRunId
  | _ => none

/-- A step adds runs only under the id it registers, which was not issued before. -/
theorem step_keeps (h : s.step cfg e = some t) :
    Keeps (fun runId _ => runId ∉ s.issued ∧ registers e = some runId) s t := by
  have hi {runId lid s'} (h : s.issue runId lid = some s') : runId ∉ s.issued ∧
      Keeps (fun runId _ => runId ∉ s.issued ∧ registers e = some runId) s s' := by
    obtain ⟨⟨hr, -⟩, rfl⟩ := (issue_eq_some).mp h
    exact ⟨hr, keeps_of_eq rfl rfl rfl⟩
  cases e with
  | tick unixNow instant =>
    simp only [step] at h
    split at h
    · cases h
      exact keeps_of_eq rfl rfl rfl
    · cases h
  | setAgentDefinitions defs =>
    cases h
    exact keeps_of_eq rfl rfl rfl
  | setDisabledAgents disabled =>
    cases h
    exact keeps_of_eq rfl rfl rfl
  | expireLeases =>
    cases h
    exact keeps_of_eq rfl rfl rfl
  | revokeCapabilityLease lid =>
    cases h
    exact keeps_of_eq rfl rfl rfl
  | startAgent req ceiling runId lid reply =>
    obtain ⟨s', hs', rfl⟩ := map_eq_some_iff.mp h
    obtain ⟨hf, hk⟩ := hi hs'
    exact hk.trans ((startAgent_keeps).mono (by rintro _ _ ⟨rfl, -⟩; exact ⟨hf, rfl⟩))
  | fireAgentTrigger req src runId lid reply fire write =>
    obtain ⟨s', hs', rfl⟩ := map_eq_some_iff.mp h
    obtain ⟨hf, hk⟩ := hi hs'
    exact hk.trans ((fireAgentTrigger_keeps).mono (by rintro _ _ ⟨rfl, -⟩; exact ⟨hf, rfl⟩))
  | retryAgentRun runId nrid lid reply write =>
    obtain ⟨s', hs', rfl⟩ := map_eq_some_iff.mp h
    obtain ⟨hf, hk⟩ := hi hs'
    exact hk.trans ((retryAgentRun_keeps).mono (by rintro _ _ rfl; exact ⟨hf, rfl⟩))
  | execution runId ev =>
    obtain ⟨execution, -, hs⟩ := bind_eq_some_iff.mp h
    exact (stepExecution_preserves hs).keeps
  | confirmAgentAction call pl approved =>
    simp only [step] at h
    split at h
    · cases h
    · cases h
      unfold confirmAgentAction
      split
      · exact Keeps.refl
      · split
        · exact Keeps.refl
        · exact keeps_of_eq rfl rfl rfl
  | confirmation call ev =>
    obtain ⟨confirmation, -, hs⟩ := bind_eq_some_iff.mp h
    exact (stepConfirmation_preserves hs).keeps
  | cancelAgentRun call runId =>
    simp only [step] at h
    split at h
    · cases h
    · cases h
      unfold cancelAgentRun
      split
      · exact Keeps.refl
      · split
        · split <;> exact keeps_of_eq rfl rfl rfl
        · exact keeps_of_eq rfl rfl rfl
  | cancellation call ev =>
    obtain ⟨cancellation, -, hs⟩ := bind_eq_some_iff.mp h
    exact (stepCancellation_preserves hs).keeps
  | restart defs disabled =>
    cases h
    exact (restart_preserves).keeps

end Service

end FocalDesk
