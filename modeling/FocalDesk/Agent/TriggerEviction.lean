import FocalDesk.Agent.TriggerLimits

/-! A trigger that fires again within its cooldown once the run of its firing is evicted. -/
namespace FocalDesk
open Library List Option Std.ExtTreeMap

variable {cfg : ServiceConfig} {s t : Service} {runId lid : String}
  {req : AgentRequest} {defn : AgentDefinition} {pol : CapabilityPolicy}
  {trig : Option AgentTriggerSource} {ceiling : Option CapabilityPolicy} {reply : RegisterReply}
  {rs : BTreeMap String AgentRunStatus} {evicted : List String} {stat : AgentRunStatus}

namespace Service

/-! Registration without a store. -/

/-- What a registration in memory leaves as it is. -/
structure SameSetting (s t : Service) : Prop where
  store : t.agentRunStore = none
  definitions : t.agentDefinitions = s.agentDefinitions
  disabled : t.disabledAgents = s.disabledAgents
  clock : t.unixNow = s.unixNow
  issued : t.issued = s.issued

theorem forgetRuns_memory (del : String → Bool) (evicted : List String) (s : Service)
    (hst : s.agentRunStore = none) : ∃ t, forgetRuns del evicted s = (t, .ok ()) ∧
      SameSetting s t ∧ t.capabilityLeases = s.capabilityLeases ∧ t.agentRuns = s.agentRuns := by
  induction evicted generalizing s with
  | nil => exact ⟨s, rfl, ⟨hst, rfl, rfl, rfl, rfl⟩, rfl, rfl⟩
  | cons runId evicted ih =>
    obtain ⟨t, ht, hs, hk⟩ := ih { s with
      runCapabilityLeases := s.runCapabilityLeases.erase runId
      agentRequests := s.agentRequests.erase runId } hst
    refine ⟨t, ?_, ⟨hs.store, hs.definitions, hs.disabled, hs.clock, hs.issued⟩, hk⟩
    unfold forgetRuns
    dsimp only
    split
    case h_1 => exact ht
    case h_2 store hso =>
      rw [hst] at hso
      cases hso

theorem grantLease_memory (s : Service) (ls : CapabilityLease) (reply : RegisterReply)
    (hs : s.agentRunStore = none) (hl : s.capabilityLeases.size < maxCapabilityLeases) :
    ∃ t, s.grantLease ls reply = (t, .ok ()) ∧ SameSetting s t ∧
      t.capabilityLeases.size ≤ s.capabilityLeases.size + 1 ∧ t.agentRuns = s.agentRuns := by
  have hsw : (s.capabilityLeases.filter fun _ ls =>
      !ls.revoked && decide (s.unixNow < ls.expiresAtUnix)).size ≤
        s.capabilityLeases.size := size_filter_le_size
  have hf : ¬ maxCapabilityLeases ≤ (s.capabilityLeases.filter fun _ ls =>
      !ls.revoked && decide (s.unixNow < ls.expiresAtUnix)).size := by omega
  unfold grantLease
  simp only [if_neg hf, hs, isSome_none, Bool.false_eq_true, false_and, if_false]
  exact ⟨_, rfl, ⟨rfl, rfl, rfl, rfl, rfl⟩,
    size_insert_le.trans (Nat.add_le_add_right hsw 1), rfl⟩

theorem insertAgentRun_memory (s : Service) (stat : AgentRunStatus) (req : AgentRequest)
    (reply : RegisterReply) (hst : s.agentRunStore = none)
    (hr : evictRuns s.agentRuns.size s.agentRuns [] = (rs, evicted, .ok ())) :
    ∃ t, s.insertAgentRun stat req reply = (t, .ok ()) ∧ SameSetting s t ∧
      t.capabilityLeases = s.capabilityLeases ∧ t.agentRuns = rs.insert stat.runId stat := by
  obtain ⟨u, hu, hs, hl, hru⟩ :=
    forgetRuns_memory reply.delete evicted { s with agentRuns := rs } hst
  unfold insertAgentRun
  simp only [hr, hu, save, hs.store]
  refine ⟨_, rfl, ⟨rfl, hs.definitions, hs.disabled, hs.clock, hs.issued⟩, hl, ?_⟩
  rw [hru]

theorem registerAgentRun_memory (s : Service) (runId lid : String)
    (trig : Option AgentTriggerSource) (hst : s.agentRunStore = none)
    (hc : s.checkRegistration cfg req ceiling reply.usage = .ok (defn, pol))
    (hl : s.capabilityLeases.size < maxCapabilityLeases)
    (hro : evictRuns s.agentRuns.size s.agentRuns [] = (rs, evicted, .ok ())) :
    ∃ t, s.registerAgentRun cfg req runId lid trig ceiling reply = (t, .ok ()) ∧
      SameSetting s t ∧ t.capabilityLeases.size ≤ s.capabilityLeases.size + 1 ∧
        t.agentRuns = rs.insert runId (s.newStatus cfg defn req runId trig) := by
  obtain ⟨u, hu, hs, hsi, hr⟩ := s.grantLease_memory
    (s.newLease cfg defn pol runId lid) reply hst hl
  rw [← hr] at hro
  obtain ⟨v, hv, hs', hl', hr'⟩ := u.insertAgentRun_memory
    (u.newStatus cfg defn req runId trig) req reply hs.store hro
  unfold registerAgentRun
  simp only [hc, hu, hv]
  refine ⟨_, rfl, ⟨hs'.store, hs'.definitions.trans hs.definitions,
    hs'.disabled.trans hs.disabled, hs'.clock.trans hs.clock,
    hs'.issued.trans hs.issued⟩, ?_, ?_⟩
  · rw [← hl'] at hsi
    exact hsi
  · rw [hr']
    simp only [newStatus, hs.clock]

theorem evictRuns_of_room (hs : s.agentRuns.size < maxRetainedAgentRuns) :
    evictRuns s.agentRuns.size s.agentRuns [] = (s.agentRuns, [], .ok ()) := by
  cases hf : s.agentRuns.size with
  | zero => rfl
  | succ fuel =>
    unfold evictRuns
    rw [if_pos hs]

/-- A full table gives up the oldest of its terminal runs. -/
theorem evictRuns_of_full (hs : rs.size = maxRetainedAgentRuns) (hr : rs[runId]? = some stat)
    (ht : stat.state.isTerminal) :
    ∃ (oldest : String) (run : AgentRunStatus), rs[oldest]? = some run ∧
      run.state.isTerminal ∧ run.createdAtUnix ≤ stat.createdAtUnix ∧
        evictRuns rs.size rs [] = (rs.erase oldest, [oldest], .ok ()) := by
  have hme : (runId, stat) ∈ rs.toList.filter fun run => run.2.state.isTerminal :=
    mem_filter.mpr ⟨mem_toList_iff_getElem?_eq_some.mpr hr, ht⟩
  obtain ⟨⟨oldest, run⟩, hm⟩ :=
    exists_minByKey (fun run : String × AgentRunStatus => run.2.createdAtUnix) hme
  obtain ⟨hin, hd⟩ := mem_filter.mp (minByKey_mem hm)
  have hg : rs[oldest]? = some run := mem_toList_iff_getElem?_eq_some.mp hin
  have he : (rs.erase oldest).size < maxRetainedAgentRuns := by
    have hc : rs.contains oldest := contains_iff_mem.mpr (mem_of_getElem? hg)
    rw [size_erase, if_pos hc, hs]
    decide
  refine ⟨oldest, run, hg, hd, minByKey_le hm _ hme, ?_⟩
  have hf : ¬ rs.size < maxRetainedAgentRuns := by omega
  obtain ⟨fuel, hfu⟩ : ∃ fuel, rs.size = fuel + 2 := ⟨126, hs⟩
  rw [hfu, evictRuns, if_neg hf, hm]
  simp only [evictRuns, if_pos he, nil_append]

theorem checkRegistration_congr {usage : Except String (ℕ × ℕ)}
    (hs : t.agentRunStore = s.agentRunStore) (hd : t.agentDefinitions = s.agentDefinitions)
    (hdi : t.disabledAgents = s.disabledAgents) :
    t.checkRegistration cfg req ceiling usage = s.checkRegistration cfg req ceiling usage := by
  simp only [checkRegistration, validateAgentRequest, hs, hd, hdi]

end Service

/-! The run: as many starts as fill the table. -/

def crowdingEvents : List TriggerEvent :=
  openingEvents ++ (List.range' 2 126).map startNumbered ++ [startNumbered 128, fireDaily 129]

namespace TriggerService

/-- The service after `n` registrations. -/
structure Crowded (n : ℕ) (service : TriggerService) : Prop where
  store : service.agents.agentRunStore = none
  definitions : service.agents.agentDefinitions = dailyDefinitions
  disabled : service.agents.disabledAgents = []
  clock : service.agents.unixNow = 1001
  suspended : service.triggersSuspended = false
  fired : service.firingTimes "daily" dailyTrigger = [1000]
  fresh : ∀ tag m, n ≤ m → m < 256 → numberedId tag m ∉ service.agents.issued
  leases : service.agents.capabilityLeases.size ≤ n

/-- The table still holds the run of the firing. -/
structure Filling (n : ℕ) (service : TriggerService) : Prop where
  known : service.Known
  size : service.agents.agentRuns.size = n
  first : ∃ run, service.agents.agentRuns[runIdOf 0]? = some run ∧
    run.state.isTerminal = true ∧ run.createdAtUnix = 1000
  second : ∃ run, service.agents.agentRuns[runIdOf 1]? = some run ∧ run.state.isTerminal = true
  others : ∀ (runId : String) (run : AgentRunStatus), service.agents.agentRuns[runId]? = some run →
    runId ≠ runIdOf 0 → run.trigger = none ∧ run.createdAtUnix = 1001

variable {s t : TriggerService} {n : ℕ}

/-- The service once the next two identifiers are handed out. -/
def issuing (service : TriggerService) (n : ℕ) : Service :=
  { service.agents with issued := runIdOf n :: leaseIdOf n :: service.agents.issued }

theorem Crowded.issue (h : Crowded n s) (hn : n < 256) :
    s.agents.issue (runIdOf n) (leaseIdOf n) = some (s.issuing n) := by
  refine Service.issue_eq_some.mpr ⟨⟨h.fresh _ n le_rfl hn, h.fresh _ n le_rfl hn, ?_,
    numberedId_isPlanId _ n, numberedId_isPlanId _ n⟩, rfl⟩
  intro heq
  obtain ⟨ht, -⟩ := numberedId_inj hn hn heq
  exact absurd ht (by decide)

/-- A registration under the next identifiers. -/
theorem Crowded.registered {agents : Service} (h : Crowded n s) (hn : n < 256)
    (hs : Service.SameSetting (s.issuing n) agents)
    (hl : agents.capabilityLeases.size ≤ s.agents.capabilityLeases.size + 1) :
    Crowded (n + 1) { s with agents } where
  store := hs.store
  definitions := hs.definitions.trans h.definitions
  disabled := hs.disabled.trans h.disabled
  clock := hs.clock.trans h.clock
  suspended := h.suspended
  fired := h.fired
  fresh tag m hle hm := by
    rw [hs.issued]
    have hne (tag' : UInt8) : numberedId tag m ≠ numberedId tag' n := fun heq => by
      have := (numberedId_inj hm hn heq).2
      omega
    simp only [issuing, mem_cons, not_or]
    exact ⟨hne _, hne _, h.fresh tag m (by omega) hm⟩
  leases := hl.trans (Nat.add_le_add_right h.leases 1)

/-- Every start of the run is accepted as long as there is room. -/
theorem Crowded.start (h : Crowded n s) (hn : n < 256)
    (hr : Service.evictRuns s.agents.agentRuns.size s.agents.agentRuns [] = (rs, evicted, .ok ())) :
    ∃ t run, step Service.sampleConfig s (startNumbered n) = some t ∧ Crowded (n + 1) t ∧
      t.agents.agentRuns = rs.insert (runIdOf n) run ∧ run.trigger = none ∧
        run.createdAtUnix = 1001 := by
  obtain ⟨⟨defn, pol⟩, hc⟩ : ∃ checked,
      (Service.new dailyDefinitions false 1000 0).checkRegistration Service.sampleConfig
        Service.sampleRequest none Service.accepted.usage = .ok checked :=
    exists_of_toBool (by decide +kernel)
  rw [← Service.checkRegistration_congr (t := s.issuing n)
    (s := .new dailyDefinitions false 1000 0) h.store h.definitions h.disabled] at hc
  obtain ⟨u, hu, hs, hl, hru⟩ := (s.issuing n).registerAgentRun_memory
    (runIdOf n) (leaseIdOf n) none h.store hc (Nat.lt_of_le_of_lt h.leases hn) hr
  refine ⟨{ s with agents := u.spawn (runIdOf n) Service.sampleRequest [] }, _, ?_,
    h.registered hn ⟨hs.store, hs.definitions, hs.disabled, hs.clock,
      hs.issued⟩ hl, hru, rfl, h.clock⟩
  simp only [step, startNumbered, isFiring, Service.step, h.issue hn, map_some,
    Service.startAgent, hu]
  rfl

/-- The starts fill the table while the run of the firing stays in it. -/
theorem Filling.start (h : Crowded n s) (hf : Filling n s) (hn : n < 128) (hl : 2 ≤ n) :
    ∃ t, step Service.sampleConfig s (startNumbered n) = some t ∧ Crowded (n + 1) t ∧
      Filling (n + 1) t := by
  have hsi : s.agents.agentRuns.size < maxRetainedAgentRuns := by
    rw [hf.size]
    exact hn
  obtain ⟨t, run, hs, hc, hr, ht, hcr⟩ := h.start (by omega) (Service.evictRuns_of_room hsi)
  have ho {m : ℕ} (hm : m < 2) : t.agents.agentRuns[runIdOf m]? =
      s.agents.agentRuns[runIdOf m]? := by
    rw [hr, Std.ExtTreeMap.getElem?_insert, if_neg]
    intro heq
    have := (numberedId_inj (by omega) (by omega) (Std.LawfulEqCmp.eq_of_compare heq)).2
    omega
  refine ⟨t, hs, hc, ⟨step_known hs hf.known, ?_, ?_, ?_, ?_⟩⟩
  · have hnw : s.agents.agentRuns.contains (runIdOf n) = false := by
      refine Bool.eq_false_iff.mpr fun hco => ?_
      have hme : runIdOf n ∈ s.agents.agentRuns := Std.ExtTreeMap.contains_iff_mem.mp hco
      exact h.fresh _ n le_rfl (by omega) (hf.known.runs _ hme)
    rw [hr, Std.ExtTreeMap.size_insert, hnw, hf.size]
    rfl
  · rw [ho (by omega)]
    exact hf.first
  · rw [ho (by omega)]
    exact hf.second
  · intro runId found hfo hne
    rw [hr, Std.ExtTreeMap.getElem?_insert] at hfo
    split at hfo
    · cases hfo
      exact ⟨ht, hcr⟩
    · exact hf.others runId found hfo hne

theorem Filling.starts (k : ℕ) (h : Crowded n s) (hf : Filling n s) (hn : n + k ≤ 128) (hlo : 2 ≤ n)
    : ∃ t, run (step Service.sampleConfig) s ((List.range' n k).map startNumbered)
      = some t ∧ Crowded (n + k) t ∧ Filling (n + k) t := by
  induction k generalizing s n with
  | zero => exact ⟨s, rfl, h, hf⟩
  | succ k ih =>
    obtain ⟨t, hs, hc, hne⟩ := Filling.start h hf (by omega) hlo
    obtain ⟨u, hr, hl⟩ := ih hc hne (by omega) (by omega)
    rw [show n + (k + 1) = n + 1 + k by omega]
    refine ⟨u, ?_, hl⟩
    rw [List.range'_succ, map_cons, run_cons, hs]
    exact hr

/-- The next start evicts the run of the firing, and no run in the table shows one. -/
theorem Filling.evict (h : Crowded 128 s) (hfi : Filling 128 s) :
    ∃ t, step Service.sampleConfig s (startNumbered 128) = some t ∧ Crowded 129 t ∧
      t.agents.agentRuns.size = 128 ∧
        (∃ run, t.agents.agentRuns[runIdOf 1]? = some run ∧ run.state.isTerminal) ∧
          ∀ (runId : String) (run : AgentRunStatus), t.agents.agentRuns[runId]? = some run →
            run.trigger = none := by
  obtain ⟨fst, hfr, ht, hcr⟩ := hfi.first
  obtain ⟨oldest, run, hru, -, hea, hro⟩ := Service.evictRuns_of_full hfi.size hfr ht
  obtain rfl : oldest = runIdOf 0 := by
    by_contra hne
    have := (hfi.others oldest run hru hne).2
    omega
  obtain ⟨t, new, hs, hc, hr, htr, -⟩ := h.start (by omega) hro
  have hn : runIdOf 128 ∉ s.agents.agentRuns := fun hme =>
    h.fresh _ 128 le_rfl (by omega) (hfi.known.runs _ hme)
  have hne {m : ℕ} (hm : m < 128) : runIdOf 128 ≠ runIdOf m := fun heq => by
    have := (numberedId_inj (by omega) (by omega) heq).2
    omega
  refine ⟨t, hs, hc, ?_, ?_, ?_⟩
  · have he : (s.agents.agentRuns.erase (runIdOf 0)).contains (runIdOf 128) = false := by
      refine Bool.eq_false_iff.mpr fun hco => ?_
      exact hn (Std.ExtTreeMap.mem_of_mem_erase (Std.ExtTreeMap.contains_iff_mem.mp hco))
    have hco : s.agents.agentRuns.contains (runIdOf 0) :=
      Std.ExtTreeMap.contains_iff_mem.mpr (mem_of_getElem? hfr)
    rw [hr, Std.ExtTreeMap.size_insert, he, Std.ExtTreeMap.size_erase, hco, hfi.size]
    rfl
  · obtain ⟨snd, hsn, hd⟩ := hfi.second
    refine ⟨snd, ?_, hd⟩
    have hdi : runIdOf 0 ≠ runIdOf 1 := fun heq =>
      absurd (numberedId_inj (by omega) (by omega) heq).2 (by omega)
    rw [hr, Std.ExtTreeMap.getElem?_insert,
      if_neg fun heq => hne (by omega) (Std.LawfulEqCmp.eq_of_compare heq),
      Std.ExtTreeMap.getElem?_erase,
      if_neg fun heq => hdi (Std.LawfulEqCmp.eq_of_compare heq), hsn]
  · intro runId found hf
    rw [hr, Std.ExtTreeMap.getElem?_insert] at hf
    split at hf
    · cases hf
      exact htr
    · rw [Std.ExtTreeMap.getElem?_erase] at hf
      split at hf
      · cases hf
      case isFalse hk =>
        refine (hfi.others runId found hf ?_).1
        rintro rfl
        exact hk Std.ReflCmp.compare_self

/-- With no firing in the table the trigger is let through. -/
theorem Crowded.check (h : Crowded n s)
    (hru : ∀ (runId : String) (run : AgentRunStatus),
      s.agents.agentRuns[runId]? = some run → run.trigger = none) :
    s.checkTrigger "daily" "daily" (.ok ()) = .ok dailyTrigger := by
  have hd : dailyDefinitions["daily"]? = some dailyAgent :=
    getElem?_insert_self
  have hr : s.recentFirings "daily" dailyTrigger = [] := by
    rw [recentFirings_eq, map_eq_nil_iff, filter_eq_nil_iff]
    intro fire hf
    obtain ⟨run, hrn, hs⟩ := (mem_remembered h.store).mp hf
    rw [firingOfRun, hru _ run hrn] at hs
    cases hs
  have hfi : dailyAgent.triggers.find? (fun trig => trig.id == "daily") =
      some dailyTrigger := rfl
  have he : dailyTrigger.enabled := rfl
  have hl : dailyTrigger.maxRunsPerHour = 1 := rfl
  simp [checkTrigger, h.suspended, h.definitions, hd, h.store, hfi, he, hr,
    hl, okOr, bailIf, bind, Except.bind, pure, Except.pure]

theorem Crowded.fire (h : Crowded n s) (hn : n < 256)
    (hr : ∀ (runId : String) (run : AgentRunStatus),
      s.agents.agentRuns[runId]? = some run → run.trigger = none)
    (hro : Service.evictRuns s.agents.agentRuns.size s.agents.agentRuns [] =
      (rs, evicted, .ok ())) :
    ∃ t, step Service.sampleConfig s (fireDaily n) = some t ∧
      t.firingTimes "daily" dailyTrigger = [1000, 1001] := by
  obtain ⟨⟨defn, pol⟩, hc⟩ : ∃ checked,
      (Service.new dailyDefinitions false 1000 0).checkRegistration Service.sampleConfig
        (triggerRequest "daily" dailyTrigger) none Service.accepted.usage = .ok checked :=
    exists_of_toBool (by decide +kernel)
  rw [← Service.checkRegistration_congr (t := s.issuing n)
    (s := .new dailyDefinitions false 1000 0) h.store h.definitions h.disabled] at hc
  obtain ⟨u, hu, hs, -, -⟩ := (s.issuing n).registerAgentRun_memory (runIdOf n) (leaseIdOf n)
    (some ⟨dailyTrigger.id, dailyTrigger.kind⟩) h.store hc
    (Nat.lt_of_le_of_lt h.leases hn) hro
  have hre : fireResult Service.sampleConfig (s.issuing n) "daily" dailyTrigger (runIdOf n)
      (leaseIdOf n) ⟨.ok (), Service.accepted, .ok (), Service.written⟩ = .ok () := by
    rw [fireResult, hu]
    split <;> rfl
  simp only [step, fireDaily, TriggerService.fire, h.check hr, h.issue hn, map_some, hre]
  refine ⟨_, rfl, ?_⟩
  have hf := h.fired
  simp only [firingTimes, filter_append, map_append] at hf ⊢
  rw [hf]
  simp [TriggerFiring.isOf, issuing, h.clock]

theorem opening_filling : ∃ s, run (step Service.sampleConfig) (.new dailyDefinitions false 1000 0)
    openingEvents = some s ∧ Crowded 2 s ∧ Filling 2 s := by
  obtain ⟨-, s, hr, hs⟩ := opening_run
  obtain ⟨hst, hde, hdi, hcl, hsu, hf, hi, hl, hsi, hfi, hsn, ho⟩ := of_decide_eq_true hs
  refine ⟨s, hr, ⟨by simpa using hst, hde, hdi, hcl, hsu, hf, ?_,
    hl⟩, ⟨?_, hsi, ?_, (any_eq_true _ _).mp hsn, ?_⟩⟩
  · intro tag m hle hm hme
    have hne (tag' : UInt8) (k : ℕ) (hk : k < 2) : numberedId tag m ≠ numberedId tag' k := by
      intro heq
      have := (numberedId_inj hm (by omega) heq).2
      omega
    rw [hi] at hme
    simp only [mem_cons, not_mem_nil, or_false] at hme
    rcases hme with h | h | h | h
    · exact hne _ 1 (by omega) h
    · exact hne _ 1 (by omega) h
    · exact hne _ 0 (by omega) h
    · exact hne _ 0 (by omega) h
  · exact run_invariant step_known hr
      (new_recalls dailyDefinitions false 1000 0 Service.sampleConfig).issues
  · obtain ⟨run, hr, hd⟩ := (any_eq_true _ _).mp hfi
    rw [Bool.and_eq_true, beq_iff_eq] at hd
    exact ⟨run, hr, hd⟩
  · intro runId run hr hne
    obtain ⟨ht, hc⟩ := ho (runId, run) (mem_toList_iff_getElem?_eq_some.mpr hr) hne
    exact ⟨by simpa using ht, hc⟩

theorem crowding_assumed : Meets (step Service.sampleConfig) Assumed
    (.new dailyDefinitions false 1000 0) crowdingEvents := by
  obtain ⟨s, hr, -, -⟩ := opening_filling
  have ho : Meets (step Service.sampleConfig) Assumed (.new dailyDefinitions false 1000 0)
      openingEvents := opening_run.1.mono fun _ _ hok => hok.1
  have hs (ns : List ℕ) : ∀ e ∈ ns.map startNumbered, ∀ s : TriggerService, s.Assumed e := by
    intro e he s
    obtain ⟨n, -, rfl⟩ := mem_map.mp he
    trivial
  rw [crowdingEvents, append_assoc]
  refine ho.append hr (meets_of_forall fun e he s => ?_)
  rcases mem_append.mp he with he | he
  · exact hs _ e he s
  · rcases mem_pair.mp he with rfl | rfl
    · trivial
    · trivial

end TriggerService

end FocalDesk
