import FocalDesk.Agent.Settlement
import FocalDesk.Agent.Triggers

/-! The cooldown and the hourly limit of a trigger, over whole runs and for either history. -/
namespace FocalDesk
open Library List String Service

variable {config : ServiceConfig} {definitions defns : BTreeMap String AgentDefinition} {stored : Bool}
  {s t : TriggerService} {u : Service} {e : TriggerEvent} {agentId triggerId runId lid : String}
  {definition : AgentDefinition} {trigger trig : AgentTrigger} {firing : TriggerFiring} {now later : ℕ}
  {reply : TriggerReply} {stat : AgentRunStatus}

/-- No trigger of its agent looks back as far as this firing. -/
def TriggerFiring.Spent (definitions : BTreeMap String AgentDefinition) (now : ℕ)
    (firing : TriggerFiring) : Prop :=
  ∀ definition ∈ definitions[firing.agentId]?, ∀ trigger ∈ definition.triggers,
    firing.isOf firing.agentId trigger = true → firing.firedAtUnix + trigger.lookback ≤ now

instance : Decidable (firing.Spent definitions now) :=
  inferInstanceAs (Decidable (∀ definition ∈ definitions[firing.agentId]?,
    ∀ trigger ∈ definition.triggers, firing.isOf firing.agentId trigger = true →
      firing.firedAtUnix + trigger.lookback ≤ now))

/-- The firing that a run in memory stands for. -/
def firingOfRun (entry : String × AgentRunStatus) : Option TriggerFiring :=
  entry.2.trigger.map fun source =>
    { runId := entry.1, agentId := entry.2.agentId, triggerId := source.triggerId,
      kind := source.kind, firedAtUnix := entry.2.createdAtUnix }

namespace TriggerService

/-- The firings that the history of the service still shows. -/
def remembered (service : TriggerService) : List TriggerFiring :=
  match service.agents.agentRunStore with
  | some _ => service.firingTable
  | none => service.agents.agentRuns.toList.filterMap firingOfRun

/-- The clock does not go back, the definitions stay, and only a stored service restarts. -/
def Assumed (service : TriggerService) : TriggerEvent → Prop
  | .agents (.tick unixNow _) => service.agents.unixNow ≤ unixNow
  | .agents (.setAgentDefinitions definitions) => definitions = service.agents.agentDefinitions
  | .agents (.restart definitions _) => service.agents.agentRunStore.isSome = true ∧
      definitions = service.agents.agentDefinitions
  | _ => True

/-- Without a store, no run is evicted that a trigger still looks back to. -/
def EvictsSpent (service : TriggerService) : Prop :=
  service.agents.agentRunStore.isSome = true ∨
    ∀ firing ∈ service.remembered, firing.runId ∈ service.agents.evictedRuns →
      firing.Spent service.agents.agentDefinitions service.agents.unixNow

def Retains (service : TriggerService) : TriggerEvent → Prop
  | .agents (.startAgent _ _ _ _ _) | .agents (.retryAgentRun _ _ _ _ _) | .fire _ _ _ _ _ =>
      service.EvictsSpent
  | _ => True

instance (service : TriggerService) (e : TriggerEvent) : Decidable (service.Assumed e) := by
  unfold Assumed
  split <;> infer_instance

instance (service : TriggerService) (e : TriggerEvent) : Decidable (service.Retains e) := by
  unfold Retains EvictsSpent
  split <;> infer_instance

/-! What the history shows. -/

theorem recentFirings_eq : s.recentFirings agentId trig =
    (s.remembered.filter fun firing => firing.isOf agentId trig &&
      decide (s.agents.unixNow - firing.firedAtUnix ≤ trig.lookback)).map
        TriggerFiring.firedAtUnix := by
  cases hs : s.agents.agentRunStore with
  | some sto =>
    simp only [recentFirings, remembered, hs, triggerFirings]
    congr 1
    apply filter_congr
    intro firing _
    congr 1
    rw [decide_eq_decide]
    omega
  | none =>
    simp only [recentFirings, remembered, hs]
    induction s.agents.agentRuns.toList with
    | nil => rfl
    | cons e ents ih =>
      obtain ⟨runId, run⟩ := e
      cases ht : run.trigger with
      | none =>
        have hf : firingOfRun (runId, run) = none := by simp [firingOfRun, ht]
        have hof : run.isOf agentId trig = false := by simp [AgentRunStatus.isOf, ht]
        simpa [filterMap_cons, hf, hof] using ih
      | some src =>
        have hf : firingOfRun (runId, run) =
            some ⟨runId, run.agentId, src.triggerId, src.kind, run.createdAtUnix⟩ := by
          simp [firingOfRun, ht]
        have hof : run.isOf agentId trig = TriggerFiring.isOf agentId trig
            ⟨runId, run.agentId, src.triggerId, src.kind, run.createdAtUnix⟩ := by
          simp [AgentRunStatus.isOf, TriggerFiring.isOf, ht, Bool.and_assoc]
        simp only [map_cons, filter_cons, filterMap_cons, hf, hof]
        cases hm : TriggerFiring.isOf agentId trig
            ⟨runId, run.agentId, src.triggerId, src.kind, run.createdAtUnix⟩ with
        | false => simpa using ih
        | true =>
          by_cases hr : s.agents.unixNow ≤ trig.lookback + run.createdAtUnix
          · simpa [hr, filter_cons, hm] using ih
          · simpa [hr, filter_cons, hm] using ih

theorem mem_remembered (h : s.agents.agentRunStore = none) : firing ∈ s.remembered ↔
    ∃ run, s.agents.agentRuns[firing.runId]? = some run ∧
      firingOfRun (firing.runId, run) = some firing := by
  unfold remembered
  rw [h]
  simp only [mem_filterMap]
  constructor
  · rintro ⟨⟨runId, run⟩, hm, hf⟩
    have hid : firing.runId = runId := by
      obtain ⟨src, -, rfl⟩ := Option.map_eq_some_iff.mp hf
      rfl
    exact ⟨run, by rw [hid]; exact Std.ExtTreeMap.mem_toList_iff_getElem?_eq_some.mp hm,
      by rw [hid]; exact hf⟩
  · rintro ⟨run, hr, hf⟩
    exact ⟨_, Std.ExtTreeMap.mem_toList_iff_getElem?_eq_some.mpr hr, hf⟩

theorem firingOfRun_of_origin {status' : AgentRunStatus} (h : SameOrigin stat status') :
    firingOfRun (runId, status') = firingOfRun (runId, stat) := by
  simp only [firingOfRun, h.agentId, h.trigger, h.createdAtUnix]

/-- Runs that are not gone are remembered. -/
theorem remembered_of_others {gone : String → Prop}
    (hst : u.agentRunStore.isSome = s.agents.agentRunStore.isSome)
    (h : KeepsOthers gone s.agents u) (hm : firing ∈ s.remembered)
    (hg : s.agents.agentRunStore.isSome ∨ ¬ gone firing.runId) :
    firing ∈ ({ s with agents := u }).remembered := by
  cases hs : s.agents.agentRunStore with
  | some sto =>
    obtain ⟨sto', hs'⟩ := Option.isSome_iff_exists.mp (hst.trans (by rw [hs]; rfl))
    simp only [remembered, hs'] at hm ⊢
    rwa [hs] at hm
  | none =>
    have hn : u.agentRunStore = none := by
      rw [hs] at hst
      simpa using hst
    obtain ⟨run, hr, hf⟩ := (mem_remembered hs).mp hm
    rw [hs] at hg
    obtain ⟨run', hr', ho⟩ := h _ run hr (hg.resolve_left nofun)
    exact (mem_remembered (s := { s with agents := u }) hn).mpr
      ⟨run', hr', by rw [firingOfRun_of_origin ho, hf]⟩

theorem Spent.mono (h : firing.Spent defns now) (hle : now ≤ later) :
    firing.Spent defns later :=
  fun definition hd trig ht hof =>
    (h definition hd trig ht hof).trans hle

/-- What holds of every service whose history has shown each firing for as long as it counts. -/
structure Recalls (definitions : BTreeMap String AgentDefinition) (stored : Bool)
    (service : TriggerService) : Prop where
  issues : service.agents.Issues
  setting : service.agents.agentDefinitions = definitions
  stored : service.agents.agentRunStore.isSome = stored
  nodup : (service.fired.map TriggerFiring.runId).Nodup
  issued : ∀ firing ∈ service.fired, firing.runId ∈ service.agents.issued
  past : ∀ firing ∈ service.fired, firing.firedAtUnix ≤ service.agents.unixNow
  recalled : ∀ firing ∈ service.fired,
    firing ∈ service.remembered ∨ firing.Spent definitions service.agents.unixNow
  limited : ∀ (agentId : String) (definition : AgentDefinition) (trigger : AgentTrigger),
    definitions[agentId]? = some definition → trigger ∈ definition.triggers →
      RateLimited trigger.cooldownSeconds trigger.maxRunsPerHour 3600
        (service.firingTimes agentId trigger)

/-- The history shows every firing that a limit of its trigger still needs. -/
theorem Recalls.subperm (h : Recalls defns stored s)
    (hd : defns[agentId]? = some definition) (ht : trig ∈ definition.triggers) :
    ((s.firingTimes agentId trig).filter fun time =>
      decide (s.agents.unixNow - time < max trig.cooldownSeconds 3600)).Subperm
        (s.recentFirings agentId trig) := by
  have hs : ((s.fired.filter (TriggerFiring.isOf agentId trig)).filter fun firing =>
      decide (s.agents.unixNow - firing.firedAtUnix < max trig.cooldownSeconds 3600)).Subperm
        (s.remembered.filter fun firing => firing.isOf agentId trig &&
          decide (s.agents.unixNow - firing.firedAtUnix ≤ trig.lookback)) := by
    apply subperm_of_subset ((h.nodup.of_map.filter _).filter _)
    intro firing hm
    simp only [mem_filter, decide_eq_true_eq] at hm
    obtain ⟨⟨hf, hof⟩, hre⟩ := hm
    simp only [mem_filter, Bool.and_eq_true, decide_eq_true_eq]
    rcases h.recalled firing hf with hr | hsp
    · exact ⟨hr, hof, Nat.le_of_lt hre⟩
    · have ha : firing.agentId = agentId := by
        simp only [TriggerFiring.isOf, Bool.and_eq_true, beq_iff_eq] at hof
        exact hof.1.1
      have ho := hsp definition (by rw [ha]; exact hd) trig ht (by rw [ha]; exact hof)
      have hpa := h.past firing hf
      simp only [AgentTrigger.lookback] at ho
      omega
  rw [firingTimes, filter_map, recentFirings_eq]
  obtain ⟨firings, hp, hsu⟩ := hs
  exact ⟨_, hp.map _, hsu.map _⟩

/-- The agents take a step that forgets only firings that are spent. -/
theorem Recalls.advance (h : Recalls defns stored s) (hi : u.Issues)
    (hd : u.agentDefinitions = s.agents.agentDefinitions)
    (hs : u.agentRunStore.isSome = s.agents.agentRunStore.isSome)
    (his : ∀ r ∈ s.agents.issued, r ∈ u.issued) (hc : s.agents.unixNow ≤ u.unixNow)
    (hre : ∀ firing ∈ s.fired, firing ∈ s.remembered →
      firing ∈ ({ s with agents := u }).remembered ∨ firing.Spent defns u.unixNow) :
    Recalls defns stored { s with agents := u } where
  issues := hi
  setting := hd.trans h.setting
  stored := hs.trans h.stored
  nodup := h.nodup
  issued firing hmem := his _ (h.issued firing hmem)
  past firing hmem := (h.past firing hmem).trans hc
  recalled firing hmem := by
    rcases h.recalled firing hmem with hr | hsp
    · exact hre firing hmem hr
    · exact .inr (Spent.mono hsp hc)
  limited := h.limited

/-! Steps. -/

theorem remembered_of_stored (hs : s.agents.agentRunStore.isSome) (hu : u.agentRunStore.isSome) :
    ({ s with agents := u }).remembered = s.remembered := by
  obtain ⟨sto, hst⟩ := Option.isSome_iff_exists.mp hs
  obtain ⟨sto', hst'⟩ := Option.isSome_iff_exists.mp hu
  simp only [remembered, hst, hst']

/-- A registration forgets no firing but those of the runs it evicts. -/
theorem Recalls.admit (h : Recalls defns stored s) (hi : u.Issues)
    (his : ∀ r ∈ s.agents.issued, r ∈ u.issued) (hf : runId ∉ s.agents.issued)
    (ha : Admits runId s.agents u) (hev : s.EvictsSpent) :
    Recalls defns stored { s with agents := u } := by
  refine h.advance hi ha.steady.definitions ha.steady.stored his ha.steady.clock.ge ?_
  intro firing hfi hm
  rcases hev with hs | hsp
  · left
    exact remembered_of_others ha.steady.stored ha.runs hm (.inl hs)
  · by_cases he : firing.runId ∈ s.agents.evictedRuns
    · right
      have := hsp firing hm he
      rw [h.setting] at this
      exact Spent.mono this ha.steady.clock.ge
    · left
      refine remembered_of_others ha.steady.stored ha.runs hm (.inr ?_)
      rintro (hin | rfl)
      · exact he hin
      · exact hf (h.issued firing hfi)

/-- A step of the agents under its assumptions keeps every firing that counts. -/
theorem Recalls.agents {ev : ServiceEvent} (h : Recalls defns stored s)
    (ha : s.Assumed (.agents ev)) (hre : s.Retains (.agents ev)) (hfi : isFiring ev = false)
    (hst : s.agents.step config ev = some u) :
    Recalls defns stored { s with agents := u } := by
  have hi : u.Issues := Service.step_issues h.issues hst
  have his (r : String) (hr : r ∈ s.agents.issued) : r ∈ u.issued :=
    (Service.view_step h.issues hst r).issued_mono hr
  have hk (hru : Service.KeepsRuns s.agents u)
      (hsr : u.agentRunStore.isSome = s.agents.agentRunStore.isSome) :
      ∀ firing ∈ s.fired, firing ∈ s.remembered →
        firing ∈ ({ s with agents := u }).remembered ∨ firing.Spent defns u.unixNow := by
    intro firing _ hm
    have hot : Service.KeepsOthers (fun _ => False) s.agents u := hru.others
    exact .inl (remembered_of_others hsr hot hm (.inr not_false))
  by_cases ho : Service.isOrdinary ev
  · have hc : Service.Carries s.agents u := Service.step_carries hst ho
    exact h.advance hi hc.steady.definitions hc.steady.stored his
      hc.steady.clock.ge (hk hc.runs hc.steady.stored)
  cases ev with
  | tick unixNow instant =>
    simp only [Service.step] at hst
    split at hst
    · cases hst
      exact h.advance hi rfl rfl his ha (hk (Service.keepsRuns_of_eq rfl) rfl)
    · cases hst
  | setAgentDefinitions =>
    cases hst
    exact h.advance hi ha rfl his le_rfl (hk (Service.keepsRuns_of_eq rfl) rfl)
  | restart definitions' disabled =>
    cases hst
    obtain ⟨hs, hsa⟩ := ha
    obtain ⟨sto, hso⟩ := Option.isSome_iff_exists.mp hs
    have hu : (s.agents.restart definitions' disabled).agentRunStore.isSome := by
      simp only [Service.restart, hso]
      rfl
    refine h.advance hi ?_ (hu.trans hs.symm) his ?_ ?_
    · rw [← hsa]
      simp only [Service.restart, hso]
      rfl
    · simp only [Service.restart, hso]
      exact le_rfl
    · intro firing _ hm
      left
      rwa [remembered_of_stored hs hu]
  | startAgent | retryAgentRun =>
    obtain ⟨hf, had⟩ := Service.step_admits hst rfl
    exact h.admit hi his hf had hre
  | fireAgentTrigger => cases hfi
  | _ => exact absurd rfl ho

/-! Firings. -/

/-- Every definition passed its validation and is kept under its own id. -/
def ValidDefinitions (urls : UrlParser) (definitions : BTreeMap String AgentDefinition) : Prop :=
  ∀ (agentId : String) (definition : AgentDefinition), definitions[agentId]? = some definition →
    definition.id = agentId ∧ definition.validate urls = .ok ()

variable {urls : UrlParser}

theorem trigger_valid (hv : definition.validate urls = .ok ()) (ht : trig ∈ definition.triggers)
    : trig.lookback ≤ 86400 ∧
      ∀ other ∈ definition.triggers, other.id = trig.id → other = trig := by
  simp only [AgentDefinition.validate, unit_bind_eq_ok, bailIf_eq_ok, checkAll_eq_ok] at hv
  obtain ⟨-, -, -, -, -, -, -, -, -, -, -, hu, htr, -⟩ := hv
  constructor
  · have hc := htr trig ht
    simp only [AgentTrigger.validate, unit_bind_eq_ok, bailIf_eq_ok, not_lt] at hc
    simp only [AgentTrigger.lookback]
    omega
  · intro other ho hid
    exact inj_on_of_nodup_map (not_not.mp hu) ho ht hid

/-- What a firing that is let through has been checked for. -/
structure Allowed (service : TriggerService) (agentId : String) (trigger : AgentTrigger)
    (definition : AgentDefinition) : Prop where
  defined : service.agents.agentDefinitions[agentId]? = some definition
  owned : trigger ∈ definition.triggers
  distance : ∀ created ∈ service.recentFirings agentId trigger,
    trigger.cooldownSeconds ≤ service.agents.unixNow - created
  below : (service.recentFirings agentId trigger).countP
    (fun created => decide (service.agents.unixNow - created < 3600)) < trigger.maxRunsPerHour

theorem checkTrigger_eq_ok {hist : Except String Unit}
    (h : s.checkTrigger agentId triggerId hist = .ok trig) :
    ∃ definition, Allowed s agentId trig definition := by
  have hl {found : AgentTrigger} {definition : AgentDefinition}
      (hde : s.agents.agentDefinitions[agentId]? = some definition)
      (hf : definition.triggers.find? (fun trig => trig.id == triggerId) = some found)
      (hd : ¬ ∃ created ∈ s.recentFirings agentId found,
        s.agents.unixNow - created < found.cooldownSeconds)
      (hb : ¬ found.maxRunsPerHour ≤ (s.recentFirings agentId found).countP
        fun created => decide (s.agents.unixNow - created < 3600)) :
      Allowed s agentId found definition :=
    ⟨hde, mem_of_find?_eq_some hf,
      fun created hm => not_lt.mp fun hlt => hd ⟨created, hm, hlt⟩, not_le.mp hb⟩
  simp only [checkTrigger, bind_eq_ok, bailIf_eq_ok, okOr_eq_ok] at h
  obtain ⟨-, -, definition, hde, found, hf, -, -, h⟩ := h
  split at h
  · obtain ⟨-, -, h⟩ := bind_eq_ok.mp h
    simp only [bind_eq_ok, bailIf_eq_ok, pure_eq_ok] at h
    obtain ⟨-, hd, -, hb, rfl⟩ := h
    exact ⟨definition, hl hde hf hd hb⟩
  · simp only [bind_eq_ok, bailIf_eq_ok, pure_eq_ok] at h
    obtain ⟨-, hd, -, hb, rfl⟩ := h
    exact ⟨definition, hl hde hf hd hb⟩

/-- The service after a firing that went through. -/
def record (service : TriggerService) (agents : Service) (firing : TriggerFiring) :
    TriggerService :=
  { service with
    agents
    firingTable :=
      if service.agents.agentRunStore.isSome then recordTriggerFiring service.firingTable firing
      else service.firingTable
    fired := service.fired ++ [firing] }

/-- What a firing does, by its outcome. -/
theorem fire_cases {reply : TriggerReply}
    (h : s.fire config agentId triggerId runId lid reply = some t) :
    t = s ∨ ∃ trig definition u, Allowed s agentId trig definition ∧
      s.agents.step config (.fireAgentTrigger (triggerRequest agentId trig)
        ⟨trig.id, trig.kind⟩ runId lid reply.register reply.firing reply.write) = some u ∧
      (t = { s with agents := u } ∨
        t = s.record u ⟨runId, agentId, trig.id, trig.kind, s.agents.unixNow⟩ ∧
        ∃ run, u.agentRuns[runId]? = some run ∧ run.trigger = some ⟨trig.id, trig.kind⟩ ∧
          run.agentId = definition.id ∧ run.createdAtUnix = s.agents.unixNow) := by
  unfold fire at h
  split at h
  · left
    exact (Option.some.inj h).symm
  case h_2 trig hc =>
    right
    obtain ⟨definition, ha⟩ := checkTrigger_eq_ok hc
    obtain ⟨issued, hi, rfl⟩ := Option.map_eq_some_iff.mp h
    refine ⟨trig, definition, _, ha, by simp only [Service.step, hi]; rfl, ?_⟩
    obtain ⟨-, rfl⟩ := Service.issue_eq_some.mp hi
    dsimp only
    split
    · left
      rfl
    case h_2 hre =>
      right
      refine ⟨rfl, ?_⟩
      obtain ⟨hr, -⟩ := unit_bind_eq_ok.mp hre
      obtain ⟨-, hru⟩ := Service.registerAgentRun_admits config _ (triggerRequest agentId trig)
        runId lid (some ⟨trig.id, trig.kind⟩) none reply.register
      obtain ⟨run, hru, hr⟩ := hru hr
      obtain ⟨run', hru', ho⟩ := Service.fireAgentTrigger_carries.runs runId run hru
      obtain ⟨found, hf, hag⟩ := hr.agentId
      obtain rfl : found = definition := Option.some.inj (hf.symm.trans ha.defined)
      exact ⟨run', hru', ho.trigger.trans hr.trigger,
        ho.agentId.trans hag, ho.createdAtUnix.trans hr.createdAtUnix⟩

theorem mem_recordTriggerFiring {row : TriggerFiring} {tbl : List TriggerFiring}
    (hr : row ∈ tbl) : row ∈ recordTriggerFiring tbl firing ∨
      row.firedAtUnix + 86400 ≤ firing.firedAtUnix := by
  by_cases hk : firing.firedAtUnix - 86400 ≤ row.firedAtUnix
  · left
    exact mem_append_left _ (mem_filter.mpr ⟨hr, decide_eq_true hk⟩)
  · right
    omega

theorem firingTimes_record : (s.record u firing).firingTimes agentId trig =
    s.firingTimes agentId trig ++
      if firing.isOf agentId trig then [firing.firedAtUnix] else [] := by
  simp only [firingTimes, record, filter_append, map_append]
  by_cases hof : firing.isOf agentId trig
  · simp [hof]
  · simp [hof]

/-- The history shows what it showed before, up to the rows a day old. -/
theorem remembered_record (firing : TriggerFiring)
    (hso : u.agentRunStore.isSome = s.agents.agentRunStore.isSome) {pre : TriggerFiring}
    (h : pre ∈ ({ s with agents := u }).remembered) :
    pre ∈ (s.record u firing).remembered ∨ pre.firedAtUnix + 86400 ≤ firing.firedAtUnix := by
  cases hst : u.agentRunStore with
  | some sto =>
    have hs : s.agents.agentRunStore.isSome := by rw [← hso, hst]; rfl
    simp only [remembered, record, hst, hs, if_true] at h ⊢
    exact mem_recordTriggerFiring h
  | none =>
    left
    simp only [remembered, record, hst] at h ⊢
    exact h

/-- It shows the firing itself, either by its row or by its run. -/
theorem mem_remembered_record (hso : u.agentRunStore.isSome = s.agents.agentRunStore.isSome)
    (hr : u.agentRuns[firing.runId]? = some stat)
    (hf : firingOfRun (firing.runId, stat) = some firing) :
    firing ∈ (s.record u firing).remembered := by
  cases hst : u.agentRunStore with
  | some sto =>
    have hs : s.agents.agentRunStore.isSome := by rw [← hso, hst]; rfl
    simp [remembered, record, hst, hs, recordTriggerFiring]
  | none => exact (mem_remembered (s := s.record u firing) hst).mpr ⟨stat, hr, hf⟩

/-- The next firing of a trigger keeps its distance and its bound, and is in the history. -/
theorem Recalls.record (h : Recalls defns stored s) (hv : ValidDefinitions urls defns)
    (ha : Allowed s agentId trig definition)
    (hfi : firing = ⟨runId, agentId, trig.id, trig.kind, s.agents.unixNow⟩)
    (hfr : runId ∉ s.agents.issued) (hi : runId ∈ u.issued) (hs : Steady s.agents u)
    (hu : Recalls defns stored { s with agents := u })
    (hru : ∃ run, u.agentRuns[runId]? = some run ∧
      run.trigger = some ⟨trig.id, trig.kind⟩ ∧ run.agentId = definition.id ∧
        run.createdAtUnix = s.agents.unixNow) :
    Recalls defns stored (s.record u firing) := by
  have hd : defns[agentId]? = some definition := by
    rw [← h.setting]
    exact ha.defined
  obtain ⟨hid, hde⟩ := hv agentId definition hd
  have hri : firing.runId = runId := by rw [hfi]
  have hn : firing.firedAtUnix = u.unixNow := by rw [hfi, hs.clock]
  have hf {p : TriggerFiring → Prop} (hold : ∀ pre ∈ s.fired, p pre)
      (hne : p firing) : ∀ pre ∈ (s.record u firing).fired, p pre := by
    intro pre hm
    rcases mem_append.mp hm with hm | hm
    · exact hold pre hm
    · obtain rfl := mem_singleton.mp hm
      exact hne
  refine ⟨hu.issues, hu.setting, hu.stored, ?_, hf hu.issued (hri ▸ hi),
    hf hu.past hn.le, hf ?_ (.inl ?_), ?_⟩
  · simp only [TriggerService.record, map_append, nodup_append']
    refine ⟨h.nodup, nodup_singleton _, ?_⟩
    intro id hid hl
    obtain ⟨pre, he, rfl⟩ := mem_map.mp hid
    have hsa : pre.runId = runId := by simpa [hri] using hl
    exact hfr (hsa ▸ h.issued pre he)
  · intro pre he
    rcases hu.recalled pre he with hr | hsp
    · rcases remembered_record firing hs.stored hr with hk | hold
      · exact .inl hk
      · -- No trigger looks back more than a day.
        right
        intro other ho trigger' ht' _
        obtain ⟨-, ho⟩ := hv pre.agentId other ho
        obtain ⟨hda, -⟩ := trigger_valid ho ht'
        have hcl : firing.firedAtUnix = (s.record u firing).agents.unixNow := hn
        omega
    · exact .inr hsp
  · obtain ⟨run, hru, ht, hag, hc⟩ := hru
    refine mem_remembered_record hs.stored (hri ▸ hru) ?_
    simp [firingOfRun, ht, hag, hc, hfi, hid]
  · intro agentId' definition' trigger' hd' ht'
    rw [firingTimes_record]
    by_cases hof : firing.isOf agentId' trigger'
    · have hsa : agentId = agentId' ∧ trig.id = trigger'.id := by
        simp only [TriggerFiring.isOf, hfi, Bool.and_eq_true, beq_iff_eq] at hof
        exact hof.1
      obtain rfl := hsa.1
      obtain rfl : definition = definition' := Option.some.inj (hd.symm.trans hd')
      obtain rfl : trig = trigger' := (trigger_valid hde ht').2 trig ha.owned hsa.2
      rw [if_pos hof, hn, hs.clock]
      refine RateLimited.snoc_of_recalled
        (h.limited agentId definition trig hd ha.owned) ?_
        (h.subperm hd ha.owned) ha.distance ha.below
      intro time hti
      obtain ⟨pre, he, rfl⟩ := mem_map.mp hti
      exact h.past pre (mem_of_mem_filter he)
    · rw [if_neg hof, append_nil]
      exact h.limited agentId' definition' trigger' hd' ht'

theorem Recalls.fire {reply : TriggerReply} (h : Recalls defns stored s)
    (hv : ValidDefinitions urls defns) (hre : s.EvictsSpent)
    (hfi : s.fire config agentId triggerId runId lid reply = some t) :
    Recalls defns stored t := by
  rcases fire_cases hfi with rfl | ⟨trig, definition, u, hal, hs, hc⟩
  · exact h
  obtain ⟨hf, ha⟩ := step_admits hs rfl
  have hi : u.Issues := step_issues h.issues hs
  have his (r : String) (hr : r ∈ s.agents.issued) : r ∈ u.issued :=
    (view_step h.issues hs r).issued_mono hr
  have hu : Recalls defns stored { s with agents := u } := h.admit hi his hf ha hre
  rcases hc with rfl | ⟨rfl, hru⟩
  · exact hu
  · exact h.record hv hal rfl hf (issued_of_registers h.issues hs rfl)
      ha.steady hu hru

/-- The runs of the agents have ids that were handed out. -/
def Known (service : TriggerService) : Prop := service.agents.Issues

theorem step_known (h : s.step config e = some t) (hs : s.Known) : t.Known := by
  cases e with
  | agents ev =>
    simp only [step] at h
    split at h
    case isTrue => cases h
    case isFalse =>
      obtain ⟨u, hu, rfl⟩ := Option.map_eq_some_iff.mp h
      exact step_issues hs hu
  | setTriggersSuspended suspended =>
    cases h
    exact hs
  | fire =>
    rcases fire_cases h with rfl | ⟨_, _, u, -, hst, rfl | ⟨rfl, -⟩⟩
    · exact hs
    · exact step_issues hs hst
    · exact step_issues hs hst

/-- A step of the service under its assumptions. -/
theorem step_recalls (hv : ValidDefinitions urls defns) (h : s.step config e = some t)
    (hok : s.Assumed e ∧ s.Retains e) (hs : Recalls defns stored s)
    : Recalls defns stored t := by
  cases e with
  | agents ev =>
    simp only [step] at h
    split at h
    case isTrue => cases h
    case isFalse hf =>
      obtain ⟨u, hu, rfl⟩ := Option.map_eq_some_iff.mp h
      exact hs.agents hok.1 hok.2 (by simpa using hf) hu
  | setTriggersSuspended suspended =>
    cases h
    exact ⟨hs.issues, hs.setting, hs.stored, hs.nodup, hs.issued, hs.past, hs.recalled, hs.limited⟩
  | fire => exact hs.fire hv hok.2 h

theorem new_recalls (defns : BTreeMap String AgentDefinition) (stored : Bool)
    (unixNow instant : ℕ) (config : ServiceConfig) :
    Recalls defns stored (new defns stored unixNow instant) where
  issues := (new_wellFormed config defns stored unixNow instant).issues
  setting := rfl
  stored := by cases stored <;> rfl
  nodup := .nil
  issued := nofun
  past := nofun
  recalled := nofun
  limited _ _ _ _ _ := rateLimited_nil

end TriggerService

/-! A firing, a second task and the end of both. -/

def dailyTrigger : AgentTrigger :=
  { id := "daily", kind := .ipcEvent, objective := "Summarise my windows.", matchValue := "login",
    intervalSeconds := none, cooldownSeconds := 86400, maxRunsPerHour := 1, enabled := true }

def dailyAgent : AgentDefinition :=
  { builtInAgent "daily" "Daily" "" "" ["list_windows"] false with
    triggers := [dailyTrigger], builtIn := false }

def dailyDefinitions : BTreeMap String AgentDefinition :=
  Service.sampleDefinitions.insert "daily" dailyAgent

def numberedId (tag : UInt8) (n : ℕ) : String :=
  encodeHex (tag :: UInt8.ofNat n :: List.replicate 22 0)

def runIdOf (n : ℕ) : String := numberedId 0xaa n

def leaseIdOf (n : ℕ) : String := numberedId 0xbb n

theorem numberedId_isPlanId (tag : UInt8) (n : ℕ) : isPlanId (numberedId tag n) := by
  rw [isPlanId, numberedId, byteLen_encodeHex]
  simp [allChars, encodeHex, encodeHexChars_all]

theorem numberedId_inj {tag tag' : UInt8} {n m : ℕ} (hn : n < 256) (hm : m < 256)
    (h : numberedId tag n = numberedId tag' m) : tag = tag' ∧ n = m := by
  have hb : tag :: UInt8.ofNat n :: List.replicate 22 0 =
      tag' :: UInt8.ofNat m :: List.replicate 22 0 := by
    rw [← decodeHexChars_encodeHexChars (tag :: _), ← decodeHexChars_encodeHexChars (tag' :: _)]
    rw [numberedId, numberedId, encodeHex, encodeHex, ofList_inj] at h
    rw [h]
  simp only [List.cons.injEq, and_true] at hb
  refine ⟨hb.1, ?_⟩
  have hna := congrArg UInt8.toNat hb.2
  simpa [Nat.mod_eq_of_lt hn, Nat.mod_eq_of_lt hm] using hna

def fireDaily (n : ℕ) : TriggerEvent :=
  .fire "daily" "daily" (runIdOf n) (leaseIdOf n)
    ⟨.ok (), Service.accepted, .ok (), Service.written⟩

/-- The desktop denies the permission of a task. -/
def denied (n : ℕ) : List TriggerEvent :=
  [.start Service.written, .authorize false Service.written].map
    fun event => .agents (.execution (runIdOf n) event)

def startNumbered (n : ℕ) : TriggerEvent :=
  .agents (.startAgent Service.sampleRequest none (runIdOf n) (leaseIdOf n) Service.accepted)

def openingEvents : List TriggerEvent :=
  fireDaily 0 :: denied 0 ++ .agents (.tick 1001 1) :: startNumbered 1 :: denied 1

namespace TriggerService

theorem charCount_le_byteLen (s : String) : charCount s ≤ byteLen s := by
  rw [charCount, byteLen]
  have hl (cs : List Char) : cs.length ≤ (ofList cs).utf8ByteSize := by
    induction cs with
    | nil => simp
    | cons c cs ih =>
      have hc : ofList (c :: cs) = String.singleton c ++ ofList cs := by
        rw [singleton_eq_ofList, ← ofList_append]
        rfl
      have hp := c.utf8Size_pos
      rw [hc, utf8ByteSize_append, utf8ByteSize_singleton, length_cons]
      omega
  have hs := hl s.toList
  rwa [ofList_toList] at hs

/-- The two texts of a definition only have to be short. -/
theorem validate_of_texts {urls : UrlParser} {definition : AgentDefinition}
    (ht : byteLen definition.description ≤ 500 ∧ byteLen definition.instructions ≤ 4000)
    (h : ({ definition with description := "", instructions := "" } :
      AgentDefinition).validate urls = .ok ()) : definition.validate urls = .ok () := by
  have hd := (charCount_le_byteLen definition.description).trans ht.1
  have hi := (charCount_le_byteLen definition.instructions).trans ht.2
  simp only [AgentDefinition.validate, unit_bind_eq_ok, bailIf_eq_ok, not_or, not_lt] at h ⊢
  obtain ⟨hv, hid, hn, -, hr⟩ := h
  exact ⟨hv, hid, hn, ⟨hd, hi⟩, hr⟩

theorem dailyDefinitions_valid : ValidDefinitions sampleConfig.urls dailyDefinitions := by
  have ha : ∀ e ∈ dailyDefinitions.toList, e.2.id = e.1 ∧
      (byteLen e.2.description ≤ 500 ∧ byteLen e.2.instructions ≤ 4000) ∧
      (({ e.2 with description := "", instructions := "" } :
        AgentDefinition).validate sampleConfig.urls).toBool := by decide +kernel
  intro agentId definition hd
  obtain ⟨hid, ht, hv⟩ := ha (agentId, definition)
    (Std.ExtTreeMap.mem_toList_iff_getElem?_eq_some.mpr hd)
  obtain ⟨⟨⟩, hok⟩ := exists_of_toBool hv
  exact ⟨hid, validate_of_texts ht hok⟩

/-- The first run was fired and the second one was started a second later, and both have
ended. -/
def Opened (s : TriggerService) : Prop :=
  s.agents.agentRunStore.isNone = true ∧ s.agents.agentDefinitions = dailyDefinitions ∧
    s.agents.disabledAgents = [] ∧ s.agents.unixNow = 1001 ∧ s.triggersSuspended = false ∧
    s.firingTimes "daily" dailyTrigger = [1000] ∧
    s.agents.issued = [runIdOf 1, leaseIdOf 1, runIdOf 0, leaseIdOf 0] ∧
    s.agents.capabilityLeases.size ≤ 2 ∧ s.agents.agentRuns.size = 2 ∧
    (s.agents.agentRuns[runIdOf 0]?.any fun run =>
      run.state.isTerminal && run.createdAtUnix == 1000) = true ∧
    (s.agents.agentRuns[runIdOf 1]?.any fun run => run.state.isTerminal) = true ∧
    ∀ entry ∈ s.agents.agentRuns.toList, entry.1 ≠ runIdOf 0 →
      entry.2.trigger.isNone = true ∧ entry.2.createdAtUnix = 1001

instance (s : TriggerService) : Decidable s.Opened := inferInstanceAs (Decidable (_ ∧ _))

theorem opening_run :
    Meets (step sampleConfig) (fun s e => s.Assumed e ∧ s.Retains e)
        (.new dailyDefinitions false 1000 0) openingEvents ∧
      ∃ s, run (step sampleConfig) (.new dailyDefinitions false 1000 0) openingEvents =
        some s ∧ decide s.Opened :=
  exists_run_of_checked (by decide +kernel)

end TriggerService

end FocalDesk
