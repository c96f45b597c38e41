import FocalDesk.Connector.Runtimes

/-! When connectors run: never behind a pause, a refusal or the quarantine, and after each
request for a run. -/
namespace FocalDesk.Connector
open Library List HostState ConnectorHostIpcRequest

variable {s t : System} {e : Event} {id : String} {log : List Happening}

/-! What happened, the last first. -/

/-- The runs that failed since the last one that did not, the last clear or the last refresh
without the connector enabled. -/
def failuresSince (id : String) : List Happening → ℕ
  | [] => 0
  | .finished other ok :: log =>
    if other = id then if ok then 0 else failuresSince id log + 1 else failuresSince id log
  | .cleared other :: log => if other = id then 0 else failuresSince id log
  | .refreshed connectors :: log => if enabledIn connectors id then failuresSince id log else 0
  | .requested _ :: log => failuresSince id log
  | .ticked _ :: log => failuresSince id log
  | .started _ :: log => failuresSince id log
  | .rested :: log => failuresSince id log

/-- A run was requested and none has started since. -/
def owes (id : String) : List Happening → Bool
  | [] => false
  | .requested target :: log => target.all (· = id) || owes id log
  | .started other :: log => other ≠ id && owes id log
  | .finished _ _ :: log => owes id log
  | .cleared _ :: log => owes id log
  | .refreshed _ :: log => owes id log
  | .ticked _ :: log => owes id log
  | .rested :: log => owes id log

/-- The last tick began with a connector to run that owed a run. -/
def tickOwed (id : String) : List Happening → Bool
  | [] => false
  | .ticked runnable :: log => decide (id ∈ runnable) && owes id log
  | .requested _ :: log => tickOwed id log
  | .started _ :: log => tickOwed id log
  | .finished _ _ :: log => tickOwed id log
  | .cleared _ :: log => tickOwed id log
  | .refreshed _ :: log => tickOwed id log
  | .rested :: log => tickOwed id log

/-- A run started since the last tick began. -/
def startedInTick (id : String) : List Happening → Bool
  | [] => false
  | .ticked _ :: _ => false
  | .started other :: log => decide (other = id) || startedInTick id log
  | .requested _ :: log => startedInTick id log
  | .finished _ _ :: log => startedInTick id log
  | .cleared _ :: log => startedInTick id log
  | .refreshed _ :: log => startedInTick id log
  | .rested :: log => startedInTick id log

/-- Every tick that ended ran the connectors that owed a run when it began. -/
def Answered : List Happening → Prop
  | [] => True
  | .rested :: log => (∀ id, tickOwed id log = true → startedInTick id log = true) ∧ Answered log
  | .ticked _ :: log => Answered log
  | .started _ :: log => Answered log
  | .requested _ :: log => Answered log
  | .finished _ _ :: log => Answered log
  | .cleared _ :: log => Answered log
  | .refreshed _ :: log => Answered log

namespace Supervisor

/-- The connectors that may still start in this tick. -/
def left : Supervisor → List ConnectorStatus
  | .idle => []
  | .ticking _ _ rest => rest
  | .starting _ _ connector rest => connector :: rest
  | .running _ _ _ rest => rest

def current : Supervisor → Option ConnectorStatus
  | .idle => none
  | .ticking _ _ _ => none
  | .starting _ _ connector _ => some connector
  | .running _ _ connector _ => some connector

def fabric : Supervisor → Option EventFabricSnapshot
  | .idle => none
  | .ticking _ fabric _ => some fabric
  | .starting _ fabric _ _ => some fabric
  | .running _ fabric _ _ => some fabric

/-- The connector that runs. -/
def runs : Supervisor → Option ConnectorStatus
  | .running _ _ connector _ => some connector
  | _ => none

end Supervisor

/-- A pause comes when nothing is left to start, and no run is requested of the connector
that runs. -/
def undisturbed (s : System) : Event → Bool
  | .control (.setPaused paused) => !paused || s.supervisor.left.isEmpty
  | .control (.pollNow target) =>
    !s.supervisor.runs.any fun connector => target.all (· = connector.manifest.id)
  | _ => true

/-! The steps. -/

/-- What a step can do. -/
inductive Moved (s : System) : Event → System → Prop
  | refresh (connectors : List ConnectorStatus) (fabric : EventFabricSnapshot) (h : s.supervisor = .idle) : Moved s (.refresh connectors fabric)
      { s with
        host := reconcileState s.host connectors
        connectors
        fabric := some fabric
        log := .refreshed connectors :: s.log }
  | control (request : ConnectorHostIpcRequest) : Moved s (.control request)
      { s with
        host := (applyControlRequest s.host request).1
        log := request.happenings ++ s.log }
  | skip (now : ℕ) : Moved s (.tick now) s
  | tick {now : ℕ} {fabric : EventFabricSnapshot} (h : s.supervisor = .idle)
      (hfabric : s.fabric = some fabric)
      (hpaused : s.host.paused = false) (hconnected : fabric.connected = true) : Moved s (.tick now)
      { s with
        supervisor := .ticking now fabric (s.connectors.filter fun connector => connector.enabled)
        log := .ticked ((s.connectors.filter (s.host.runnable fabric)).map
          fun connector => connector.manifest.id) :: s.log }
  | rest {now : ℕ} {fabric : EventFabricSnapshot} (h : s.supervisor = .ticking now fabric []) : Moved s .consider
      { s with supervisor := .idle, log := .rested :: s.log }
  | delegate {now : ℕ} {fabric : EventFabricSnapshot} {connector : ConnectorStatus}
      {rest : List ConnectorStatus} (h : s.supervisor = .ticking now fabric (connector :: rest))
      (hid : connector.manifest.id = workflowEvents) : Moved s .consider
      { s with
        host := setDelegated s.host connector.manifest.id
        supervisor := .ticking now fabric rest }
  | refuse {now : ℕ} {fabric : EventFabricSnapshot} {connector : ConnectorStatus}
      {rest : List ConnectorStatus} (h : s.supervisor = .ticking now fabric (connector :: rest))
      (hconsent : consented fabric connector = false) : Moved s .consider
      { s with
        host := setWaitingForConsent s.host connector.manifest.id
        supervisor := .ticking now fabric rest }
  | choose {now : ℕ} {fabric : EventFabricSnapshot} {connector : ConnectorStatus}
      {rest : List ConnectorStatus} (h : s.supervisor = .ticking now fabric (connector :: rest))
      (hconsent : consented fabric connector = true)
      (hdue : s.host.due connector.manifest.id now = true) : Moved s .consider
      { s with supervisor := .starting now fabric connector rest }
  | pass {now : ℕ} {fabric : EventFabricSnapshot} {connector : ConnectorStatus}
      {rest : List ConnectorStatus} (h : s.supervisor = .ticking now fabric (connector :: rest))
      (hdue : s.host.due connector.manifest.id now = false) : Moved s .consider
      { s with supervisor := .ticking now fabric rest }
  | start {now : ℕ} {fabric : EventFabricSnapshot} {connector : ConnectorStatus}
      {rest : List ConnectorStatus} (h : s.supervisor = .starting now fabric connector rest) :
      Moved s .start
      { s with
        host := markRunning s.host connector.manifest.id
        supervisor := .running now fabric connector rest
        log := .started connector.manifest.id :: s.log }
  | finish {now : ℕ} {fabric : EventFabricSnapshot} {connector : ConnectorStatus}
      {rest : List ConnectorStatus} {durationMs : ℕ} {result : Except String ℕ}
      (h : s.supervisor = .running now fabric connector rest) : Moved s (.finish durationMs result)
      { s with
        host := finishRun s.host connector now durationMs result
        supervisor := .ticking now fabric rest
        log := .finished connector.manifest.id result.isOk :: s.log }

theorem moved_of_step (hs : step s e = some t) : Moved s e t := by
  cases e with
  | refresh cons fabric =>
    simp only [step] at hs
    split at hs
    · rename_i hi
      cases hs
      exact .refresh _ _ hi
    · cases hs
  | control req =>
    cases hs
    exact .control req
  | tick now =>
    simp only [step] at hs
    split at hs
    · rename_i fabric hi hf
      split at hs
      · cases hs
        exact .skip now
      · rename_i hgo
        cases hs
        simp only [Bool.or_eq_true, Bool.not_eq_true', not_or, Bool.not_eq_true,
          Bool.not_eq_false] at hgo
        exact .tick hi hf hgo.1 hgo.2
    · cases hs
  | consider =>
    simp only [step] at hs
    split at hs
    · rename_i h
      cases hs
      exact .rest h
    · rename_i now fabric connector rest h
      split at hs
      · rename_i hid
        cases hs
        exact .delegate h hid
      · split at hs
        · rename_i hc
          cases hs
          exact .refuse h hc
        · rename_i hc
          have hc := eq_true_of_ne_false hc
          split at hs
          · rename_i hd
            cases hs
            exact .choose h hc hd
          · rename_i hd
            cases hs
            exact .pass h (Bool.eq_false_iff.mpr hd)
    · cases hs
  | start =>
    simp only [step] at hs
    split at hs
    · rename_i h
      cases hs
      exact .start h
    · cases hs
  | finish durationMs res =>
    simp only [step] at hs
    split at hs
    · rename_i h
      cases hs
      exact .finish h
    · cases hs

/-! What guards a run. -/

/-- What holds of the connectors of a tick. -/
structure Guarded (s : System) : Prop where
  fabric : ∀ fabric, s.supervisor.fabric = some fabric →
    s.fabric = some fabric ∧ fabric.connected = true
  enabled : ∀ connector ∈ s.supervisor.left, connector ∈ s.connectors ∧ connector.enabled = true
  consented : ∀ now fabric connector rest, s.supervisor = .starting now fabric connector rest →
    consented fabric connector = true
  healthy : ∀ connector, s.supervisor.current = some connector →
    s.host.quarantined connector.manifest.id = false

theorem guarded_initial : Guarded .initial := by
  refine ⟨fun _ h => ?_, fun _ h => ?_, fun _ _ _ _ h => ?_, fun _ h => ?_⟩
  · cases h
  · cases h
  · cases h
  · cases h

theorem quarantined_control (host : HostState) (req : ConnectorHostIpcRequest)
    (h : host.quarantined id = false) :
    (applyControlRequest host req).1.quarantined id = false := by
  cases req with
  | setPaused paused => exact h
  | pollNow tgt => rw [quarantined_pollNow, h]
  | clearQuarantine other =>
    rw [quarantined_clearQuarantine]
    split
    · rfl
    · exact h

/-- The tick goes on with the connectors after the first one. -/
theorem Guarded.goOn (h : Guarded s) {now : ℕ} {fabric : EventFabricSnapshot}
    {rest : List ConnectorStatus} (hfa : s.supervisor.fabric = some fabric)
    (hr : ∀ con ∈ rest, con ∈ s.supervisor.left) {host : HostState}
    {log : List Happening} :
    Guarded { s with host, log, supervisor := .ticking now fabric rest } := by
  refine ⟨fun other hf => ?_, fun con hc => h.enabled con (hr con hc),
    fun _ _ _ _ hs => ?_, fun _ hc => ?_⟩
  · cases hf
    exact h.fabric fabric hfa
  · cases hs
  · cases hc

theorem guarded_step (hst : step s e = some t) (h : Guarded s) : Guarded t := by
  cases moved_of_step hst with
  | refresh cons fabric hi =>
    refine ⟨fun _ hf => ?_, fun _ hc => ?_, fun _ _ _ _ hs => ?_, fun _ hc => ?_⟩
    · simp [hi, Supervisor.fabric] at hf
    · simp [hi, Supervisor.left] at hc
    · cases hi.symm.trans hs
    · simp [hi, Supervisor.current] at hc
  | control req =>
    exact ⟨h.fabric, h.enabled, h.consented, fun con hc =>
      quarantined_control _ req (h.healthy con hc)⟩
  | skip now => exact h
  | tick hi hfa hp hcn =>
    refine ⟨fun _ hf => ?_, fun con hc => ?_, fun _ _ _ _ hs => ?_, fun _ hc => ?_⟩
    · cases hf
      exact ⟨hfa, hcn⟩
    · exact mem_filter.mp hc
    · cases hs
    · cases hc
  | rest hs =>
    refine ⟨fun _ hf => ?_, fun _ hc => ?_, fun _ _ _ _ hs => ?_, fun _ hc => ?_⟩
    · cases hf
    · cases hc
    · cases hs
    · cases hc
  | delegate hs hid =>
    exact h.goOn (by rw [hs]; rfl) fun con hc => by
      rw [hs]
      exact mem_cons_of_mem _ hc
  | refuse hs hco =>
    exact h.goOn (by rw [hs]; rfl) fun con hc => by
      rw [hs]
      exact mem_cons_of_mem _ hc
  | choose hs hco hd =>
    refine ⟨fun fabric hf => h.fabric fabric (by rw [hs]; exact hf),
      fun con hc => h.enabled con (by rw [hs]; exact hc), fun _ _ _ _ hs => ?_,
      fun _ hc => ?_⟩
    · cases hs
      exact hco
    · cases hc
      exact not_quarantined_of_due hd
  | pass hs hd =>
    exact h.goOn (by rw [hs]; rfl) fun con hc => by
      rw [hs]
      exact mem_cons_of_mem _ hc
  | start hs =>
    refine ⟨fun fabric hf => h.fabric fabric (by rw [hs]; exact hf), fun con hc => ?_,
      fun _ _ _ _ hs => ?_, fun con hc => ?_⟩
    · exact h.enabled con (by rw [hs]; exact mem_cons_of_mem _ hc)
    · cases hs
    · have hh := h.healthy con (by rw [hs]; exact hc)
      rw [← hh]
      exact quarantined_modifyStatus fun _ => rfl
  | finish hs =>
    exact h.goOn (by rw [hs]; rfl) fun con hc => by
      rw [hs]
      exact hc

/-- Nothing that may still start is behind a pause. -/
def Unpaused (s : System) : Prop := s.supervisor.left ≠ [] → s.host.paused = false

theorem unpaused_step (hst : step s e = some t) (hok : undisturbed s e) (h : Unpaused s)
    : Unpaused t := by
  cases moved_of_step hst with
  | refresh cons fabric hi =>
    intro hl
    simp [hi, Supervisor.left] at hl
  | control req =>
    intro hl
    have hp := h hl
    cases req with
    | setPaused paused =>
      simp only [undisturbed, Bool.or_eq_true, Bool.not_eq_true', List.isEmpty_iff] at hok
      exact hok.resolve_right hl
    | pollNow tgt => exact hp
    | clearQuarantine other =>
      obtain heq | ⟨-, heq⟩ := clearQuarantine_eq s.host other
      · simp only [heq]
        exact hp
      · simp only [heq]
        exact hp
  | skip now => exact h
  | tick hi hf hp hco => exact fun _ => hp
  | rest hs => exact fun hl => absurd rfl hl
  | delegate hs hid => exact fun _ => h (by rw [hs]; exact List.cons_ne_nil _ _)
  | refuse hs hc => exact fun _ => h (by rw [hs]; exact List.cons_ne_nil _ _)
  | choose hs hc hd => exact fun _ => h (by rw [hs]; exact List.cons_ne_nil _ _)
  | pass hs hd => exact fun _ => h (by rw [hs]; exact List.cons_ne_nil _ _)
  | start hs => exact fun _ => h (by rw [hs]; exact List.cons_ne_nil _ _)
  | finish hs => exact fun hl => h (by rw [hs]; exact hl)

/-! The quarantine. -/

/-- The host counts the failures, and quarantines by their number. -/
structure Counted (s : System) : Prop where
  failures : ∀ id, s.host.failures id = min (failuresSince id s.log) (2 ^ 32 - 1)
  quarantined : ∀ id, s.host.quarantined id = true ↔ quarantineFailures ≤ failuresSince id s.log

theorem counted_initial : Counted .initial := by
  refine ⟨fun id => ?_, fun id => ?_⟩
  · simp [System.initial, HostState.default, HostState.failures, failuresOf, failuresSince]
  · simp [System.initial, HostState.default, HostState.quarantined, failuresSince,
      quarantineFailures]

/-- What leaves the failures of every connector as they are. -/
theorem Counted.keep (h : Counted s) (hf : ∀ id, t.host.failures id = s.host.failures id)
    (hq : ∀ id, t.host.quarantined id = s.host.quarantined id)
    (hl : ∀ id, failuresSince id t.log = failuresSince id s.log) : Counted t :=
  ⟨fun id => by rw [hf, hl, h.failures], fun id => by
    rw [hq, hl, h.quarantined]⟩

theorem counted_step (hst : step s e = some t) (hg : Guarded s) (h : Counted s) :
    Counted t := by
  cases moved_of_step hst with
  | refresh cons fabric hi =>
    refine ⟨fun id => ?_, fun id => ?_⟩
    · rw [failures_reconcileState, failuresSince, h.failures]
      split <;> rfl
    · rw [quarantined_reconcileState, failuresSince]
      split
      · exact h.quarantined id
      · simp [quarantineFailures]
  | control req =>
    cases req with
    | setPaused paused => exact h.keep (fun _ => rfl) (fun _ => rfl) fun _ => rfl
    | pollNow tgt =>
      exact h.keep (fun _ => failures_pollNow tgt) (fun _ => quarantined_pollNow tgt) fun _ => rfl
    | clearQuarantine other =>
      refine ⟨fun id => ?_, fun id => ?_⟩
      · simp only [failures_clearQuarantine, happenings,
          singleton_append, failuresSince, h.failures]
        split <;> rfl
      · simp only [quarantined_clearQuarantine, happenings,
          singleton_append, failuresSince]
        split
        · simp [quarantineFailures]
        · exact h.quarantined id
  | skip now => exact h
  | tick hi hf hp hco => exact ⟨h.failures, h.quarantined⟩
  | rest hs => exact ⟨h.failures, h.quarantined⟩
  | delegate hs hid =>
    exact h.keep (fun _ => failures_modifyStatus fun _ => rfl)
      (fun _ => quarantined_modifyStatus fun _ => rfl) fun _ => rfl
  | refuse hs hc =>
    exact h.keep (fun _ => failures_modifyStatus fun _ => rfl)
      (fun _ => quarantined_modifyStatus fun _ => rfl) fun _ => rfl
  | choose hs hc hd => exact ⟨h.failures, h.quarantined⟩
  | pass hs hd => exact ⟨h.failures, h.quarantined⟩
  | start hs =>
    exact h.keep (fun _ => failures_modifyStatus fun _ => rfl)
      (fun _ => quarantined_modifyStatus fun _ => rfl) fun _ => rfl
  | @finish now fabric con rest durationMs res hs =>
    refine ⟨fun id => ?_, fun id => ?_⟩
    · rw [failures_finishRun, failuresSince, h.failures]
      split
      · split
        · rfl
        · omega
      · rfl
    · rw [quarantined_finishRun, failuresSince]
      split
      · rename_i hsa
        split
        · have hh := hg.healthy con (by rw [hs]; rfl)
          rw [hsa] at hh
          simp [hh, quarantineFailures]
        · rw [h.failures, decide_eq_true_eq]
          simp only [quarantineFailures]
          omega
      · exact h.quarantined id

/-! The requests for runs. -/

/-- A connector that owes a run and will start in this tick. -/
structure Awaits (s : System) (id : String) : Prop where
  owes : owes id s.log = true
  healthy : s.host.quarantined id = false
  waits : ∃ connector ∈ s.supervisor.left, connector.manifest.id = id ∧ id ≠ workflowEvents ∧
    ∀ fabric, s.supervisor.fabric = some fabric → consented fabric connector = true

structure Polled (s : System) : Prop where
  present : ∀ connector ∈ s.connectors, connector.manifest.id ∈ s.host.runtimes
  ready : ∀ id, owes id s.log = true → s.host.ready id = true
  settled : ∀ connector, s.supervisor.runs = some connector →
    owes connector.manifest.id s.log = false
  ticked : s.supervisor ≠ .idle → ∀ id, tickOwed id s.log = true →
    startedInTick id s.log = true ∨ Awaits s id
  answered : Answered s.log

theorem polled_initial : Polled .initial := by
  refine ⟨fun _ h => ?_, fun _ h => ?_, fun _ h => ?_, fun h => absurd rfl h, trivial⟩
  · cases h
  · cases h
  · cases h

/-- The tick goes on after a connector that did not have to start. -/
theorem Polled.goOn (h : Polled s) {now : ℕ} {fabric : EventFabricSnapshot}
    {con : ConnectorStatus} {rest : List ConnectorStatus} {host : HostState}
    (hs : s.supervisor = .ticking now fabric (con :: rest))
    (hp : ∀ id, id ∈ host.runtimes ↔ id ∈ s.host.runtimes)
    (hr : ∀ id, s.host.ready id → host.ready id)
    (hq : ∀ id, host.quarantined id = s.host.quarantined id)
    (hfr : Awaits s con.manifest.id → con.manifest.id = workflowEvents ∨
      consented fabric con = false) :
    Polled { s with host, supervisor := .ticking now fabric rest } := by
  refine ⟨fun c hc => (hp _).mpr (h.present c hc), fun id hid => hr id (h.ready id hid),
    fun _ hru => ?_, fun _ id hid => ?_, h.answered⟩
  · cases hru
  · refine (h.ticked (by rw [hs]; exact fun hi => by cases hi) id hid).imp_right fun ha => ?_
    obtain ⟨c, hc, hsa, ho, hco⟩ := ha.waits
    refine ⟨ha.owes, (hq id).trans ha.healthy, c, ?_, hsa, ho, fun fabric hf =>
      hco fabric (by rw [hs]; exact hf)⟩
    rw [hs] at hc
    obtain rfl | hc := mem_cons.mp hc
    · rw [← hsa] at ha ho
      have hag := hco fabric (by rw [hs]; rfl)
      obtain hw | hrefused := hfr ha
      · exact absurd hw ho
      · rw [hrefused] at hag
        cases hag
    · exact hc

theorem owes_control {req : ConnectorHostIpcRequest} (h : owes id log) :
    owes id (req.happenings ++ log) := by
  cases req with
  | setPaused paused => exact h
  | pollNow tgt => simp [happenings, owes, h]
  | clearQuarantine other => exact h

theorem tickOwed_control (req : ConnectorHostIpcRequest) :
    tickOwed id (req.happenings ++ log) = tickOwed id log := by
  cases req <;> rfl

theorem startedInTick_control (req : ConnectorHostIpcRequest) :
    startedInTick id (req.happenings ++ log) = startedInTick id log := by
  cases req <;> rfl

theorem answered_control (req : ConnectorHostIpcRequest) :
    Answered (req.happenings ++ log) ↔ Answered log := by
  cases req <;> exact Iff.rfl

theorem ready_control {host : HostState} {req : ConnectorHostIpcRequest}
    (h : owes id log → host.ready id)
    (ho : owes id (req.happenings ++ log)) :
    (applyControlRequest host req).1.ready id := by
  cases req with
  | setPaused paused => exact h ho
  | pollNow tgt =>
    simp only [happenings, singleton_append, owes, Bool.or_eq_true] at ho
    exact ready_pollNow (ho.imp_right h)
  | clearQuarantine other => exact ready_clearQuarantine (h ho)

theorem polled_step (hsp : step s e = some t) (hok : undisturbed s e) (hg : Guarded s)
    (h : Polled s) : Polled t := by
  cases moved_of_step hsp with
  | refresh cons fabric hi =>
    refine ⟨fun c hc => mem_reconcileState hc, fun id hid => ready_reconcileState (h.ready id hid),
      fun c hc => ?_, fun hb => absurd hi hb, h.answered⟩
    simp [hi, Supervisor.runs] at hc
  | control req =>
    refine ⟨fun c hc => (mem_applyControlRequest _ req).mpr (h.present c hc),
      fun id hid => ready_control (h.ready id) hid, fun c hc => ?_, fun hb id hid => ?_,
      (answered_control req).mpr h.answered⟩
    · have hse := h.settled c hc
      cases req with
      | setPaused paused => exact hse
      | pollNow tgt =>
        have ho : tgt.all (· = c.manifest.id) = false := by
          simpa [undisturbed, show s.supervisor.runs = some c from hc] using hok
        simp only [happenings, singleton_append, owes, ho,
          hse, Bool.or_self]
      | clearQuarantine other => exact hse
    · rw [tickOwed_control] at hid
      rw [startedInTick_control]
      exact (h.ticked hb id hid).imp_right fun ha =>
        ⟨owes_control ha.owes, quarantined_control _ req ha.healthy, ha.waits⟩
  | skip now => exact h
  | tick hi hfa hp hcn =>
    refine ⟨h.present, h.ready, fun _ hru => ?_, fun _ id hid => .inr ?_, h.answered⟩
    · cases hru
    · simp only [tickOwed, Bool.and_eq_true, decide_eq_true_eq, mem_map,
        mem_filter] at hid
      obtain ⟨⟨c, ⟨hc, hrn⟩, rfl⟩, how⟩ := hid
      simp only [runnable, Bool.and_eq_true, Bool.not_eq_true', decide_not] at hrn
      obtain ⟨⟨⟨he, ho⟩, hco⟩, hh⟩ := hrn
      refine ⟨how, hh, c, mem_filter.mpr ⟨hc, he⟩, rfl, of_decide_eq_false ho, fun fabric hf => ?_⟩
      cases hf
      exact hco
  | rest hs =>
    refine ⟨h.present, h.ready, fun _ hru => ?_, fun hb => absurd rfl hb, fun id hid => ?_,
      h.answered⟩
    · cases hru
    · obtain hst | ha := h.ticked (by rw [hs]; exact fun hi => by cases hi) id hid
      · exact hst
      · obtain ⟨c, hc, -⟩ := ha.waits
        rw [hs] at hc
        cases hc
  | delegate hs hid =>
    exact h.goOn hs (fun _ => mem_modifyStatus) (fun _ => ready_modifyStatus fun _ _ => rfl)
      (fun _ => quarantined_modifyStatus fun _ => rfl) fun _ => .inl hid
  | refuse hs hco =>
    exact h.goOn hs (fun _ => mem_modifyStatus) (fun _ => ready_modifyStatus fun _ _ => rfl)
      (fun _ => quarantined_modifyStatus fun _ => rfl) fun _ => .inr hco
  | choose hs hco hd =>
    refine ⟨h.present, h.ready, fun _ hru => ?_, fun _ id hid => ?_, h.answered⟩
    · cases hru
    refine (h.ticked (by rw [hs]; exact fun hi => by cases hi) id hid).imp_right fun ha => ?_
    obtain ⟨c, hc, hr⟩ := ha.waits
    rw [hs] at hc hr
    exact ⟨ha.owes, ha.healthy, c, hc, hr⟩
  | @pass now fabric con rest hs hd =>
    refine h.goOn hs (fun _ => Iff.rfl) (fun _ h => h) (fun _ => rfl) fun ha => ?_
    have hm : con.manifest.id ∈ s.host.runtimes :=
      h.present con (hg.enabled con (by rw [hs]; exact mem_cons_self)).1
    rw [due_of_ready hm (h.ready _ ha.owes) ha.healthy] at hd
    cases hd
  | @start now fabric con rest hs =>
    refine ⟨fun c hc => mem_modifyStatus.mpr (h.present c hc), fun id hid => ?_, fun c hc => ?_,
      fun _ id hid => ?_, h.answered⟩
    · simp only [owes, Bool.and_eq_true] at hid
      exact ready_modifyStatus (fun _ h => h) (h.ready id hid.2)
    · cases hc
      simp [owes]
    · by_cases hsa : con.manifest.id = id
      · simp [startedInTick, hsa]
      · obtain hst | ha := h.ticked (by rw [hs]; exact fun hi => by cases hi) id hid
        · simp [startedInTick, hst]
        · obtain ⟨c, hc, hid, hr⟩ := ha.waits
          rw [hs] at hc hr
          refine .inr ⟨?_, ?_, c, ?_, hid, hr⟩
          · simp [owes, hsa, ha.owes]
          · rw [← ha.healthy]
            exact quarantined_modifyStatus fun _ => rfl
          · exact (mem_cons.mp hc).resolve_left fun heq => hsa (heq ▸ hid)
  | @finish now fabric con rest durationMs res hs =>
    have hse := h.settled con (by rw [hs]; rfl)
    have ho : ∀ id, owes id s.log → con.manifest.id ≠ id := by
      rintro id how rfl
      rw [hse] at how
      cases how
    refine ⟨fun c hc => mem_finishRun (h.present c hc), fun id hid => ?_,
      fun _ hru => ?_, fun _ id hid => ?_, h.answered⟩
    · rw [ready_finishRun (ho id hid)]
      exact h.ready id hid
    · cases hru
    · refine (h.ticked (by rw [hs]; exact fun hi => by cases hi) id hid).imp_right
        fun ha => ?_
      obtain ⟨c, hc, hr⟩ := ha.waits
      rw [hs] at hc hr
      refine ⟨ha.owes, ?_, c, hc, hr⟩
      rw [quarantined_finishRun, if_neg (ho id ha.owes)]
      exact ha.healthy

/-! The runs of the host. -/

structure Supervised (s : System) : Prop where
  guarded : Guarded s
  unpaused : Unpaused s
  counted : Counted s
  polled : Polled s

theorem supervised_initial : Supervised .initial :=
  ⟨guarded_initial, fun hl => absurd rfl hl, counted_initial, polled_initial⟩

theorem supervised_step (hs : step s e = some t) (hok : undisturbed s e) (h : Supervised s)
    : Supervised t :=
  ⟨guarded_step hs h.guarded, unpaused_step hs hok h.unpaused,
    counted_step hs h.guarded h.counted, polled_step hs hok h.guarded h.polled⟩

/-- What a run that starts next has before it. -/
structure Permitted (s : System) (fabric : EventFabricSnapshot) (connector : ConnectorStatus) :
    Prop where
  unpaused : s.host.paused = false
  connected : s.fabric = some fabric ∧ fabric.connected = true
  enabled : connector ∈ s.connectors ∧ connector.enabled = true
  consented : consented fabric connector = true
  healthy : s.host.quarantined connector.manifest.id = false

/-- Runs start with permission, failures are counted up to the quarantine, and requests for
runs are answered. -/
theorem connector_supervision {es : List Event}
    (hmeets : Meets step (fun s e => undisturbed s e = true) .initial es)
    (hrun : run step .initial es = some s) :
    (∀ now fabric connector rest, s.supervisor = .starting now fabric connector rest →
      Permitted s fabric connector) ∧
    (∀ id, s.host.quarantined id = true ↔ quarantineFailures ≤ failuresSince id s.log) ∧
    Answered s.log := by
  have h := run_invariant_of_meets supervised_step hmeets hrun supervised_initial
  refine ⟨fun now fabric connector rest hs => ?_, h.counted.quarantined, h.polled.answered⟩
  exact ⟨h.unpaused (by rw [hs]; exact cons_ne_nil _ _),
    h.guarded.fabric fabric (by rw [hs]; rfl),
    h.guarded.enabled connector (by rw [hs]; exact mem_cons_self),
    h.guarded.consented now fabric connector rest hs, h.guarded.healthy connector (by rw [hs]; rfl)⟩

/-! Samples. -/

def healthConnector : ConnectorStatus where
  manifest := {
    manifestVersion := 1
    id := "service-health"
    name := "Service health"
    description := "Local service health"
    version := "1.0.0"
    eventSources := [.serviceHealth]
    eventFields := ∅
    networkDomains := []
    signingKeyHandle := none
    runtime := none
    builtIn := true }
  enabled := true
  networkAllowed := false
  health := .ready
  lastEventAtUnix := none
  lastError := none
  rollbackAvailable := false

def healthFabric : EventFabricSnapshot where
  connected := true
  policies := [⟨.serviceHealth, true, ["event"], 60, false⟩]

def failingRun : List Event :=
  [.refresh [healthConnector] healthFabric, .tick 10, .consider, .start,
    .control (.setPaused true), .finish 3 (.error "refused"), .consider,
    .control (.pollNow (some "service-health")), .tick 11, .control (.setPaused false), .tick 12,
    .consider, .start, .finish 3 (.error "refused"), .consider]

/-- Two runs failed, and the last tick ran what it owed. -/
def twoFailures (s : System) : Bool :=
  failuresSince "service-health" s.log = 2 && tickOwed "service-health" s.log.tail

theorem failing_run_supervised : ∃ s, run step .initial failingRun = some s ∧
    twoFailures s = true ∧ s.host.quarantined "service-health" = false ∧ Answered s.log := by
  have he : (checkedRun step (fun s e => undisturbed s e = true) .initial
      failingRun).any twoFailures = true := by decide +kernel
  obtain ⟨hm, s, hr, hs⟩ := exists_run_of_checked he
  obtain ⟨-, hq, ha⟩ := connector_supervision hm hr
  refine ⟨s, hr, hs, Bool.eq_false_iff.mpr fun hb => ?_, ha⟩
  have hf := (hq _).mp hb
  simp only [twoFailures, Bool.and_eq_true, decide_eq_true_eq] at hs
  rw [hs.1] at hf
  exact absurd hf (by decide)

/-- A tick that ended without a run that it owed. -/
def lost (id : String) : List Happening → Bool
  | .rested :: log => tickOwed id log && !startedInTick id log
  | _ => false

theorem not_answered_of_lost (h : lost id log) : ¬ Answered log := by
  unfold lost at h
  split at h
  · rename_i rest
    simp only [Bool.and_eq_true, Bool.not_eq_true'] at h
    intro ha
    have hs := ha.1 id h.1
    rw [h.2] at hs
    cases hs
  · cases h

def requestedWhileRunning : List Event :=
  [.refresh [healthConnector] healthFabric, .tick 10, .consider, .start,
    .control (.pollNow (some "service-health")), .finish 3 (.ok 1), .consider, .tick 11,
    .consider, .consider]

def pausedInTick : List Event :=
  [.refresh [healthConnector] healthFabric, .tick 10, .consider, .control (.setPaused true)]

def startsPaused (s : System) : Bool :=
  s.host.paused && (s.supervisor.current.any fun connector => connector.enabled) &&
    (step s .start).any fun t => startedInTick "service-health" t.log

/-- A request for a run of the connector that runs is forgotten when the run finishes, and a
pause in the middle of a tick does not hold the next run back. -/
theorem request_while_running_lost :
    (∃ s, run step .initial requestedWhileRunning = some s ∧ ¬ Answered s.log) ∧
      ∃ s, run step .initial pausedInTick = some s ∧ startsPaused s = true := by
  have hl : (run step .initial requestedWhileRunning).any
      (fun s => lost "service-health" s.log) = true := by decide +kernel
  have hp : (run step .initial pausedInTick).any startsPaused = true := by decide +kernel
  obtain ⟨s, hr, hs⟩ := exists_run_of_any hl
  exact ⟨⟨s, hr, not_answered_of_lost hs⟩, exists_run_of_any hp⟩

end FocalDesk.Connector
