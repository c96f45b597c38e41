import FocalDesk.Event.Fabric
import FocalDesk.Library.Transition

/-! The emergency pause of Mission Control, and how long it holds over restarts. -/
namespace FocalDesk
open Library List Option

/-- The rows of `agent_runtime_meta`; a row that is missing reads as false. -/
structure RuntimeMeta where
  triggersSuspended : Bool
  missionControlPaused : Bool

/-- The part of the service that its safety switches are about. -/
structure MissionControl where
  agentRunStore : Option RuntimeMeta
  triggersSuspended : Bool
  routineEngine : RoutineState
  eventFabric : EventFabric

/-- How the store answers a trigger switch: the latch, the flag and the control event. -/
structure SwitchReply where
  latch : Bool
  flag : Bool
  control : Bool

namespace MissionControl

/-- A service as it starts, without a store. -/
def memory : MissionControl :=
  { agentRunStore := none, triggersSuspended := false, routineEngine := .default,
    eventFabric := .default }

/-- A write of the store, if there is one. -/
def writeMeta (service : MissionControl) (saved : Bool) (update : RuntimeMeta → RuntimeMeta) :
    MissionControl × Except String Unit :=
  match service.agentRunStore with
  | none => (service, .ok ())
  | some store =>
    if saved then ({ service with agentRunStore := some (update store) }, .ok ())
    else (service, .error "agent run database is unavailable")

def setMissionControlPaused (service : MissionControl) (paused saved : Bool) :
    MissionControl × Except String Unit :=
  service.writeMeta saved fun store => { store with missionControlPaused := paused }

/-- The entry in the control log changes no flag. -/
def recordControlEvent (service : MissionControl) (saved : Bool) :
    MissionControl × Except String Unit :=
  service.writeMeta saved id

/-- What follows a fallible step, unless it failed. -/
def andThen (first : MissionControl × Except String Unit)
    (next : MissionControl → MissionControl × Except String Unit) :
    MissionControl × Except String Unit :=
  match first with
  | (service, .error error) => (service, .error error)
  | (service, .ok ()) => next service

def setTriggersSuspended (service : MissionControl) (suspended : Bool) (reply : SwitchReply) :
    MissionControl × Except String Unit :=
  let cleared :=
    if suspended then (service, .ok ()) else service.setMissionControlPaused false reply.latch
  andThen cleared fun service =>
    andThen (service.writeMeta reply.flag fun store => { store with triggersSuspended := suspended })
      fun service => andThen (service.recordControlEvent reply.control) fun service =>
        ({ service with triggersSuspended := suspended }, .ok ())

def setRoutinesSuspended (service : MissionControl) (suspended saved : Bool) :
    MissionControl × Except String Unit :=
  let cleared := if suspended then (service, .ok ()) else service.setMissionControlPaused false saved
  andThen cleared fun service =>
    ({ service with routineEngine := { service.routineEngine with suspended } }, .ok ())

def setEventFabricConnected (service : MissionControl) (connected saved : Bool) :
    MissionControl × Except String Unit :=
  let cleared := if connected then service.setMissionControlPaused false saved else (service, .ok ())
  andThen cleared fun service =>
    ({ service with eventFabric := service.eventFabric.setConnected connected }, .ok ())

/-- The three changes of `activate_mission_control_pause`, behind the latch. -/
def pauseComponents (service : MissionControl) (latch : Bool) (reply : SwitchReply) :
    MissionControl × Except String Unit :=
  andThen (service.setMissionControlPaused true latch) fun service =>
    andThen (service.setTriggersSuspended true reply) fun service =>
      ({ service with
        routineEngine := { service.routineEngine with suspended := true }
        eventFabric := service.eventFabric.setConnected false }, .ok ())

def activateMissionControlPause (service : MissionControl) (latch : Bool) (reply : SwitchReply)
    (control : Bool) : MissionControl × Except String Unit :=
  andThen (service.pauseComponents latch reply) fun service => service.recordControlEvent control

/-- `enable_agent_run_store` of a new service, on the same database. -/
def restart (service : MissionControl) : Option MissionControl :=
  service.agentRunStore.map fun store =>
    let fresh := { memory with
      agentRunStore := some store, triggersSuspended := store.triggersSuspended }
    if store.missionControlPaused then
      { fresh with
        triggersSuspended := true
        routineEngine := { fresh.routineEngine with suspended := true }
        eventFabric := fresh.eventFabric.setConnected false }
    else fresh

end MissionControl

inductive MissionEvent where
  | activateMissionControlPause (latch : Bool) (reply : SwitchReply) (control : Bool)
  | setTriggersSuspended (suspended : Bool) (reply : SwitchReply)
  | setRoutinesSuspended (suspended saved : Bool)
  | setEventFabricConnected (connected saved : Bool)
  | restart

namespace MissionEvent

def resumesTriggers : MissionEvent → Bool
  | setTriggersSuspended suspended _ => !suspended
  | _ => false

def resumesRoutines : MissionEvent → Bool
  | setRoutinesSuspended suspended _ => !suspended
  | _ => false

def resumesFabric : MissionEvent → Bool
  | setEventFabricConnected connected _ => connected
  | _ => false

/-- A call that asks for any of the components to resume. -/
def resumes (event : MissionEvent) : Bool :=
  event.resumesTriggers || event.resumesRoutines || event.resumesFabric

def isRestart : MissionEvent → Bool
  | restart => true
  | _ => false

end MissionEvent

namespace MissionControl

def step (service : MissionControl) : MissionEvent → Option MissionControl
  | .activateMissionControlPause latch reply control =>
    some (service.activateMissionControlPause latch reply control).1
  | .setTriggersSuspended suspended reply => some (service.setTriggersSuspended suspended reply).1
  | .setRoutinesSuspended suspended saved => some (service.setRoutinesSuspended suspended saved).1
  | .setEventFabricConnected connected saved =>
    some (service.setEventFabricConnected connected saved).1
  | .restart => service.restart

/-! What the calls keep. -/

variable {s t final : MissionControl} {e : MissionEvent} {events : List MissionEvent}
  {P : MissionControl → Prop} {fst : MissionControl × Except String Unit}
  {next : MissionControl → MissionControl × Except String Unit} {saved suspended conn : Bool}
  {upd : RuntimeMeta → RuntimeMeta} {reply : SwitchReply} {latch control : Bool}

theorem andThen_keeps (hf : P fst.1) (hn : ∀ s, P s → P (next s).1) :
    P (andThen fst next).1 := by
  unfold andThen
  split
  · exact hf
  · exact hn _ hf

theorem writeMeta_keeps (hs : P s)
    (hw : ∀ sto ∈ s.agentRunStore, P { s with agentRunStore := some (upd sto) }) :
    P (s.writeMeta saved upd).1 := by
  unfold writeMeta
  split
  · exact hs
  case h_2 sto hst =>
    split
    · exact hw sto hst
    · exact hs

/-- The trigger switch touches neither the engine nor the fabric. -/
theorem setTriggersSuspended_keeps (hs : P s)
    (hst : ∀ s sto, P s → P { s with agentRunStore := sto })
    (hf : ∀ s, P s → P { s with triggersSuspended := suspended }) :
    P (s.setTriggersSuspended suspended reply).1 := by
  have hw (s : MissionControl) (saved : Bool) (upd : RuntimeMeta → RuntimeMeta) (h : P s) :
      P (s.writeMeta saved upd).1 := writeMeta_keeps h fun _ _ => hst _ _ h
  refine andThen_keeps ?_ fun s h => andThen_keeps (hw _ _ _ h) fun s h =>
    andThen_keeps (hw _ _ _ h) fun s h => hf s h
  split
  · exact hs
  · exact hw _ _ _ hs

/-- Triggers are paused, in memory and in the store. -/
def TriggersHeld (service : MissionControl) : Prop :=
  service.triggersSuspended = true ∧ ∀ store ∈ service.agentRunStore, store.triggersSuspended = true

def RoutinesPaused (service : MissionControl) : Prop := service.routineEngine.suspended = true

def FabricPaused (service : MissionControl) : Prop := service.eventFabric.state.connected = false

/-- The store, if there is one, holds the latch. -/
def LatchHeld (service : MissionControl) : Prop :=
  ∀ store ∈ service.agentRunStore, store.missionControlPaused = true

theorem TriggersHeld.write (hs : s.TriggersHeld)
    (hu : ∀ sto, sto.triggersSuspended → (upd sto).triggersSuspended) :
    (s.writeMeta saved upd).1.TriggersHeld :=
  writeMeta_keeps hs fun sto hst =>
    ⟨hs.1, fun _ h => some.inj h ▸ hu sto (hs.2 sto hst)⟩

theorem LatchHeld.write (hs : s.LatchHeld)
    (hu : ∀ sto, sto.missionControlPaused → (upd sto).missionControlPaused) :
    (s.writeMeta saved upd).1.LatchHeld :=
  writeMeta_keeps hs fun sto hst _ h => some.inj h ▸ hu sto (hs sto hst)

/-- A suspension leaves the latch alone. -/
theorem setTriggersSuspended_true : s.setTriggersSuspended true reply =
    andThen (s.writeMeta reply.flag fun sto => { sto with triggersSuspended := true })
      fun svc => andThen (svc.recordControlEvent reply.control) fun svc =>
        ({ svc with triggersSuspended := true }, .ok ()) := rfl

theorem TriggersHeld.suspend (hs : s.TriggersHeld) :
    (s.setTriggersSuspended true reply).1.TriggersHeld := by
  rw [setTriggersSuspended_true]
  refine andThen_keeps (hs.write fun _ _ => rfl) fun s hs => ?_
  exact andThen_keeps (hs.write fun _ h => h) fun _ hs => ⟨rfl, hs.2⟩

theorem LatchHeld.suspend (hs : s.LatchHeld) :
    (s.setTriggersSuspended true reply).1.LatchHeld := by
  rw [setTriggersSuspended_true]
  refine andThen_keeps (hs.write fun _ h => h) fun s hs => ?_
  exact andThen_keeps (hs.write fun _ h => h) fun _ hs => hs

/-! Steps. -/

theorem step_triggersHeld (h : s.step e = some t) (he : e.resumesTriggers = false)
    (hs : s.TriggersHeld) : t.TriggersHeld := by
  cases e with
  | activateMissionControlPause latch reply control =>
    cases h
    refine andThen_keeps (andThen_keeps (hs.write fun _ h => h) fun s hs => ?_)
      fun s hs => hs.write fun _ h => h
    exact andThen_keeps hs.suspend fun _ hs => hs
  | setTriggersSuspended suspended reply =>
    cases h
    obtain rfl : suspended := by simpa [MissionEvent.resumesTriggers] using he
    exact hs.suspend
  | setRoutinesSuspended suspended saved =>
    cases h
    refine andThen_keeps ?_ fun _ hs => hs
    split
    · exact hs
    · exact hs.write fun _ h => h
  | setEventFabricConnected conn saved =>
    cases h
    refine andThen_keeps ?_ fun _ hs => hs
    split
    · exact hs.write fun _ h => h
    · exact hs
  | restart =>
    obtain ⟨sto, hst, rfl⟩ := map_eq_some_iff.mp h
    have hf : sto.triggersSuspended := hs.2 sto hst
    dsimp only
    split
    · exact ⟨rfl, fun _ h => some.inj h ▸ hf⟩
    · exact ⟨hf, fun _ h => some.inj h ▸ hf⟩

theorem step_latchHeld (h : s.step e = some t) (he : e.resumes = false) (hs : s.LatchHeld) :
    t.LatchHeld := by
  simp only [MissionEvent.resumes, Bool.or_eq_false_iff] at he
  obtain ⟨⟨ht, hr⟩, hf⟩ := he
  cases e with
  | activateMissionControlPause latch reply control =>
    cases h
    refine andThen_keeps (andThen_keeps (hs.write fun _ _ => rfl) fun s hs => ?_)
      fun s hs => hs.write fun _ h => h
    exact andThen_keeps hs.suspend fun _ hs => hs
  | setTriggersSuspended suspended reply =>
    cases h
    obtain rfl : suspended := by simpa [MissionEvent.resumesTriggers] using ht
    exact hs.suspend
  | setRoutinesSuspended suspended saved =>
    cases h
    obtain rfl : suspended := by simpa [MissionEvent.resumesRoutines] using hr
    exact hs
  | setEventFabricConnected conn saved =>
    cases h
    obtain rfl : conn = false := hf
    exact hs
  | restart =>
    obtain ⟨sto, hst, rfl⟩ := map_eq_some_iff.mp h
    have hl : sto.missionControlPaused := hs sto hst
    dsimp only
    rw [if_pos hl]
    exact fun _ h => some.inj h ▸ hl

theorem step_routines (h : s.step e = some t) (he : e.resumesRoutines = false)
    (hl : e.isRestart → s.LatchHeld) (hs : s.RoutinesPaused) : t.RoutinesPaused := by
  have hsw (s : MissionControl) (suspended : Bool) (reply : SwitchReply)
      (hs : s.RoutinesPaused) : (s.setTriggersSuspended suspended reply).1.RoutinesPaused :=
    setTriggersSuspended_keeps hs (fun _ _ h => h) fun _ h => h
  have hw (s : MissionControl) (saved : Bool) (upd : RuntimeMeta → RuntimeMeta)
      (hs : s.RoutinesPaused) : (s.writeMeta saved upd).1.RoutinesPaused :=
    writeMeta_keeps hs fun _ _ => hs
  cases e with
  | activateMissionControlPause latch reply control =>
    cases h
    refine andThen_keeps (andThen_keeps (hw _ _ _ hs) fun s hs => ?_) fun s hs => hw _ _ _ hs
    exact andThen_keeps (hsw _ _ _ hs) fun _ _ => rfl
  | setTriggersSuspended suspended reply =>
    cases h
    exact hsw _ _ _ hs
  | setRoutinesSuspended suspended saved =>
    cases h
    obtain rfl : suspended := by simpa [MissionEvent.resumesRoutines] using he
    rfl
  | setEventFabricConnected conn saved =>
    cases h
    refine andThen_keeps ?_ fun _ hs => hs
    split
    · exact hw _ _ _ hs
    · exact hs
  | restart =>
    obtain ⟨sto, hst, rfl⟩ := map_eq_some_iff.mp h
    dsimp only
    rw [if_pos (hl rfl sto hst)]
    rfl

theorem step_fabric (h : s.step e = some t) (he : e.resumesFabric = false)
    (hl : e.isRestart → s.LatchHeld) (hs : s.FabricPaused) : t.FabricPaused := by
  have hsw (s : MissionControl) (suspended : Bool) (reply : SwitchReply)
      (hs : s.FabricPaused) : (s.setTriggersSuspended suspended reply).1.FabricPaused :=
    setTriggersSuspended_keeps hs (fun _ _ h => h) fun _ h => h
  have hw (s : MissionControl) (saved : Bool) (upd : RuntimeMeta → RuntimeMeta)
      (hs : s.FabricPaused) : (s.writeMeta saved upd).1.FabricPaused :=
    writeMeta_keeps hs fun _ _ => hs
  cases e with
  | activateMissionControlPause latch reply control =>
    cases h
    refine andThen_keeps (andThen_keeps (hw _ _ _ hs) fun s hs => ?_) fun s hs => hw _ _ _ hs
    exact andThen_keeps (hsw _ _ _ hs) fun _ _ => rfl
  | setTriggersSuspended suspended reply =>
    cases h
    exact hsw _ _ _ hs
  | setRoutinesSuspended suspended saved =>
    cases h
    refine andThen_keeps ?_ fun _ hs => hs
    split
    · exact hs
    · exact hw _ _ _ hs
  | setEventFabricConnected conn saved =>
    cases h
    obtain rfl : conn = false := he
    rfl
  | restart =>
    obtain ⟨sto, hst, rfl⟩ := map_eq_some_iff.mp h
    dsimp only
    rw [if_pos (hl rfl sto hst)]
    rfl

/-! Runs. -/

theorem run_triggersHeld (hr : run step s events = some final)
    (ho : ∀ e ∈ events, e.resumesTriggers = false) (hs : s.TriggersHeld) :
    final.TriggersHeld := by
  have hm : Meets step (fun _ e => e.resumesTriggers = false) s events :=
    meets_of_forall fun e he _ => ho e he
  exact run_invariant_of_meets step_triggersHeld hm hr hs

/-- A component whose pause a restart renews from the latch stays paused as long as no restart
follows a call that clears the latch. -/
theorem run_paused {Paused : MissionControl → Prop} {own : MissionEvent → Bool}
    (hst : ∀ {s e t}, step s e = some t → own e = false →
      (e.isRestart → s.LatchHeld) → Paused s → Paused t)
    (hru : run step s events = some final) (ho : ∀ e ∈ events, own e = false)
    (hor : events.Pairwise fun pre later =>
      pre.resumes → later.isRestart = false)
    (hl : s.LatchHeld ∨ ∀ e ∈ events, e.isRestart = false) (hs : Paused s) : Paused final := by
  induction events generalizing s with
  | nil =>
    cases hru
    exact hs
  | cons e events ih =>
    obtain ⟨t, ht, hru⟩ := run_cons_eq_some.mp hru
    obtain ⟨hf, hrs⟩ := pairwise_cons.mp hor
    obtain ⟨he, ho⟩ := forall_mem_cons.mp ho
    have hp : Paused t := by
      refine hst ht he (fun hr => ?_) hs
      rcases hl with hl | hn
      · exact hl
      · rw [hn e (mem_cons_self ..)] at hr
        cases hr
    refine ih hru ho hrs ?_ hp
    rcases hl with hl | hn
    · by_cases hre : e.resumes
      · exact .inr fun later hm => hf later hm hre
      · exact .inl (step_latchHeld ht (by simpa using hre) hl)
    · exact .inr fun later hm => hn later (mem_cons_of_mem _ hm)

/-! The pause. -/

theorem andThen_of_ok (h : (andThen fst next).2 = .ok ()) :
    fst.2 = .ok () ∧ andThen fst next = next fst.1 := by
  obtain ⟨svc, err | ⟨⟩⟩ := fst
  · cases h
  · exact ⟨rfl, rfl⟩

/-- A write that succeeds leaves its update in the store, if there is one. -/
theorem writeMeta_of_ok (h : (s.writeMeta saved upd).2 = .ok ()) :
    (s.writeMeta saved upd).1 = { s with agentRunStore := s.agentRunStore.map upd } := by
  obtain ⟨sto, triggersSuspended, routineEngine, eventFabric⟩ := s
  cases sto with
  | none => rfl
  | some sto =>
    cases saved with
    | true => rfl
    | false => cases h

theorem latchHeld_of_ok (h : (s.setMissionControlPaused true latch).2 = .ok ()) :
    (s.setMissionControlPaused true latch).1.LatchHeld := by
  rw [setMissionControlPaused, writeMeta_of_ok h]
  intro sto hs
  obtain ⟨_, -, rfl⟩ := map_eq_some_iff.mp hs
  rfl

theorem triggersHeld_of_ok (h : (s.setTriggersSuspended true reply).2 = .ok ()) :
    (s.setTriggersSuspended true reply).1.TriggersHeld := by
  rw [setTriggersSuspended_true] at h ⊢
  obtain ⟨hw, hf⟩ := andThen_of_ok h
  rw [hf] at h ⊢
  have hfl : ∀ sto ∈ (s.writeMeta reply.flag fun sto =>
      { sto with triggersSuspended := true }).1.agentRunStore,
      sto.triggersSuspended := by
    rw [writeMeta_of_ok hw]
    intro sto hs
    obtain ⟨_, -, rfl⟩ := map_eq_some_iff.mp hs
    rfl
  obtain ⟨hr, hsn⟩ := andThen_of_ok h
  rw [hsn, recordControlEvent, writeMeta_of_ok hr]
  exact ⟨rfl, by simpa using hfl⟩

/-- After the three changes every component is paused and the store says so. -/
theorem pauseComponents_of_ok (h : (s.pauseComponents latch reply).2 = .ok ()) :
    (s.pauseComponents latch reply).1.TriggersHeld ∧ (s.pauseComponents latch reply).1.LatchHeld ∧
      (s.pauseComponents latch reply).1.RoutinesPaused ∧
        (s.pauseComponents latch reply).1.FabricPaused := by
  rw [pauseComponents] at h ⊢
  obtain ⟨hl, hf⟩ := andThen_of_ok h
  rw [hf] at h ⊢
  obtain ⟨hs, hsn⟩ := andThen_of_ok h
  rw [hsn]
  exact ⟨triggersHeld_of_ok hs, (latchHeld_of_ok hl).suspend, rfl, rfl⟩

/-- Each component stays paused over restarts: triggers until their own setter resumes them,
routines and the fabric also until a restart that follows a resumption of any component. -/
theorem mission_control_pause_persists (s : MissionControl) (latch : Bool) (reply : SwitchReply)
    (control : Bool) (events : List MissionEvent) (final : MissionControl)
    (hpaused : (s.pauseComponents latch reply).2 = .ok ())
    (hrun : run step (s.activateMissionControlPause latch reply control).1 events = some final) :
    ((∀ e ∈ events, e.resumesTriggers = false) → final.triggersSuspended = true) ∧
      (events.Pairwise (fun earlier later =>
          earlier.resumes = true → later.isRestart = false) →
        ((∀ e ∈ events, e.resumesRoutines = false) → final.routineEngine.suspended = true) ∧
          ((∀ e ∈ events, e.resumesFabric = false) →
            final.eventFabric.state.connected = false)) := by
  obtain ⟨ht, hla, hr, hf⟩ := pauseComponents_of_ok hpaused
  have hl : (s.activateMissionControlPause latch reply control).1.LatchHeld :=
    andThen_keeps hla fun _ hs => hs.write fun _ h => h
  refine ⟨fun ho => ?_, fun hor => ⟨fun ho => ?_, fun ho => ?_⟩⟩
  · have hh : (s.activateMissionControlPause latch reply control).1.TriggersHeld :=
      andThen_keeps ht fun _ hs => hs.write fun _ h => h
    exact (run_triggersHeld hrun ho hh).1
  · have hh : (s.activateMissionControlPause latch reply control).1.RoutinesPaused :=
      andThen_keeps hr fun _ hs => writeMeta_keeps hs fun _ _ => hs
    exact run_paused step_routines hrun ho hor (.inl hl) hh
  · have hh : (s.activateMissionControlPause latch reply control).1.FabricPaused :=
      andThen_keeps hf fun _ hs => writeMeta_keeps hs fun _ _ => hs
    exact run_paused step_fabric hrun ho hor (.inl hl) hh

/-- A service over an empty database. -/
def stored : MissionControl :=
  { memory with agentRunStore := some { triggersSuspended := false, missionControlPaused := false } }

def switched : SwitchReply := { latch := true, flag := true, control := true }

theorem mission_control_pause_persists_sample : ∃ final,
    run step (stored.activateMissionControlPause true switched true).1
        [.setRoutinesSuspended true true, .restart, .restart] = some final ∧
      final.triggersSuspended = true ∧ final.routineEngine.suspended = true ∧
        final.eventFabric.state.connected = false := by
  have hp : (stored.pauseComponents true switched).2 = .ok () := rfl
  have hru : ∃ final, run step (stored.activateMissionControlPause true switched true).1
      [.setRoutinesSuspended true true, .restart, .restart] = some final := ⟨_, rfl⟩
  obtain ⟨final, hru⟩ := hru
  obtain ⟨ht, ho⟩ := mission_control_pause_persists stored true switched true _ final hp hru
  obtain ⟨hr, hf⟩ := ho (by decide)
  exact ⟨final, hru, ht (by decide), hr (by decide), hf (by decide)⟩

/-- Resuming the triggers clears the latch, and the next restart resumes the routines. -/
theorem resumed_triggers_clear_latch :
    (stored.activateMissionControlPause true switched true).2 = .ok () ∧
      (∀ e ∈ [MissionEvent.setTriggersSuspended false switched, .restart],
        e.resumesRoutines = false) ∧
      ∃ final, run step (stored.activateMissionControlPause true switched true).1
          [.setTriggersSuspended false switched, .restart] = some final ∧
        final.routineEngine.suspended = false :=
  ⟨rfl, by decide, _, rfl, rfl⟩

end MissionControl

end FocalDesk
