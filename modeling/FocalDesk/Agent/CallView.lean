import FocalDesk.Agent.Label

/-! The confirmations and cancellations of a run take the steps of its protocol. -/
namespace FocalDesk
open Library Option Std.ExtTreeMap Observation

variable {cfg : ServiceConfig} {s t : Service} {rid r pl : String} {call : ℕ}

namespace Service

/-! Confirmations. -/

variable {conf : Confirmation} {stage : ConfirmationStage}

theorem setConfirmation_lookup (hca : s.confirmations[call]? = some conf) (c : ℕ) :
    (s.setConfirmation call stage).confirmations[c]? =
      if call = c then some { conf with stage } else s.confirmations[c]? := by
  rw [setConfirmation, getElem?_modify]
  by_cases hc : call = c
  · subst hc
    simp [hca]
  · simp [hc]

theorem endConfirmation_lookup (s : Service) (call c : ℕ) :
    (s.endConfirmation call).confirmations[c]? =
      if call = c then none else s.confirmations[c]? := by
  simp [endConfirmation, getElem?_erase]

theorem setConfirmation_view (hc : s.confirmations[call]? = some conf) (hr : conf.pending.runId = r)
    :
    (s.setConfirmation call stage).view r = (s.view r).confirm call (some stage) :=
  confirmations_view (setConfirmation_lookup hc) fun _ h => some.inj h ▸ hr

theorem setConfirmation_view_of_ne (hc : s.confirmations[call]? = some conf)
    (hr : conf.pending.runId ≠ r) :
    (s.setConfirmation call stage).view r = s.view r :=
  confirmations_view_of_ne (setConfirmation_lookup hc) (fun _ h => some.inj h ▸ hr)
    fun _ h => some.inj (hc.symm.trans h) ▸ hr

theorem endConfirmation_view : (s.endConfirmation call).view r = (s.view r).confirm call none :=
  confirmations_view (endConfirmation_lookup s call) nofun

theorem endConfirmation_view_of_ne (hc : s.confirmations[call]? = some conf)
    (hr : conf.pending.runId ≠ r) :
    (s.endConfirmation call).view r = s.view r :=
  confirmations_view_of_ne (endConfirmation_lookup s call) nofun
    fun _ h => some.inj (hc.symm.trans h) ▸ hr

theorem erasePlan_view {plan : PendingAgentAction}
    (hp : s.pendingAgentActions[pl]? = some plan) :
    ({ s with pendingAgentActions := s.pendingAgentActions.erase pl } : Service).view r =
      if plan.runId = r then { s.view r with plans := (s.view r).plans \ {pl} }
      else s.view r := by
  split
  case isTrue hr =>
    simp only [view, RunView.mk.injEq, true_and, and_true]
    ext id
    by_cases hid : pl = id
    · subst hid
      simp
    · simp [getElem?_erase, hid, Ne.symm hid]
  case isFalse hr =>
    simp only [view, RunView.mk.injEq, true_and, and_true]
    ext id
    by_cases hid : pl = id
    · subst hid
      simp [hp, hr]
    · simp [getElem?_erase, hid]

theorem confirmAgentAction_view {approved : Bool} (hc : call ∉ s.confirmations) :
    RunStep cfg.toolExecutor r (s.view r)
      (label cfg s r (.confirmAgentAction call pl approved))
      ((s.confirmAgentAction call pl approved).view r) := by
  have hn : s.confirmations[call]? = none := by simpa using hc
  unfold confirmAgentAction
  simp only [label]
  cases hp : s.pendingAgentActions[pl]? with
  | none =>
    have hs : (if isPlanId pl = false then s else s) = s := by split <;> rfl
    dsimp only
    rw [hs]
    exact .same
  | some pend =>
    dsimp only
    by_cases hid : isPlanId pl = false
    · rw [if_pos hid, if_neg (by simp [hid])]
      exact .same
    · have hi (c : ℕ) : (s.confirmations.insert call ⟨approved, pend, .taken⟩)[c]? =
          if call = c then some ⟨approved, pend, .taken⟩ else s.confirmations[c]? := by
        simp [getElem?_insert]
      have he := erasePlan_view (r := r) hp
      rw [if_neg hid]
      by_cases hr : pend.runId = r
      · rw [if_pos hr] at he
        rw [if_pos ⟨by simpa using hid, hr⟩]
        have hv := confirmations_view (s := { s with
          pendingAgentActions := s.pendingAgentActions.erase pl }) hi (by rintro _ ⟨⟩; exact hr)
        rw [he] at hv
        rw [hv]
        exact .taken ⟨pend, hp, hr⟩ (by simp [view, inFlight, hn])
      · rw [if_neg hr] at he
        rw [if_neg fun h => hr h.2]
        have hv := confirmations_view_of_ne (s := { s with
          pendingAgentActions := s.pendingAgentActions.erase pl }) hi
            (by rintro _ ⟨⟩; exact hr) (by simp [hn])
        rw [he] at hv
        rw [hv]
        exact .same

/-- A confirmation takes the steps of the protocol of its run. -/
theorem confirmation_view {ev : ConfirmationEvent}
    (hca : s.confirmations[call]? = some conf) (hr : conf.pending.runId = r)
    (h : ConfirmationStep cfg s call conf ev t) :
    RunStep cfg.toolExecutor r (s.view r) (confirmationLabel cfg s conf ev) (t.view r) := by
  have hv : (s.view r).confirming call = some conf.stage := by
    simp [view, inFlight, hca, hr]
  cases h with
  | check h =>
    rw [h] at hv
    rw [setConfirmation_view hca hr]
    refine .moved hv (.check ?_)
    unfold checkedStage
    split
    · exact .inr ⟨_, .inl rfl⟩
    · split
      · exact .inr ⟨_, .inr rfl⟩
      · exact .inl rfl
  | refused h =>
    rw [h] at hv
    rw [setConfirmation_view hca hr]
    exact .moved hv .refused
  | approved h =>
    rw [h] at hv
    rw [setConfirmation_view hca hr]
    exact .moved hv .approved
  | unconfigured h hc =>
    rw [h] at hv
    rw [endConfirmation_view]
    simp only [confirmationLabel, if_pos hc]
    exact .ended hv hc
  | @unauthorized reply err h hl =>
    rw [h] at hv
    rw [setConfirmation_view hca hr]
    have hla : confirmationLabel cfg s conf (.execute reply) = .confirm := by
      simp only [confirmationLabel, hl, ite_self]
    rw [hla]
    exact .moved hv .unauthorized
  | @execute reply h hc hl =>
    rw [h] at hv
    have hla : confirmationLabel cfg s conf (.execute reply) = .confirmedTool := by
      simp [confirmationLabel, hl, hc]
    rw [hla, setConfirmation_view (by exact hca) hr, observe_view, runId, if_pos hr, hr]
    exact .calledConfirmed hv
  | @executed succeeded h =>
    rw [h] at hv
    rw [setConfirmation_view hca hr]
    cases succeeded with
    | true => exact .moved hv .executed
    | false => exact .moved hv .failed
  | resolve h =>
    rw [h] at hv
    rw [endConfirmation_view, hr, settle_view]
    exact .resolved hv

theorem confirmation_view_of_ne {ev : ConfirmationEvent}
    (hc : s.confirmations[call]? = some conf) (hr : conf.pending.runId ≠ r)
    (h : ConfirmationStep cfg s call conf ev t) : t.view r = s.view r := by
  cases h with
  | check => exact setConfirmation_view_of_ne hc hr
  | refused => exact setConfirmation_view_of_ne hc hr
  | approved => exact setConfirmation_view_of_ne hc hr
  | unconfigured => exact endConfirmation_view_of_ne hc hr
  | unauthorized => exact setConfirmation_view_of_ne hc hr
  | execute =>
    rw [setConfirmation_view_of_ne (by exact hc) hr, observe_view, runId, if_neg hr]
  | executed => exact setConfirmation_view_of_ne hc hr
  | resolve =>
    rw [endConfirmation_view_of_ne (by rwa [transition_writesRuns.confirmations]) hr,
      transition_view_of_ne hr]

/-! Cancellations. -/

variable {can : Cancellation}

theorem setCancellation_lookup {stage : CancellationStage}
    (hca : s.cancellations[call]? = some can) (c : ℕ) :
    (s.setCancellation call stage).cancellations[c]? =
      if call = c then some { can with stage } else s.cancellations[c]? := by
  rw [setCancellation, getElem?_modify]
  by_cases hc : call = c
  · subst hc
    simp [hca]
  · simp [hc]

theorem endCancellation_lookup (s : Service) (call c : ℕ) :
    (s.endCancellation call).cancellations[c]? =
      if call = c then none else s.cancellations[c]? := by
  simp [endCancellation, getElem?_erase]

theorem setCancellation_view {stage : CancellationStage}
    (hc : s.cancellations[call]? = some can) (hr : can.runId = r) :
    (s.setCancellation call stage).view r = (s.view r).cancel call (some stage) :=
  cancellations_view (setCancellation_lookup hc) fun _ h => some.inj h ▸ hr

theorem setCancellation_view_of_ne {stage : CancellationStage}
    (hc : s.cancellations[call]? = some can) (hr : can.runId ≠ r) :
    (s.setCancellation call stage).view r = s.view r :=
  cancellations_view_of_ne (setCancellation_lookup hc) (fun _ h => some.inj h ▸ hr)
    fun _ h => some.inj (hc.symm.trans h) ▸ hr

theorem endCancellation_view : (s.endCancellation call).view r = (s.view r).cancel call none :=
  cancellations_view (endCancellation_lookup s call) nofun

theorem endCancellation_view_of_ne (hc : s.cancellations[call]? = some can) (hr : can.runId ≠ r) :
    (s.endCancellation call).view r = s.view r :=
  cancellations_view_of_ne (endCancellation_lookup s call) nofun
    fun _ h => some.inj (hc.symm.trans h) ▸ hr

theorem purgePlans_view : (s.purgePlans rid).view r =
    if rid = r then { s.view r with plans := ∅ } else s.view r := by
  split
  case isTrue hru =>
    simp only [view, purgePlans, RunView.mk.injEq, true_and, and_true]
    ext id
    simp [filter_eq_some_iff, hru]
  case isFalse hru =>
    simp only [view, purgePlans, RunView.mk.injEq, true_and, and_true]
    ext id
    simp only [getElem?_filter', filter_eq_some_iff, Set.mem_ofPred_eq]
    constructor
    · rintro ⟨plan, ⟨hp, -⟩, hr⟩
      exact ⟨plan, hp, hr⟩
    · rintro ⟨plan, hp, hr⟩
      exact ⟨plan, ⟨hp, by simp [hr, Ne.symm hru]⟩, hr⟩

theorem sends_iff_of_sender (h : s.agentCancellations[r]?.isSome) (hid : isPlanId r)
    : s.Sends r ↔ s.hasReceiver r := by
  simp [Sends, h, hid]

theorem hasReceiver_iff : s.hasReceiver r ↔
    ∃ stage, (s.view r).stage = some stage ∧ stage ≠ .returned := by
  unfold hasReceiver
  cases he : s.executions[r]? with
  | none => simp [view, he]
  | some exec =>
    obtain ⟨req, lid, ress, stage⟩ := exec
    cases stage <;> simp [view, he]

theorem cancelAgentRun_view (hc : call ∉ s.cancellations) :
    RunStep cfg.toolExecutor r (s.view r) (label cfg s r (.cancelAgentRun call rid))
      ((s.cancelAgentRun call rid).view r) := by
  have hn : s.cancellations[call]? = none := by simpa using hc
  have hi (c : ℕ) : (s.cancellations.insert call ⟨rid, .absent⟩)[c]? =
      if call = c then some ⟨rid, .absent⟩ else s.cancellations[c]? := by
    simp [getElem?_insert]
  unfold cancelAgentRun
  simp only [label]
  by_cases hid : isPlanId rid = false
  · rw [if_pos hid, if_neg (by simp [Sends, hid])]
    exact .same
  rw [if_neg hid]
  cases hs : s.agentCancellations[rid]? with
  | none =>
    dsimp only
    rw [if_neg (by simp [Sends, hs])]
    by_cases hru : rid = r
    · subst hru
      rw [cancellations_view hi (by rintro _ ⟨⟩; rfl)]
      exact .absent hs (by simp [view, inFlight, hn])
    · rw [cancellations_view_of_ne hi (by rintro _ ⟨⟩; exact hru) (by simp [hn])]
      exact .same
  | some v =>
    dsimp only
    have hse := sends_iff_of_sender (s := s) (r := rid) (by simp [hs]) (by simpa using hid)
    by_cases hr : s.hasReceiver rid
    · rw [if_pos hr]
      by_cases hru : rid = r
      · subst hru
        have hv : ({ s with
            agentCancellations := s.agentCancellations.insert rid true } : Service).view rid =
              { s.view rid with sender := some true } := by
          simp [view]
        rw [if_pos ⟨rfl, hse.mpr hr⟩, observe_view, runId, if_pos rfl, hv]
        exact .sent (by simp [view, hs]) ((hasReceiver_iff).mp hr)
      · have hv : ({ s with
            agentCancellations := s.agentCancellations.insert rid true } : Service).view r =
              s.view r := by
          simp [view, getElem?_insert, hru]
        rw [if_neg fun h => hru h.1, observe_view, runId, if_neg hru, hv]
        exact .same
    · rw [if_neg hr, if_neg fun h => hr (hse.mp h.2), observe_view,
        runId]
      split
      case isTrue hru =>
        rw [hru]
        exact .unreceived
      case isFalse => exact .same

/-- A cancellation takes the steps of the protocol of its run. -/
theorem cancellation_view {ev : CancellationEvent}
    (hs : s.Keyed) (hc : s.cancellations[call]? = some can)
    (hr : can.runId = r) (h : CancellationStep s call can ev t) :
    RunStep cfg.toolExecutor r (s.view r) (cancellationLabel s can ev) (t.view r) := by
  have hv : (s.view r).cancelling call = some can.stage := by
    simp [view, inFlight, hc, hr]
  cases h with
  | awaiting h hst =>
    rw [h] at hv
    rw [hr] at hst
    rw [setCancellation_view hc hr]
    exact .lookedAwaiting hv hst
  | notAwaiting h hst =>
    rw [h] at hv
    rw [hr] at hst
    rw [observe_view, runId, if_pos hr, endCancellation_view, hr]
    exact .looked hv hst
  | purge h =>
    rw [h] at hv
    rw [setCancellation_view (by exact hc) hr, purgePlans_view, if_pos hr]
    exact .purged hv
  | settled h hok =>
    rw [h] at hv
    rw [settle_ok_iff hs] at hok
    simp only [cancellationLabel, if_pos hok]
    rw [observe_view, runId, if_pos hr, endCancellation_view, hr, settle_view]
    exact .cancelSettled hv
  | failed h he =>
    rw [h] at hv
    have hok := mt (settle_ok_iff hs).mpr (by rw [he]; rintro ⟨⟩)
    simp only [cancellationLabel, if_neg hok]
    rw [endCancellation_view, hr, settle_view]
    exact .cancelFailed hv

theorem cancellation_view_of_ne {ev : CancellationEvent}
    (hc : s.cancellations[call]? = some can) (hr : can.runId ≠ r)
    (h : CancellationStep s call can ev t) : t.view r = s.view r := by
  cases h with
  | awaiting => exact setCancellation_view_of_ne hc hr
  | notAwaiting =>
    rw [observe_view, runId, if_neg hr, endCancellation_view_of_ne hc hr]
  | purge =>
    rw [setCancellation_view_of_ne (by exact hc) hr, purgePlans_view, if_neg hr]
  | settled =>
    rw [observe_view, runId, if_neg hr,
      endCancellation_view_of_ne (by rwa [transition_writesRuns.cancellations]) hr,
      transition_view_of_ne hr]
  | failed =>
    rw [endCancellation_view_of_ne (by rwa [transition_writesRuns.cancellations]) hr,
      transition_view_of_ne hr]

end Service

end FocalDesk
