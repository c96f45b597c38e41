import FocalDesk.Connector.Host

/-! What each access to the host does to the failures, the quarantine and the due time of a
runtime. -/
namespace FocalDesk.Connector
open Library List Option Std.ExtTreeMap Bool ManagedRuntime

variable {host : HostState} {conn : ConnectorStatus} {conns : List ConnectorStatus}
  {id j : String} {now ms : ℕ} {res : Except String ℕ}
  {ch : ConnectorRuntimeStatus → ConnectorRuntimeStatus}

/-! What is seen of a runtime. -/

def failuresOf (runtime : Option ManagedRuntime) : ℕ :=
  ((runtime.bind fun runtime => runtime.status).map fun status => status.consecutiveFailures).getD 0

def quarantinedOf (runtime : Option ManagedRuntime) : Bool :=
  runtime.any ManagedRuntime.quarantined

/-- The runtime is due at any time unless it is quarantined. -/
def readyOf (runtime : Option ManagedRuntime) : Bool :=
  runtime.all fun runtime => runtime.forcePoll ||
    (runtime.status.bind fun status => status.nextRunAtUnix).all fun next => next ≤ 0

def HostState.failures (host : HostState) (id : String) : ℕ := failuresOf host.runtimes[id]?

def HostState.ready (host : HostState) (id : String) : Bool := readyOf host.runtimes[id]?

theorem quarantined_eq (host : HostState) (id : String) :
    host.quarantined id = quarantinedOf host.runtimes[id]? := rfl

theorem getElem?_modifyStatus (host : HostState) (id j : String)
    (ch : ConnectorRuntimeStatus → ConnectorRuntimeStatus) :
    (host.modifyStatus id ch).runtimes[j]? =
      if id = j then
        host.runtimes[j]?.map fun rtm => { rtm with status := rtm.status.map ch }
      else host.runtimes[j]? := by
  simp only [HostState.modifyStatus, Std.ExtTreeMap.getElem?_modify,
    Std.LawfulEqCmp.compare_eq_iff_eq]
  split
  · rename_i hs
    rw [hs]
  · rfl

theorem mem_modifyStatus : j ∈ (host.modifyStatus id ch).runtimes ↔ j ∈ host.runtimes := by
  simp only [HostState.modifyStatus, mem_modify]

theorem failures_modifyStatus
    (h : ∀ status, (ch status).consecutiveFailures = status.consecutiveFailures) :
    (host.modifyStatus id ch).failures j = host.failures j := by
  unfold HostState.failures
  rw [getElem?_modifyStatus]
  split
  · rcases host.runtimes[j]? with _ | ⟨_ | status, seen, force⟩
    · rfl
    · rfl
    · simp [failuresOf, h]
  · rfl

theorem quarantined_modifyStatus (h : ∀ status, (ch status).quarantined = status.quarantined) :
    (host.modifyStatus id ch).quarantined j = host.quarantined j := by
  rw [quarantined_eq, quarantined_eq, getElem?_modifyStatus]
  split
  · rcases host.runtimes[j]? with _ | ⟨_ | status, seen, force⟩
    · rfl
    · rfl
    · simp [quarantinedOf, quarantined, h]
  · rfl

theorem ready_modifyStatus (h : ∀ status, status.nextRunAtUnix.all (fun next => next ≤ 0) →
      (ch status).nextRunAtUnix.all (fun next => next ≤ 0))
    (hr : host.ready j) : (host.modifyStatus id ch).ready j := by
  unfold HostState.ready at hr ⊢
  rw [getElem?_modifyStatus]
  split
  · revert hr
    rcases host.runtimes[j]? with _ | ⟨_ | status, seen, force⟩
    · exact fun h => h
    · exact fun h => h
    · intro hr
      simp only [readyOf, all_some, bind_some, map_some,
        or_eq_true] at hr ⊢
      exact hr.imp_right (h status)
  · exact hr

/-! The requests. -/

theorem getElem?_pollNow (host : HostState) (tgt : Option String) (j : String) :
    (applyControlRequest host (.pollNow tgt)).1.runtimes[j]? =
      host.runtimes[j]?.map fun rtm =>
        if tgt.all (· = j) then pollRuntime rtm else rtm := by
  simp [applyControlRequest, respond, Std.ExtTreeMap.getElem?_map]

theorem failures_pollNow (tgt : Option String) :
    (applyControlRequest host (.pollNow tgt)).1.failures j = host.failures j := by
  unfold HostState.failures
  rw [getElem?_pollNow]
  rcases host.runtimes[j]? with _ | ⟨_ | status, seen, force⟩
  · rfl
  · cases tgt.all (· = j) <;> rfl
  · cases tgt.all (· = j) with
    | false => rfl
    | true => cases hq : status.quarantined <;> simp [failuresOf, pollRuntime, hq]

theorem quarantined_pollNow (tgt : Option String) :
    (applyControlRequest host (.pollNow tgt)).1.quarantined j = host.quarantined j := by
  rw [quarantined_eq, quarantined_eq, getElem?_pollNow]
  rcases host.runtimes[j]? with _ | ⟨_ | status, seen, force⟩
  · rfl
  · cases tgt.all (· = j) <;> rfl
  · cases tgt.all (· = j) with
    | false => rfl
    | true =>
      cases hq : status.quarantined <;>
        simp [quarantinedOf, quarantined, pollRuntime, hq]

/-- A request for a run makes its connector due. -/
theorem ready_pollNow {tgt : Option String} (h : tgt.all (· = j) ∨ host.ready j) :
    (applyControlRequest host (.pollNow tgt)).1.ready j := by
  unfold HostState.ready at h ⊢
  rw [getElem?_pollNow]
  cases ht : tgt.all (· = j) with
  | true => rcases host.runtimes[j]? with _ | rtm <;> simp [readyOf, pollRuntime]
  | false =>
    rw [ht] at h
    simpa using h

theorem clearQuarantine_eq (host : HostState) (id : String) :
    (applyControlRequest host (.clearQuarantine id)).1 = host.modifyStatus id clearedStatus ∨
      id ∉ host.runtimes ∧ (applyControlRequest host (.clearQuarantine id)).1 = host := by
  by_cases hm : id ∈ host.runtimes
  · exact .inl (by simp [applyControlRequest, respond, hm])
  · exact .inr ⟨hm, by simp [applyControlRequest, respond, hm]⟩

theorem failures_clearQuarantine (host : HostState) (id j : String) :
    (applyControlRequest host (.clearQuarantine id)).1.failures j =
      if id = j then 0 else host.failures j := by
  obtain heq | ⟨hn, heq⟩ := clearQuarantine_eq host id
  · rw [heq, HostState.failures, getElem?_modifyStatus]
    split
    · rcases host.runtimes[j]? with _ | ⟨_ | status, seen, force⟩ <;> rfl
    · rfl
  · rw [heq]
    split
    · rename_i hs
      rw [← hs, HostState.failures, Std.ExtTreeMap.getElem?_eq_none hn]
      rfl
    · rfl

theorem quarantined_clearQuarantine (host : HostState) (id j : String) :
    (applyControlRequest host (.clearQuarantine id)).1.quarantined j =
      if id = j then false else host.quarantined j := by
  obtain heq | ⟨hn, heq⟩ := clearQuarantine_eq host id
  · rw [heq, quarantined_eq, getElem?_modifyStatus]
    split
    · rcases host.runtimes[j]? with _ | ⟨_ | status, seen, force⟩ <;> rfl
    · rfl
  · rw [heq]
    split
    · rename_i hs
      rw [← hs, quarantined_eq, Std.ExtTreeMap.getElem?_eq_none hn]
      rfl
    · rfl

theorem ready_clearQuarantine (h : host.ready j) :
    (applyControlRequest host (.clearQuarantine id)).1.ready j := by
  obtain heq | ⟨hn, heq⟩ := clearQuarantine_eq host id
  · rw [heq]
    exact ready_modifyStatus (fun status _ => rfl) h
  · rw [heq]
    exact h

theorem mem_applyControlRequest (host : HostState) (req : ConnectorHostIpcRequest) :
    j ∈ (applyControlRequest host req).1.runtimes ↔ j ∈ host.runtimes := by
  cases req with
  | setPaused paused => rfl
  | pollNow tgt => simp [applyControlRequest, respond]
  | clearQuarantine id =>
    obtain heq | ⟨hn, heq⟩ := clearQuarantine_eq host id
    · rw [heq]
      exact mem_modifyStatus
    · rw [heq]

/-! The registry. -/

/-- The entries of a connector in a refresh. -/
def entriesOf (connectors : List ConnectorStatus) (id : String) : List ConnectorStatus :=
  connectors.filter fun connector => connector.manifest.id = id

/-- The connector is in the refresh and not disabled. -/
def enabledIn (connectors : List ConnectorStatus) (id : String) : Bool :=
  entriesOf connectors id ≠ [] && (entriesOf connectors id).all fun connector => connector.enabled

def reconciled (runtime : Option ManagedRuntime) (connector : ConnectorStatus) :
    Option ManagedRuntime :=
  some (reconcileRuntime connector (runtime.getD .default))

theorem getElem?_foldl_reconcileEntry (conns : List ConnectorStatus)
    (runtimes : BTreeMap String ManagedRuntime) (id : String) :
    (conns.foldl reconcileEntry runtimes)[id]? =
      (entriesOf conns id).foldl reconciled runtimes[id]? := by
  induction conns generalizing runtimes with
  | nil => rfl
  | cons conn conns ih =>
    rw [foldl_cons, ih, reconcileEntry, Std.ExtTreeMap.getElem?_insert]
    by_cases hs : conn.manifest.id = id
    · simp [hs, entriesOf, reconciled]
    · simp [hs, entriesOf]

theorem getElem?_reconcileState (host : HostState) (conns : List ConnectorStatus) (id : String)
    : (reconcileState host conns).runtimes[id]? = (entriesOf conns id).foldl
      reconciled (if entriesOf conns id = [] then none else host.runtimes[id]?) := by
  have hk : id ∈ conns.map (fun conn => conn.manifest.id) ↔
      entriesOf conns id ≠ [] := by
    simp [entriesOf, filter_eq_nil_iff]
  simp only [reconcileState]
  rw [getElem?_foldl_reconcileEntry, getElem?_filter']
  congr 1
  by_cases he : entriesOf conns id = []
  · rw [if_pos he]
    simp [hk, he]
  · rw [if_neg he]
    cases host.runtimes[id]? <;> simp [hk, he]

theorem mem_reconcileState (h : conn ∈ conns) :
    conn.manifest.id ∈ (reconcileState host conns).runtimes := by
  have hm : conn ∈ entriesOf conns conn.manifest.id := by
    simpa [entriesOf] using h
  rw [mem_iff_isSome_getElem?, getElem?_reconcileState]
  obtain ⟨fst, last, heq⟩ := eq_nil_or_concat'
    (entriesOf conns conn.manifest.id) |>.resolve_left (ne_nil_of_mem hm)
  rw [heq, foldl_append]
  rfl

theorem failuresOf_reconciled (rtm : Option ManagedRuntime) (conn : ConnectorStatus) :
    failuresOf (reconciled rtm conn) =
      if conn.enabled then failuresOf rtm else 0 := by
  unfold reconciled reconcileRuntime
  cases he : conn.enabled with
  | false => rfl
  | true =>
    rcases rtm with _ | ⟨_ | status, seen, force⟩
    · simp [failuresOf, ManagedRuntime.statusOf, ManagedRuntime.default, runtimeStatus, he]
    · simp [failuresOf, ManagedRuntime.statusOf, runtimeStatus, he]
    · by_cases hd : status.state = .disabled <;> simp [failuresOf, ManagedRuntime.statusOf, hd]

theorem quarantinedOf_reconciled (rtm : Option ManagedRuntime) (conn : ConnectorStatus) :
    quarantinedOf (reconciled rtm conn) =
      if conn.enabled then quarantinedOf rtm else false := by
  unfold reconciled reconcileRuntime
  cases he : conn.enabled with
  | false => rfl
  | true =>
    rcases rtm with _ | ⟨_ | status, seen, force⟩
    · simp [quarantinedOf, ManagedRuntime.quarantined, ManagedRuntime.statusOf,
        ManagedRuntime.default, runtimeStatus, he]
    · simp [quarantinedOf, ManagedRuntime.quarantined, ManagedRuntime.statusOf, runtimeStatus, he]
    · by_cases hd : status.state = .disabled <;>
        simp [quarantinedOf, ManagedRuntime.quarantined, ManagedRuntime.statusOf, hd]

theorem readyOf_reconciled {rtm : Option ManagedRuntime} (h : readyOf rtm)
    (conn : ConnectorStatus) : readyOf (reconciled rtm conn) := by
  unfold reconciled reconcileRuntime
  cases he : conn.enabled with
  | false => simp [readyOf]
  | true =>
    rcases rtm with _ | ⟨_ | status, seen, force⟩
    · simp [readyOf, ManagedRuntime.statusOf, ManagedRuntime.default, runtimeStatus, he]
    · simp [readyOf, ManagedRuntime.statusOf, runtimeStatus, he]
    · by_cases hd : status.state = .disabled
      · simp [readyOf, ManagedRuntime.statusOf, hd]
      · simpa [readyOf, ManagedRuntime.statusOf, hd] using h

/-- What only a disabled entry resets. -/
theorem foldl_reconciled {α : Type} {seen : Option ManagedRuntime → α} {reset : α}
    (hs : ∀ rtm conn, seen (reconciled rtm conn) =
      if conn.enabled then seen rtm else reset)
    (ents : List ConnectorStatus) (rtm : Option ManagedRuntime) :
    seen (ents.foldl reconciled rtm) =
      if ents.all (fun conn => conn.enabled) then seen rtm else reset := by
  induction ents generalizing rtm with
  | nil => rfl
  | cons conn ents ih =>
    rw [foldl_cons, ih, hs, all_cons]
    cases conn.enabled <;> simp

theorem seen_reconcileState {α : Type} {seen : Option ManagedRuntime → α} {reset : α}
    (hs : ∀ rtm conn, seen (reconciled rtm conn) =
      if conn.enabled then seen rtm else reset) (hn : seen none = reset)
    (host : HostState) (conns : List ConnectorStatus) (id : String) :
    seen (reconcileState host conns).runtimes[id]? =
      if enabledIn conns id then seen host.runtimes[id]? else reset := by
  rw [getElem?_reconcileState, foldl_reconciled hs, enabledIn]
  by_cases he : entriesOf conns id = []
  · simp [he, hn]
  · simp [he]

theorem failures_reconcileState (host : HostState) (conns : List ConnectorStatus) (id : String)
    : (reconcileState host conns).failures id =
      if enabledIn conns id then host.failures id else 0 :=
  seen_reconcileState failuresOf_reconciled rfl host conns id

theorem quarantined_reconcileState (host : HostState) (conns : List ConnectorStatus)
    (id : String) : (reconcileState host conns).quarantined id =
      if enabledIn conns id then host.quarantined id else false :=
  seen_reconcileState quarantinedOf_reconciled rfl host conns id

theorem ready_reconcileState (h : host.ready id) :
    (reconcileState host conns).ready id := by
  unfold HostState.ready at h ⊢
  rw [getElem?_reconcileState]
  have hf : readyOf (if entriesOf conns id = [] then none else host.runtimes[id]?) =
      true := by
    split
    · rfl
    · exact h
  generalize (if entriesOf conns id = [] then none else host.runtimes[id]?) = runtime at hf
  induction entriesOf conns id generalizing runtime with
  | nil => exact hf
  | cons conn ents ih => exact ih _ (readyOf_reconciled hf conn)

/-! The runs. -/

theorem getElem?_finishRun (host : HostState) (conn : ConnectorStatus) (now ms : ℕ)
    (res : Except String ℕ) (j : String) :
    (finishRun host conn now ms res).runtimes[j]? =
      if conn.manifest.id = j then
        some { (host.runtimes[j]?.getD .default) with
          forcePoll := false
          status := some (finishStatus
            ((host.runtimes[j]?.getD .default).statusOf conn) conn now ms res) }
      else host.runtimes[j]? := by
  simp only [finishRun, Std.ExtTreeMap.getElem?_insert, Std.LawfulEqCmp.compare_eq_iff_eq]
  split
  · rename_i hs
    rw [hs]
  · rfl

theorem statusOf_failures (host : HostState) (conn : ConnectorStatus) (j : String) :
    ((host.runtimes[j]?.getD .default).statusOf conn).consecutiveFailures =
      host.failures j := by
  unfold HostState.failures
  rcases host.runtimes[j]? with _ | ⟨_ | status, seen, force⟩ <;> rfl

theorem statusOf_quarantined (host : HostState) (conn : ConnectorStatus) (j : String) :
    ((host.runtimes[j]?.getD .default).statusOf conn).quarantined = host.quarantined j := by
  rw [quarantined_eq]
  rcases host.runtimes[j]? with _ | ⟨_ | status, seen, force⟩ <;> rfl

theorem failures_finishRun : (finishRun host conn now ms res).failures j =
    if conn.manifest.id = j then
      if res.isOk then 0 else min (host.failures j + 1) (2 ^ 32 - 1)
    else host.failures j := by
  unfold HostState.failures
  rw [getElem?_finishRun]
  split
  · cases res with
    | ok dlv => rfl
    | error error =>
      have hs := statusOf_failures host conn j
      simp only [HostState.failures] at hs
      simp [failuresOf, finishStatus, hs, Except.isOk, Except.toBool]
  · rfl

theorem quarantined_finishRun : (finishRun host conn now ms res).quarantined j =
    if conn.manifest.id = j then
      if res.isOk then host.quarantined j
      else decide (quarantineFailures ≤ min (host.failures j + 1) (2 ^ 32 - 1))
    else host.quarantined j := by
  rw [quarantined_eq, getElem?_finishRun]
  split
  · cases res with
    | ok dlv => exact statusOf_quarantined host conn j
    | error error =>
      simp [quarantinedOf, quarantined, finishStatus, statusOf_failures, Except.isOk,
        Except.toBool]
  · rfl

theorem ready_finishRun (ho : conn.manifest.id ≠ j) :
    (finishRun host conn now ms res).ready j = host.ready j := by
  unfold HostState.ready
  rw [getElem?_finishRun, if_neg ho]

theorem mem_finishRun (h : j ∈ host.runtimes) :
    j ∈ (finishRun host conn now ms res).runtimes := by
  simp [finishRun, h]

/-- A connector that is ready and not quarantined is due. -/
theorem due_of_ready (hm : id ∈ host.runtimes) (hr : host.ready id)
    (hh : host.quarantined id = false) (now : ℕ) : host.due id now := by
  obtain ⟨rtm, hru⟩ := exists_getElem?_of_mem hm
  simp only [HostState.ready, HostState.due, HostState.quarantined, hru, readyOf,
    all_some, any_some] at hr hh ⊢
  simp only [due, hh, Bool.not_false, Bool.true_and, or_eq_true]
  rw [or_eq_true] at hr
  refine hr.imp_right fun hn => ?_
  cases hs : rtm.status.bind fun status => status.nextRunAtUnix with
  | none => rfl
  | some next =>
    rw [hs] at hn
    simp only [all_some, decide_eq_true_eq] at hn ⊢
    omega

theorem not_quarantined_of_due (h : host.due id now) : host.quarantined id = false := by
  unfold HostState.due at h
  unfold HostState.quarantined
  cases hr : host.runtimes[id]? with
  | none => rfl
  | some rtm =>
    rw [hr] at h
    simp only [any_some, due, and_eq_true, not_eq_true'] at h ⊢
    exact h.1

end FocalDesk.Connector
