import FocalDesk.Connector.Registry
import FocalDesk.Library.ExpiringCache

/-! Replay protection of signed intake, over runs of calls on one registry. -/
namespace FocalDesk
open Library List Option ConnectorRegistryState

/-- A call on the registry. An operation that writes the trust store is given the
outcome of the write. -/
inductive RegistryOperation where
  | verifySigned (request : ConnectorEventRequest) (secret : List UInt8)
  | install (manifest : ConnectorManifest) (overwrite : Bool) (persist : Except String Unit)
  | setEnabled (connectorId : String) (enabled networkAllowed : Bool) (persist : Except String Unit)
  | rollback (connectorId : String) (persist : Except String Unit)

structure RegistryCall where
  now : ℕ
  operation : RegistryOperation

variable {crypto : ConnectorCrypto} {state : ConnectorRegistryState} {call : RegistryCall}
  {calls : List RegistryCall} {request : ConnectorEventRequest} {key : String × String}

namespace RegistryCall

/-- The registry after a call, and the request the call accepted. -/
def perform (crypto : ConnectorCrypto) (state : ConnectorRegistryState) (call : RegistryCall) :
    ConnectorRegistryState × Option ConnectorEventRequest :=
  match call.operation with
  | .verifySigned request secret =>
    match verifySigned crypto call.now request secret state with
    | (state, .ok ()) => (state, some request)
    | (state, .error _) => (state, none)
  | .install manifest overwrite persist => ((state.install manifest overwrite persist).1, none)
  | .setEnabled connectorId enabled networkAllowed persist =>
    ((state.setEnabled connectorId enabled networkAllowed persist).1, none)
  | .rollback connectorId persist => ((state.rollback connectorId persist).1, none)

/-- The request a call presents with a valid form, time and signature. -/
def genuine (crypto : ConnectorCrypto) (state : ConnectorRegistryState) (call : RegistryCall) :
    Option ConnectorEventRequest :=
  match call.operation with
  | .verifySigned request secret =>
    match checkFreshness call.now request,
        checkSignature crypto (sweepNonces call.now state) request secret with
    | .ok (), .ok () => some request
    | _, _ => none
  | _ => none

end RegistryCall

/-- How many calls accept a request with this connector and nonce. -/
def acceptances (crypto : ConnectorCrypto) (key : String × String) :
    ConnectorRegistryState → List RegistryCall → ℕ
  | _, [] => 0
  | state, call :: calls =>
    (if (call.perform crypto state).2.map replayKey = some key then 1 else 0) +
      acceptances crypto key (call.perform crypto state).1 calls

/-- The genuine presentations of a list of calls, with the time of each. -/
def presentations (crypto : ConnectorCrypto) :
    ConnectorRegistryState → List RegistryCall → List (ℕ × ConnectorEventRequest)
  | _, [] => []
  | state, call :: calls =>
    ((call.genuine crypto state).map (call.now, ·)).toList ++
      presentations crypto (call.perform crypto state).1 calls

/-- Calls on a registry that was just opened, under a clock that never goes back. -/
structure RegistryRun where
  start : ConnectorRegistryState
  start_nonces : start.recentNonces = ∅
  calls : List RegistryCall
  clock : calls.Pairwise fun earlier later => earlier.now ≤ later.now

def RegistryRun.ReplayProtected (crypto : ConnectorCrypto) (run : RegistryRun) : Prop :=
  ∀ request : ConnectorEventRequest, acceptances crypto (replayKey request) run.start run.calls ≤ 1

/-! The nonce cache is the expiring cache of the library. -/

/-- What the nonce cache sees of a call: nothing when the request is refused before the sweep. -/
def RegistryCall.visit? (crypto : ConnectorCrypto) (state : ConnectorRegistryState)
    (call : RegistryCall) : Option (Visit (String × String)) :=
  match call.operation with
  | .verifySigned request _ =>
    match checkFreshness call.now request with
    | .ok () => some ⟨call.now, (call.genuine crypto state).map replayKey⟩
    | .error _ => none
  | _ => none

def visits (crypto : ConnectorCrypto) :
    ConnectorRegistryState → List RegistryCall → List (Visit (String × String))
  | _, [] => []
  | state, call :: calls =>
    (call.visit? crypto state).toList ++ visits crypto (call.perform crypto state).1 calls

def nonces (state : ConnectorRegistryState) (key : String × String) : Option ℕ :=
  state.recentNonces[key]?

theorem nonces_sweepNonces (state : ConnectorRegistryState) (now : ℕ) :
    nonces (sweepNonces now state) = sweep signatureWindowSeconds now (nonces state) := by
  funext key
  simp [nonces, sweepNonces, sweep]

theorem install_recentNonces (man : ConnectorManifest) (overwrite : Bool)
    (persist : Except String Unit) :
    (state.install man overwrite persist).1.recentNonces = state.recentNonces := by
  unfold install
  split <;> rfl

theorem setEnabled_recentNonces (cid : String) (enabled networkAllowed : Bool)
    (persist : Except String Unit) :
    (state.setEnabled cid enabled networkAllowed persist).1.recentNonces = state.recentNonces := by
  unfold setEnabled
  split <;> rfl

theorem rollback_recentNonces (cid : String) (persist : Except String Unit) :
    (state.rollback cid persist).1.recentNonces = state.recentNonces := by
  unfold rollback
  split <;> rfl

/-- A call that the cache does not see changes no nonce and accepts nothing. -/
theorem perform_of_visit_none (h : call.visit? crypto state = none) :
    nonces (call.perform crypto state).1 = nonces state ∧
      (call.perform crypto state).2 = none ∧ call.genuine crypto state = none := by
  cases ho : call.operation with
  | verifySigned request sec =>
    cases hf : checkFreshness call.now request with
    | ok u => simp [RegistryCall.visit?, ho, hf] at h
    | error error => simp [RegistryCall.perform, RegistryCall.genuine, verifySigned, ho, hf]
  | install man overwrite persist =>
    refine ⟨?_, by simp [RegistryCall.perform, ho], by simp [RegistryCall.genuine, ho]⟩
    simp [RegistryCall.perform, ho, nonces, funext_iff, install_recentNonces]
  | setEnabled cid enabled networkAllowed persist =>
    refine ⟨?_, by simp [RegistryCall.perform, ho], by simp [RegistryCall.genuine, ho]⟩
    simp [RegistryCall.perform, ho, nonces, funext_iff, setEnabled_recentNonces]
  | rollback cid persist =>
    refine ⟨?_, by simp [RegistryCall.perform, ho], by simp [RegistryCall.genuine, ho]⟩
    simp [RegistryCall.perform, ho, nonces, funext_iff, rollback_recentNonces]

/-- A call that the cache sees is a visit to it. -/
theorem perform_of_visit_some {v : Visit (String × String)} (h : call.visit? crypto state = some v)
    :
    v = ⟨call.now, (call.genuine crypto state).map replayKey⟩ ∧
      nonces (call.perform crypto state).1 = (visit signatureWindowSeconds (nonces state) v).2 ∧
      ∀ key, (call.perform crypto state).2.map replayKey = some key ↔
        v.offer = some key ∧ (visit signatureWindowSeconds (nonces state) v).1 := by
  cases ho : call.operation with
  | verifySigned request sec =>
    cases hf : checkFreshness call.now request with
    | error error => simp [RegistryCall.visit?, ho, hf] at h
    | ok u =>
      obtain rfl : _ = v := by simpa [RegistryCall.visit?, ho, hf] using h
      refine ⟨rfl, ?_⟩
      cases hs : checkSignature crypto (sweepNonces call.now state) request sec with
      | error error =>
        simp [RegistryCall.perform, RegistryCall.genuine, verifySigned, ho, hf, hs, visit,
          nonces_sweepNonces]
      | ok w =>
        have hg : call.genuine crypto state = some request := by
          simp [RegistryCall.genuine, ho, hf, hs]
        have hh : replayKey request ∈ (sweepNonces call.now state).recentNonces ↔
            (sweep signatureWindowSeconds call.now (nonces state) (replayKey request)).isSome := by
          rw [← nonces_sweepNonces, nonces, Std.ExtTreeMap.mem_iff_isSome_getElem?]
        by_cases hin : replayKey request ∈ (sweepNonces call.now state).recentNonces
        · simp [RegistryCall.perform, verifySigned, ho, hf, hs, visit, hg, hin,
            hh.mp hin, nonces_sweepNonces]
        · have hou := mt hh.mpr hin
          refine ⟨?_, by simp [RegistryCall.perform, verifySigned, ho, hf, hs, visit, hg, hin, hou]⟩
          funext k
          simp only [RegistryCall.perform, verifySigned, ho, hf, hs, visit, hg, hin, hou,
            nonces, Std.ExtTreeMap.getElem?_insert, map_some, if_false]
          by_cases hk : replayKey request = k
          · subst hk
            simp
          · have := congrFun (nonces_sweepNonces state call.now) k
            simp [hk, Function.update_of_ne (Ne.symm hk), ← this, nonces]
  | install | setEnabled | rollback => simp [RegistryCall.visit?, ho] at h

theorem acceptances_eq_admissions : acceptances crypto key state calls =
    admissions signatureWindowSeconds key (nonces state) (visits crypto state calls) := by
  induction calls generalizing state with
  | nil => rfl
  | cons call calls ih =>
    cases hv : call.visit? crypto state with
    | none =>
      obtain ⟨hn, hno, -⟩ := perform_of_visit_none hv
      simp [acceptances, visits, hv, ih, hn, hno]
    | some v =>
      obtain ⟨-, hn, ha⟩ := perform_of_visit_some hv
      simp only [acceptances, visits, hv, ih, hn, ha, toList_some,
        singleton_append, admissions]

/-- The offers among the visits are the genuine presentations. -/
theorem visits_offers : (visits crypto state calls).filterMap (fun v => v.offer.map (v.time, ·)) =
    (presentations crypto state calls).map fun p => (p.1, replayKey p.2) := by
  induction calls generalizing state with
  | nil => rfl
  | cons call calls ih =>
    simp only [visits, presentations, filterMap_append, map_append, ih]
    congr 1
    cases hv : call.visit? crypto state with
    | none =>
      obtain ⟨-, -, hg⟩ := perform_of_visit_none hv
      simp [hg]
    | some v =>
      obtain ⟨rfl, -⟩ := perform_of_visit_some hv
      cases call.genuine crypto state <;> simp

theorem visits_times : ((visits crypto state calls).map Visit.time).Sublist
    (calls.map RegistryCall.now) := by
  induction calls generalizing state with
  | nil => exact List.Sublist.slnil
  | cons call calls ih =>
    cases hv : call.visit? crypto state with
    | none => simpa [visits, hv] using ih.cons call.now
    | some v =>
      obtain ⟨rfl, -⟩ := perform_of_visit_some hv
      simpa [visits, hv] using ih

theorem visits_sorted (h : calls.Pairwise fun a b => a.now ≤ b.now) :
    (visits crypto state calls).Pairwise fun v w => v.time ≤ w.time := by
  have hn : (calls.map RegistryCall.now).Pairwise (· ≤ ·) := pairwise_map.mpr h
  exact pairwise_map.mp (hn.sublist visits_times)

/-- Every key is admitted at most once exactly when offers of one key stay close. -/
theorem admissions_le_one_all_iff (h : nonces state = fun _ => none)
    (hc : calls.Pairwise fun a b => a.now ≤ b.now) :
    (∀ key, acceptances crypto key state calls ≤ 1) ↔
      ∀ key, (visits crypto state calls).Pairwise fun v w =>
        v.offer = some key → w.offer = some key → w.time ≤ v.time + signatureWindowSeconds := by
  refine forall_congr' fun key => ?_
  rw [acceptances_eq_admissions]
  exact admissions_le_one_iff (congrFun h key) (visits_sorted hc)

/-- Offers of one key stay close exactly when genuine presentations of it do. -/
theorem offers_close_iff : (∀ key, (visits crypto state calls).Pairwise fun v w =>
      v.offer = some key → w.offer = some key → w.time ≤ v.time + signatureWindowSeconds) ↔
    (presentations crypto state calls).Pairwise fun pre later =>
      replayKey pre.2 = replayKey later.2 → later.1 ≤ pre.1 + signatureWindowSeconds := by
  have hpr : (presentations crypto state calls).Pairwise (fun pre later =>
      replayKey pre.2 = replayKey later.2 → later.1 ≤ pre.1 + signatureWindowSeconds) ↔
      ((visits crypto state calls).filterMap fun v => v.offer.map (v.time, ·)).Pairwise
        fun p q => p.2 = q.2 → q.1 ≤ p.1 + signatureWindowSeconds := by
    rw [visits_offers, pairwise_map]
  rw [hpr, pairwise_filterMap]
  constructor
  · intro h
    rw [pairwise_iff_forall_sublist]
    intro v w hvw p hp q hq hpq
    obtain ⟨k, hk, rfl⟩ := map_eq_some_iff.mp hp
    obtain ⟨j, hj, rfl⟩ := map_eq_some_iff.mp hq
    obtain rfl : k = j := hpq
    exact (h k).forall_sublist hvw hk hj
  · intro h key
    refine h.imp ?_
    intro v w hvw hv hw
    exact hvw (v.time, key) (by simp [hv]) (w.time, key) (by simp [hw]) rfl

theorem acceptances_le_one_iff (h : state.recentNonces = ∅)
    (hc : calls.Pairwise fun a b => a.now ≤ b.now) :
    (∀ key, acceptances crypto key state calls ≤ 1) ↔
      (presentations crypto state calls).Pairwise fun pre later =>
        replayKey pre.2 = replayKey later.2 → later.1 ≤ pre.1 + signatureWindowSeconds := by
  have he : nonces state = fun _ => none := by
    funext key
    simp [nonces, h]
  rw [admissions_le_one_all_iff he hc, offers_close_iff]

/-- A run is free of replays exactly when no connector presents one nonce, genuinely, at two
instants further apart than the time the cache keeps it. -/
theorem replayProtected_iff (crypto : ConnectorCrypto) (run : RegistryRun) :
    run.ReplayProtected crypto ↔
      (presentations crypto run.start run.calls).Pairwise fun earlier later =>
        replayKey earlier.2 = replayKey later.2 → later.1 ≤ earlier.1 + signatureWindowSeconds := by
  have hk : run.ReplayProtected crypto ↔
      ∀ key, acceptances crypto key run.start run.calls ≤ 1 :=
    ⟨fun h key => h ⟨key.1, .desktop, 0, key.2, .null, ""⟩, fun h request => h _⟩
  rw [hk, acceptances_le_one_iff run.start_nonces run.clock]

/-- A fresh event that an enabled external connector signed is a genuine presentation. -/
theorem genuine_signConnectorEvent {cid nonce : String} {src : EventSource}
    {r : ConnectorRecord} {pl : Value} {sec : List UInt8} {now timestampUnix : ℕ}
    (he : enabledRecord state cid src = .ok r)
    (hex : r.manifest.builtIn = false)
    (hf : checkFreshness now
      (signConnectorEvent crypto cid src timestampUnix nonce pl sec) = .ok ()) :
    RegistryCall.genuine crypto state ⟨now, .verifySigned
      (signConnectorEvent crypto cid src timestampUnix nonce pl sec) sec⟩ =
      some (signConnectorEvent crypto cid src timestampUnix nonce pl sec) := by
  have hs : checkSignature crypto (sweepNonces now state)
      (signConnectorEvent crypto cid src timestampUnix nonce pl sec) sec =
        .ok () := checkSignature_signConnectorEvent he hex timestampUnix
  simp only [RegistryCall.genuine, hf, hs]

def deploysManifest : ConnectorManifest :=
  { manifestVersion := 1, id := "deploys", name := "Deploys", description := "", version := "1.0",
    eventSources := [.workflow],
    eventFields := (∅ : BTreeMap EventSource (List String)).insert .workflow ["event"],
    networkDomains := [], signingKeyHandle := some "connectors/deploys/key", runtime := none,
    builtIn := false }

/-- An event dated as far ahead as intake allows at 1000, presented there and again at 1301. -/
def postdatedEvent (crypto : ConnectorCrypto) : ConnectorEventRequest :=
  signConnectorEvent crypto "deploys" .workflow 1300 "0123456789abcdef" .null [1]

def postdatedCalls (crypto : ConnectorCrypto) : List RegistryCall :=
  [⟨1000, .install deploysManifest false (.ok ())⟩,
    ⟨1000, .setEnabled "deploys" true false (.ok ())⟩,
    ⟨1000, .verifySigned (postdatedEvent crypto) [1]⟩,
    ⟨1301, .verifySigned (postdatedEvent crypto) [1]⟩]

theorem presentations_postdatedCalls (crypto : ConnectorCrypto) :
    presentations crypto .memory (postdatedCalls crypto) =
      [(1000, postdatedEvent crypto), (1301, postdatedEvent crypto)] := by
  let opn := ((memory.install deploysManifest false (.ok ())).1.setEnabled
    "deploys" true false (.ok ())).1
  let present (now : ℕ) : RegistryCall := ⟨now, .verifySigned (postdatedEvent crypto) [1]⟩
  have hr : ∃ r, opn.records["deploys"]? = some r ∧ r.enabled ∧
      EventSource.workflow ∈ r.manifest.eventSources ∧ r.manifest.builtIn = false :=
    ⟨_, rfl, by decide, by decide, by decide⟩
  obtain ⟨r, hge, he, hsr, hex⟩ := hr
  have hf (now : ℕ) (hn : now = 1000 ∨ now = 1301) :
      checkFreshness now (postdatedEvent crypto) = .ok () := by
    rw [checkFreshness, bailIf_eq_ok]
    change ¬ (byteLen "0123456789abcdef" < 16 ∨ 128 < byteLen "0123456789abcdef" ∨
      allChars isAsciiAlphanumeric "0123456789abcdef" = false ∨
      signatureWindowSeconds < now - 1300 + (1300 - now))
    rcases hn with rfl | rfl <;> decide
  have hg (state : ConnectorRegistryState) (hs : state.records = opn.records) (now : ℕ)
      (hn : now = 1000 ∨ now = 1301) :
      (present now).genuine crypto state = some (postdatedEvent crypto) :=
    genuine_signConnectorEvent (enabledRecord_eq_ok.mpr ⟨hs ▸ hge, he, hsr⟩) hex (hf now hn)
  have hse : ((present 1000).perform crypto opn).1.records = opn.records := by
    have := verifySigned_records crypto 1000 (postdatedEvent crypto) [1] opn
    simp only [RegistryCall.perform, present]
    split <;> simp_all
  have ho : presentations crypto .memory (postdatedCalls crypto) =
      presentations crypto opn [present 1000, present 1301] := rfl
  rw [ho, presentations, presentations, hg opn rfl 1000 (by simp), hg _ hse 1301 (by simp)]
  rfl

theorem postdated_event_replays : ¬ ∃ crypto : ConnectorCrypto,
    ∀ run : RegistryRun, run.ReplayProtected crypto := by
  rintro ⟨crypto, h⟩
  have hc : (postdatedCalls crypto).Pairwise fun pre later => pre.now ≤ later.now := by
    simp [postdatedCalls]
  have hi : (∀ key, acceptances crypto key .memory (postdatedCalls crypto) ≤ 1) ↔ _ :=
    acceptances_le_one_iff rfl hc
  have hp := hi.mp fun key =>
    h ⟨.memory, rfl, postdatedCalls crypto, hc⟩ ⟨key.1, .desktop, 0, key.2, .null, ""⟩
  rw [presentations_postdatedCalls] at hp
  simp [signatureWindowSeconds] at hp

end FocalDesk
