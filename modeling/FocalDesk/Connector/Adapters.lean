import FocalDesk.Connector.Host
import Std.Data.String.ToNat

/-! The adapters that publish what changed: the focus of the desktop and the notifications. -/
namespace FocalDesk.Connector
open Library List

variable {host : HostState} {cid k k' : String}

/-! The keys that a connector remembers. -/

def maxLastSeen : ℕ := 512

def HostState.lastSeen (host : HostState) (connectorId : String) : Std.ExtTreeSet String compare :=
  (host.runtimes[connectorId]?.getD .default).lastSeen

def hasSeen (host : HostState) (connectorId key : String) : Bool :=
  host.runtimes[connectorId]?.any fun runtime => runtime.lastSeen.contains key

/-- The key that makes room for another one. -/
def HostState.oldestSeen (host : HostState) (connectorId : String) : Option String :=
  let seen := host.lastSeen connectorId
  if maxLastSeen ≤ seen.size then seen.min? else none

def remember (host : HostState) (connectorId key : String) : HostState :=
  let runtime := host.runtimes[connectorId]?.getD .default
  let seen := (host.oldestSeen connectorId).elim runtime.lastSeen runtime.lastSeen.erase
  { host with
    runtimes := host.runtimes.insert connectorId { runtime with lastSeen := seen.insert key } }

/-! The focus of the desktop. -/

structure WindowSnapshot where
  id : ℕ
  title : String
  appId : Option String

structure DesktopSnapshot where
  focusedWindowId : Option ℕ
  activeWorkspaceId : ℕ
  windows : List WindowSnapshot

structure DesktopFocus where
  workspaceId : ℕ
  appId : Option String
  windowTitle : Option String
deriving DecidableEq

def DesktopSnapshot.focus (snapshot : DesktopSnapshot) : DesktopFocus :=
  let focused := snapshot.windows.find? fun window => some window.id = snapshot.focusedWindowId
  { workspaceId := snapshot.activeWorkspaceId
    appId := focused.bind fun window => window.appId
    windowTitle := focused.map fun window => window.title }

def DesktopFocus.key (focus : DesktopFocus) : String :=
  focus.workspaceId.repr ++ ":" ++ focus.appId.getD "" ++ ":" ++ focus.windowTitle.getD ""

def stringOrNull (text : Option String) : Value :=
  text.elim .null .string

def DesktopFocus.event (focus : DesktopFocus) : Value :=
  .object [("event", .string "desktop focus changed"), ("app_id", stringOrNull focus.appId),
    ("workspace_id", .number (.posInt focus.workspaceId)),
    ("window_title", stringOrNull focus.windowTitle)]

/-- The host afterwards, and the events that were published. -/
def runDesktopAdapter (host : HostState) (connectorId : String) (snapshot : DesktopSnapshot) :
    HostState × List Value :=
  if hasSeen host connectorId snapshot.focus.key then (host, [])
  else (remember host connectorId snapshot.focus.key, [snapshot.focus.event])

/-! The notifications. -/

structure NotificationSnapshot where
  id : ℕ
  title : String
  body : String
  unread : Bool

def notificationKey (id : ℕ) : String := "notification:" ++ id.repr

def NotificationSnapshot.event (notification : NotificationSnapshot) : Value :=
  .object [("event", .string "notification received"), ("app_id", .string "unknown"),
    ("summary", .string notification.title), ("body", .string notification.body),
    ("urgency", .string "normal")]

/-- What is published of the notifications, each with its id. -/
def publishUnread (connectorId : String) :
    HostState → List NotificationSnapshot → HostState × List (ℕ × Value)
  | host, [] => (host, [])
  | host, notification :: rest =>
    if hasSeen host connectorId (notificationKey notification.id) then
      publishUnread connectorId host rest
    else
      let published := publishUnread connectorId
        (remember host connectorId (notificationKey notification.id)) rest
      (published.1, (notification.id, notification.event) :: published.2)

def runNotificationAdapter (host : HostState) (connectorId : String)
    (notifications : List NotificationSnapshot) : HostState × List (ℕ × Value) :=
  publishUnread connectorId host (notifications.filter fun notification => notification.unread)

/-! The polls, and what each observed and published, the last first. -/

inductive Poll where
  | desktop (snapshot : DesktopSnapshot)
  | notifications (visible : List NotificationSnapshot)

inductive Observed where
  | desktop (focus : DesktopFocus) (published : List Value)
  | notifications (visible : List NotificationSnapshot) (published : List (ℕ × Value))

structure Adapters where
  host : HostState
  log : List Observed

def desktopEvents : String := "desktop-events"

def notificationEvents : String := "notifications"

def poll (s : Adapters) : Poll → Option Adapters
  | .desktop snapshot =>
    let ran := runDesktopAdapter s.host desktopEvents snapshot
    some ⟨ran.1, .desktop snapshot.focus ran.2 :: s.log⟩
  | .notifications visible =>
    let ran := runNotificationAdapter s.host notificationEvents visible
    some ⟨ran.1, .notifications visible ran.2 :: s.log⟩

/-- The focus at the last poll of the desktop. -/
def lastFocus : List Observed → Option DesktopFocus
  | [] => none
  | .desktop focus _ :: _ => some focus
  | .notifications _ _ :: log => lastFocus log

/-- Each poll of the desktop published a focus that was not the last one, and nothing else. -/
def FocusOnce : List Observed → Prop
  | [] => True
  | .desktop focus published :: log =>
    published = (if lastFocus log = some focus then [] else [focus.event]) ∧ FocusOnce log
  | .notifications _ _ :: log => FocusOnce log

def visibleAt (id : ℕ) (visible : List NotificationSnapshot) : Bool :=
  visible.any fun notification => notification.id = id

def unreadAt (id : ℕ) (visible : List NotificationSnapshot) : Bool :=
  visible.any fun notification => notification.id = id && notification.unread

def sentAt (id : ℕ) (published : List (ℕ × Value)) : ℕ :=
  (published.map Prod.fst).count id

/-- How often the notification was published since it stays visible. -/
def sent (id : ℕ) : List Observed → ℕ
  | [] => 0
  | .desktop _ _ :: log => sent id log
  | .notifications visible published :: log =>
    if visibleAt id visible then sentAt id published + sent id log else 0

/-- Whether the notification was unread since it stays visible. -/
def wasUnread (id : ℕ) : List Observed → Bool
  | [] => false
  | .desktop _ _ :: log => wasUnread id log
  | .notifications visible _ :: log =>
    visibleAt id visible && (unreadAt id visible || wasUnread id log)

def everVisible (id : ℕ) : List Observed → Bool
  | [] => false
  | .desktop _ _ :: log => everVisible id log
  | .notifications visible _ :: log => visibleAt id visible || everVisible id log

/-- Whether the notification was visible already, before it became visible again. -/
def wasVisible (id : ℕ) : List Observed → Bool
  | [] => false
  | .desktop _ _ :: log => wasVisible id log
  | .notifications visible _ :: log =>
    if visibleAt id visible then wasVisible id log else everVisible id log

/-- A notification is published at most once while it stays visible, and once if it was unread
and had not been visible before. -/
def SentOnce (log : List Observed) : Prop :=
  ∀ id, sent id log ≤ 1 ∧
    (wasVisible id log = false → sent id log = if wasUnread id log then 1 else 0)

/-! What the adapters need. -/

/-- No notification in sight has its key forgotten. -/
def spares (connectorId : String) (visible : List NotificationSnapshot) :
    HostState → List NotificationSnapshot → Bool
  | _, [] => true
  | host, notification :: rest =>
    if hasSeen host connectorId (notificationKey notification.id) then
      spares connectorId visible host rest
    else
      ((host.oldestSeen connectorId).all fun oldest =>
        visible.all fun other => notificationKey other.id ≠ oldest) &&
      spares connectorId visible (remember host connectorId (notificationKey notification.id)) rest

/-- A focus that is not the last one has no remembered key, and the notifications in sight are
spared. -/
def unforgotten (s : Adapters) : Poll → Bool
  | .desktop snapshot =>
    lastFocus s.log = some snapshot.focus || !hasSeen s.host desktopEvents snapshot.focus.key
  | .notifications visible =>
    spares notificationEvents visible s.host
      (visible.filter fun notification => notification.unread)

/-! What is remembered. -/

theorem hasSeen_eq (host : HostState) (cid key : String) :
    hasSeen host cid key = (host.lastSeen cid).contains key := by
  unfold hasSeen HostState.lastSeen
  cases host.runtimes[cid]? with
  | none => simp [ManagedRuntime.default]
  | some rtm => rfl

theorem lastSeen_remember (host : HostState) (cid key : String) :
    (remember host cid key).lastSeen cid =
      ((host.oldestSeen cid).elim (host.lastSeen cid)
        (host.lastSeen cid).erase).insert key := by
  simp [remember, HostState.lastSeen]

theorem hasSeen_remember_self (host : HostState) (cid key : String) :
    hasSeen (remember host cid key) cid key := by
  rw [hasSeen_eq, lastSeen_remember]
  exact Std.ExtTreeSet.contains_insert_self

theorem hasSeen_remember_other {c : String} (h : cid ≠ c) :
    hasSeen (remember host cid k) c k' = hasSeen host c k' := by
  simp [hasSeen, remember, Std.ExtTreeMap.getElem?_insert, h]

theorem hasSeen_of_remember (h : hasSeen (remember host cid k) cid k') :
    k' = k ∨ hasSeen host cid k' := by
  rw [hasSeen_eq, lastSeen_remember, Std.ExtTreeSet.contains_insert, Bool.or_eq_true] at h
  obtain h | h := h
  · simp only [beq_iff_eq, Std.LawfulEqCmp.compare_eq_iff_eq] at h
    exact .inl h.symm
  · rw [hasSeen_eq]
    revert h
    cases host.oldestSeen cid with
    | none => exact .inr
    | some oldest =>
      intro h
      rw [Option.elim_some, Std.ExtTreeSet.contains_erase, Bool.and_eq_true] at h
      exact .inr h.2

theorem hasSeen_remember (h : hasSeen host cid k')
    (hs : host.oldestSeen cid ≠ some k') :
    hasSeen (remember host cid k) cid k' := by
  rw [hasSeen_eq] at h
  rw [hasSeen_eq, lastSeen_remember, Std.ExtTreeSet.contains_insert, Bool.or_eq_true]
  refine .inr ?_
  revert hs
  cases host.oldestSeen cid with
  | none => exact fun _ => h
  | some oldest =>
    intro hs
    rw [Option.elim_some, Std.ExtTreeSet.contains_erase, h, Bool.and_true]
    simpa using fun hsa => hs (congrArg some hsa)

theorem notificationKey_inj {i j : ℕ} (h : notificationKey i = notificationKey j) : i = j := by
  unfold notificationKey at h
  rw [String.append_right_inj] at h
  exact Nat.repr_injective h

/-! What a poll of the notifications does. -/

section Notifications
variable {vis rest : List NotificationSnapshot} {id : ℕ}

theorem publishUnread_other {c : String} (h : cid ≠ c) (host : HostState)
    (rest : List NotificationSnapshot) (key : String) :
    hasSeen (publishUnread cid host rest).1 c key = hasSeen host c key := by
  induction rest generalizing host with
  | nil => rfl
  | cons note rest ih =>
    simp only [publishUnread]
    split
    · exact ih host
    · rw [ih, hasSeen_remember_other h]

/-- Only what was remembered or is unread is remembered afterwards. -/
theorem hasSeen_of_publishUnread
    (h : hasSeen (publishUnread cid host rest).1 cid (notificationKey id)) :
    hasSeen host cid (notificationKey id) ∨ ∃ note ∈ rest, note.id = id := by
  induction rest generalizing host with
  | nil => exact .inl h
  | cons note rest ih =>
    simp only [publishUnread] at h
    split at h
    · exact (ih h).imp_right fun ⟨other, ho, hid⟩ => ⟨other, mem_cons_of_mem _ ho, hid⟩
    · obtain hs | ⟨other, ho, hid⟩ := ih h
      · obtain hk | hs := hasSeen_of_remember hs
        · exact .inr ⟨note, mem_cons_self, (notificationKey_inj hk).symm⟩
        · exact .inl hs
      · exact .inr ⟨other, mem_cons_of_mem _ ho, hid⟩

theorem spared_remember {note : NotificationSnapshot}
    (hs : ((host.oldestSeen cid).all fun oldest =>
      vis.all fun other => notificationKey other.id ≠ oldest))
    (hv : visibleAt id vis)
    (h : hasSeen host cid (notificationKey id)) :
    hasSeen (remember host cid (notificationKey note.id)) cid
      (notificationKey id) := by
  refine hasSeen_remember h fun ho => ?_
  rw [ho, Option.all_some, all_eq_true] at hs
  obtain ⟨other, hot, hid⟩ := any_eq_true.mp hv
  have hne := of_decide_eq_true (hs other hot)
  rw [of_decide_eq_true hid] at hne
  exact hne rfl

/-- What is in sight stays remembered. -/
theorem hasSeen_publishUnread (hs : spares cid vis host rest) (hv : visibleAt id vis)
    (h : hasSeen host cid (notificationKey id)) :
    hasSeen (publishUnread cid host rest).1 cid (notificationKey id) := by
  induction rest generalizing host with
  | nil => exact h
  | cons note rest ih =>
    simp only [publishUnread]
    simp only [spares] at hs
    split at hs
    · rename_i hse
      rw [if_pos hse]
      exact ih hs h
    · rename_i hn
      rw [Bool.and_eq_true] at hs
      rw [if_neg hn]
      exact ih hs.2 (spared_remember hs.1 hv h)

/-- What is unread is published unless it was remembered, and is remembered afterwards. -/
theorem sentAt_publishUnread (hs : spares cid vis host rest)
    (hr : ∀ note ∈ rest, visibleAt note.id vis) (id : ℕ) :
    sentAt id (publishUnread cid host rest).2 =
      (if (∃ note ∈ rest, note.id = id) ∧
          hasSeen host cid (notificationKey id) = false then 1 else 0) ∧
      ((∃ note ∈ rest, note.id = id) →
        hasSeen (publishUnread cid host rest).1 cid (notificationKey id) =
          true) := by
  induction rest generalizing host with
  | nil => simp [publishUnread, sentAt]
  | cons note rest ih =>
    obtain ⟨hf, hr⟩ := forall_mem_cons.mp hr
    simp only [publishUnread]
    simp only [spares] at hs
    split at hs
    · rename_i hse
      obtain ⟨hsn, hk⟩ := ih hs hr
      rw [if_pos hse, hsn]
      constructor
      · by_cases hid : note.id = id
        · subst hid
          simp [hse]
        · simp [hid]
      · intro hm
        by_cases hid : note.id = id
        · subst hid
          exact hasSeen_publishUnread hs hf hse
        · exact hk (by simpa [hid] using hm)
    · rename_i hne
      rw [Bool.and_eq_true] at hs
      obtain ⟨hsn, hk⟩ := ih hs.2 hr
      rw [if_neg hne]
      have hn : sentAt id ((note.id, note.event) ::
          (publishUnread cid (remember host cid
            (notificationKey note.id)) rest).2) =
          (if note.id = id then 1 else 0) + sentAt id (publishUnread cid
            (remember host cid (notificationKey note.id)) rest).2 := by
        by_cases hid : note.id = id
        · simp [sentAt, hid, Nat.add_comm]
        · simp [sentAt, hid]
      by_cases hid : note.id = id
      · subst hid
        have hsl := hasSeen_remember_self host cid (notificationKey note.id)
        rw [hn, hsn]
        refine ⟨by simp [hsl, hne], fun _ => ?_⟩
        exact hasSeen_publishUnread hs.2 hf hsl
      · rw [hn, hsn]
        refine ⟨?_, fun hm => hk (by simpa [hid] using hm)⟩
        rw [if_neg hid, Nat.zero_add]
        by_cases hm : ∃ other ∈ rest, other.id = id
        · obtain ⟨other, ho, rfl⟩ := hm
          have hsa : hasSeen (remember host cid (notificationKey note.id))
              cid (notificationKey other.id) =
              hasSeen host cid (notificationKey other.id) := by
            cases hse : hasSeen host cid (notificationKey other.id) with
            | true => exact spared_remember hs.1 (hr other ho) hse
            | false =>
              rw [Bool.eq_false_iff] at hse ⊢
              intro hbad
              obtain hke | hbad := hasSeen_of_remember hbad
              · exact hid (notificationKey_inj hke).symm
              · exact hse hbad
          simp only [hsa, exists_mem_cons_iff, hid, false_or]
        · simp [hm, hid]

end Notifications

/-! The runs. -/

theorem everVisible_of_wasVisible {id : ℕ} {log : List Observed} (h : wasVisible id log) :
    everVisible id log := by
  induction log with
  | nil => cases h
  | cons obs log ih =>
    cases obs with
    | desktop focus published => exact ih h
    | notifications visible published =>
      simp only [wasVisible] at h
      simp only [everVisible, Bool.or_eq_true]
      split at h
      · exact .inr (ih h)
      · exact .inr h

theorem everVisible_of_sent {id : ℕ} {log : List Observed} (h : 0 < sent id log) :
    everVisible id log := by
  induction log with
  | nil => cases h
  | cons obs log ih =>
    cases obs with
    | desktop focus published => exact ih h
    | notifications visible published =>
      simp only [sent] at h
      simp only [everVisible, Bool.or_eq_true]
      split at h
      · rename_i hv
        exact .inl hv
      · cases h

/-- What the adapters published is what they remember. -/
structure Remembers (s : Adapters) : Prop where
  focus : ∀ focus, lastFocus s.log = some focus → hasSeen s.host desktopEvents focus.key = true
  kept : ∀ id, 0 < sent id s.log → hasSeen s.host notificationEvents (notificationKey id) = true
  published : ∀ id, hasSeen s.host notificationEvents (notificationKey id) = true →
    0 < sent id s.log ∨ wasVisible id s.log = true
  focusOnce : FocusOnce s.log
  sentOnce : SentOnce s.log

def Adapters.started : Adapters := ⟨.default, []⟩

theorem remembers_started : Remembers .started := by
  refine ⟨fun _ h => ?_, fun _ h => ?_, fun id h => ?_, trivial, fun _ => ⟨Nat.zero_le _, ?_⟩⟩
  · cases h
  · cases h
  · simp [Adapters.started, HostState.default, hasSeen] at h
  · exact fun _ => rfl

theorem remembers_desktop {s : Adapters} {snap : DesktopSnapshot} (h : Remembers s)
    (hok : unforgotten s (.desktop snap)) :
    Remembers ⟨(runDesktopAdapter s.host desktopEvents snap).1,
      .desktop snap.focus (runDesktopAdapter s.host desktopEvents snap).2 :: s.log⟩ := by
  have ho : ∀ key, hasSeen (runDesktopAdapter s.host desktopEvents snap).1
      notificationEvents key = hasSeen s.host notificationEvents key := by
    intro key
    unfold runDesktopAdapter
    split
    · rfl
    · exact hasSeen_remember_other (by decide)
  refine ⟨fun focus hf => ?_, fun id hid => ?_, fun id hid => ?_, ⟨?_, h.focusOnce⟩, h.sentOnce⟩
  · cases hf
    unfold runDesktopAdapter
    split
    · rename_i hs
      exact hs
    · exact hasSeen_remember_self _ _ _
  · rw [ho]
    exact h.kept id hid
  · rw [ho] at hid
    exact h.published id hid
  · unfold runDesktopAdapter
    by_cases hl : lastFocus s.log = some snap.focus
    · rw [if_pos (h.focus _ hl), if_pos hl]
    · simp only [unforgotten, hl, decide_false, Bool.false_or, Bool.not_eq_true'] at hok
      rw [if_neg (by simp [hok]), if_neg hl]

theorem remembers_notifications {s : Adapters} {visible : List NotificationSnapshot}
    (h : Remembers s) (hok : unforgotten s (.notifications visible)) :
    Remembers ⟨(runNotificationAdapter s.host notificationEvents visible).1,
      .notifications visible (runNotificationAdapter s.host notificationEvents visible).2 ::
        s.log⟩ := by
  have hu : ∀ id, (∃ note ∈ visible.filter (fun note => note.unread),
      note.id = id) ↔ unreadAt id visible := by
    intro id
    simp only [unreadAt, any_eq_true, mem_filter, Bool.and_eq_true, decide_eq_true_eq]
    exact exists_congr fun _ => ⟨fun ⟨⟨hmem, hu⟩, hid⟩ => ⟨hmem, hid, hu⟩,
      fun ⟨hmem, hid, hu⟩ => ⟨⟨hmem, hu⟩, hid⟩⟩
  have hv : ∀ note ∈ visible.filter (fun note => note.unread),
      visibleAt note.id visible := by
    intro note hmem
    exact any_eq_true.mpr ⟨note, (mem_filter.mp hmem).1, decide_eq_true rfl⟩
  have hp := sentAt_publishUnread hok hv
  refine ⟨fun focus hf => ?_, fun id hid => ?_, fun id hid => ?_, h.focusOnce, fun id => ?_⟩
  · refine (publishUnread_other (by decide) _ _ _).trans (h.focus focus hf)
  · simp only [sent] at hid
    split at hid
    · rename_i hsi
      by_cases hold : 0 < sent id s.log
      · exact hasSeen_publishUnread hok hsi (h.kept id hold)
      · have hs : 0 < sentAt id (publishUnread notificationEvents s.host
            (visible.filter fun note => note.unread)).2 := by
          simp only [runNotificationAdapter] at hid
          omega
        rw [(hp id).1] at hs
        refine (hp id).2 ?_
        by_contra hnt
        rw [if_neg fun hb => hnt hb.1] at hs
        cases hs
    · cases hid
  · simp only [sent, wasVisible]
    obtain hse | hmem := hasSeen_of_publishUnread hid
    · obtain hold | hold := h.published id hse
      · split
        · exact .inl (by omega)
        · exact .inr (everVisible_of_sent hold)
      · split
        · exact .inr hold
        · exact .inr (everVisible_of_wasVisible hold)
    · obtain ⟨note, hmem, rfl⟩ := hmem
      rw [if_pos (hv note hmem), if_pos (hv note hmem)]
      cases hse : hasSeen s.host notificationEvents (notificationKey note.id) with
      | true => exact (h.published _ hse).imp_left fun hold => by omega
      | false =>
        have hs := (hp note.id).1
        rw [if_pos ⟨⟨note, hmem, rfl⟩, hse⟩] at hs
        refine .inl ?_
        simp only [runNotificationAdapter, hs]
        omega
  · by_cases hsi : visibleAt id visible
    · obtain ⟨ha, ho⟩ := h.sentOnce id
      have hw : ∀ published, wasUnread id (.notifications visible published :: s.log) =
          (unreadAt id visible || wasUnread id s.log) := by
        simp [wasUnread, hsi]
      simp only [hw, sent, wasVisible, hsi, if_true, runNotificationAdapter, (hp id).1, hu]
      cases hse : hasSeen s.host notificationEvents (notificationKey id) with
      | true =>
        rw [if_neg (by simp), Nat.zero_add]
        refine ⟨ha, fun hn => ?_⟩
        have hs := (h.published id hse).resolve_right (by simp [hn])
        rw [ho hn] at hs ⊢
        cases hpr : wasUnread id s.log with
        | true => simp
        | false =>
          rw [hpr] at hs
          cases hs
      | false =>
        have hno : sent id s.log = 0 := by
          by_contra hs
          rw [h.kept id (Nat.pos_of_ne_zero hs)] at hse
          cases hse
        rw [hno, Nat.add_zero]
        refine ⟨by split <;> omega, fun hn => ?_⟩
        have hold := ho hn
        rw [hno] at hold
        cases hpr : wasUnread id s.log with
        | true =>
          rw [hpr] at hold
          cases hold
        | false => simp
    · rw [Bool.not_eq_true] at hsi
      simp [sent, wasUnread, hsi]

/-- Each change of the focus and each unread notification is published once. -/
theorem adapters_publish_once {polls : List Poll} {s : Adapters}
    (hmeets : Meets poll (fun s p => unforgotten s p = true) .started polls)
    (hrun : run poll .started polls = some s) : FocusOnce s.log ∧ SentOnce s.log := by
  have h : Remembers s := by
    refine run_invariant_of_meets (fun hs hok h => ?_) hmeets hrun remembers_started
    rename_i s p t
    cases p with
    | desktop snap =>
      cases hs
      exact remembers_desktop h hok
    | notifications visible =>
      cases hs
      exact remembers_notifications h hok
  exact ⟨h.focusOnce, h.sentOnce⟩

def focusOf (title : String) : DesktopSnapshot := ⟨some 1, 1, [⟨1, title, some "editor"⟩]⟩

def twoPolls : List Poll :=
  [.desktop (focusOf "notes"), .notifications [⟨7, "Mail", "arrived", true⟩],
    .desktop (focusOf "plan"), .notifications [⟨7, "Mail", "arrived", true⟩]]

/-- Two focuses and one notification that stays visible are published. -/
theorem two_polls_publish_once : ∃ s, run poll .started twoPolls = some s ∧
    lastFocus s.log = some (focusOf "plan").focus ∧ sent 7 s.log = 1 ∧ FocusOnce s.log := by
  have he : (checkedRun poll (fun s p => unforgotten s p = true) .started twoPolls).any
      (fun s => decide (lastFocus s.log = some (focusOf "plan").focus) && sent 7 s.log = 1) =
        true := by decide +kernel
  obtain ⟨hm, s, hr, hs⟩ := exists_run_of_checked he
  simp only [Bool.and_eq_true, decide_eq_true_eq] at hs
  exact ⟨s, hr, hs.1, hs.2, (adapters_publish_once hm hr).1⟩

def publishedCounts : List Observed → List ℕ
  | [] => []
  | .desktop _ published :: log => published.length :: publishedCounts log
  | .notifications _ published :: log => published.length :: publishedCounts log

/-- A focus that comes back is not published. -/
theorem returning_focus_not_published :
    ¬ ∀ (polls : List Poll) (s : Adapters), run poll .started polls = some s → FocusOnce s.log := by
  intro h
  have he : (run poll .started [.desktop (focusOf "notes"), .desktop (focusOf "plan"),
      .desktop (focusOf "notes")]).any (fun s => publishedCounts s.log = [0, 1, 1] &&
        decide (lastFocus s.log.tail = some (focusOf "plan").focus) &&
          decide (lastFocus s.log = some (focusOf "notes").focus)) = true := by decide +kernel
  obtain ⟨s, hr, hs⟩ := exists_run_of_any he
  simp only [Bool.and_eq_true, decide_eq_true_eq] at hs
  obtain ⟨⟨hc, hb⟩, hl⟩ := hs
  have ho := h _ s hr
  rcases hlo : s.log with _ | ⟨_ | ⟨visible, published⟩, log⟩
  · rw [hlo] at hc
    cases hc
  · rename_i focus published
    rw [hlo] at ho hc hb hl
    cases hl
    rw [tail_cons] at hb
    obtain ⟨hp, -⟩ := ho
    rw [hb, if_neg (by decide)] at hp
    rw [hp] at hc
    cases hc
  · rw [hlo] at hc hl hb
    rw [tail_cons] at hb
    simp only [lastFocus] at hl
    rw [hb] at hl
    revert hl
    decide

end FocalDesk.Connector
