import FocalDesk.Session.Frame

/-! Whose password ends a lock: generations, threads and what they answer. -/
namespace FocalDesk.Session
open Library List DesktopState

/-- The counter has not come round: no two of its values are the same number. -/
theorem ofNat_inj {m n : ℕ} (hm : m < 2 ^ 64) (hn : n < 2 ^ 64)
    (h : UInt64.ofNat m = UInt64.ofNat n) : m = n := by
  have hmo : m % 2 ^ 64 = n % 2 ^ 64 := by
    simpa using congrArg UInt64.toNat h
  rwa [Nat.mod_eq_of_lt hm, Nat.mod_eq_of_lt hn] at hmo

namespace World

variable {world next : World} {ev : Event} {evs : List Event}

/-- `generation` is the value the counter had after a number of counts, and with the last of
them comes `p`. -/
def Counted (desktop : DesktopState) (generation : UInt64) (p : Prop) : Prop :=
  ∃ g, g ≤ desktop.generations ∧ generation = UInt64.ofNat g ∧ (g = desktop.generations → p)

/-- A thread with the current generation has a password of the current lock, an answer with
the current generation was given for such a password, and so was what the pulse shows. -/
structure LockInv (desktop : DesktopState) (workers : List Worker) (accepted : List ℕ) : Prop where
  generation : desktop.lockAuthGeneration = UInt64.ofNat desktop.generations
  workers : ∀ worker ∈ workers, Counted desktop worker.generation (worker.lock = desktop.locks)
  received : ∀ generation, (generation, true) ∈ desktop.lockAuthRx →
    Counted desktop generation (desktop.locks ∈ accepted)
  pulse : ∀ at_, desktop.lockScreen.pulse = some ⟨.accepted, at_⟩ → desktop.locks ∈ accepted

section

variable {s t : DesktopState} {workers : List Worker} {acc : List ℕ} {generation : UInt64}
  {p q : Prop}

theorem Counted.of_same (h : Counted s generation p) (hg : t.generations = s.generations)
    : Counted t generation p := by
  unfold Counted at *
  rw [hg]
  exact h

/-- With a new count, no older generation is the current one. -/
theorem Counted.succ (h : Counted s generation p) (hge : t.generations = s.generations + 1)
    : Counted t generation q := by
  obtain ⟨g, hle, hg, -⟩ := h
  exact ⟨g, by omega, hg, fun heq => by omega⟩

theorem LockInv.congr (h : LockInv s workers acc)
    (hge : t.lockAuthGeneration = s.lockAuthGeneration) (hr : t.lockAuthRx = s.lockAuthRx)
    (hl : t.locks = s.locks) (hg : t.generations = s.generations)
    (hp : ∀ at_, t.lockScreen.pulse = some ⟨.accepted, at_⟩ → s.locks ∈ acc) :
    LockInv t workers acc where
  generation := by
    rw [hge, hg]
    exact h.generation
  workers := by
    intro wk hw
    rw [hl]
    exact (h.workers wk hw).of_same hg
  received := by
    intro generation hm
    rw [hr] at hm
    rw [hl]
    exact (h.received generation hm).of_same hg
  pulse := by
    intro at_ hs
    rw [hl]
    exact hp at_ hs

theorem LockInv.of_same (h : LockInv s workers acc) (hs : s.SameSession t) :
    LockInv t workers acc :=
  h.congr hs.generation hs.received hs.locks hs.generations fun at_ hsh =>
    h.pulse at_ (by rwa [hs.lockScreen] at hsh)

/-- A new generation leaves the threads and the answers from before behind. -/
theorem LockInv.succ (h : LockInv s workers acc)
    (hge : t.lockAuthGeneration = s.lockAuthGeneration + 1) (hr : t.lockAuthRx = s.lockAuthRx)
    (hg : t.generations = s.generations + 1)
    (hp : ∀ at_, t.lockScreen.pulse = some ⟨.accepted, at_⟩ → t.locks ∈ acc) :
    LockInv t workers acc where
  generation := by
    rw [hge, hg, h.generation]
    exact (UInt64.ofNat_add _ 1).symm
  workers := fun wk hw => (h.workers wk hw).succ hg
  received := by
    intro generation hm
    rw [hr] at hm
    exact (h.received generation hm).succ hg
  pulse := hp

theorem LockInv.lockSession (h : LockInv s workers acc) :
    LockInv s.lockSession workers acc :=
  h.succ rfl rfl (lockSession_generations s) (by rintro at_ ⟨⟩)

end

variable {f : LockScreenState → LockScreenState}

theorem LockInv.onLockScreen (h : LockInv world.desktop world.workers world.accepted)
    (hf : ∀ screen, (f screen).pulse = screen.pulse) :
    LockInv (world.onLockScreen f).desktop (world.onLockScreen f).workers
      (world.onLockScreen f).accepted := by
  unfold World.onLockScreen
  split_ifs
  · exact h.congr rfl rfl rfl rfl fun at_ hs =>
      h.pulse at_ ((hf world.desktop.lockScreen).symm.trans hs)
  · exact h

theorem LockInv.onPassword (h : LockInv world.desktop world.workers world.accepted)
    (hf : ∀ screen, (f screen).pulse = screen.pulse) :
    LockInv (world.onPassword f).desktop (world.onPassword f).workers
      (world.onPassword f).accepted := by
  unfold World.onPassword
  split_ifs
  · exact h.onLockScreen hf
  · exact h

/-- What a submission counts: a generation, and no lock. -/
theorem submitted_counts (desk : DesktopState) (screen : LockScreenState) :
    let after : DesktopState := { desk with
      lockScreen := screen
      lockAuthGeneration := desk.lockAuthGeneration + 1
      effects := desk.effects ++ [.passwordSubmitted] }
    after.locks = desk.locks ∧ after.generations = desk.generations + 1 := by
  simp [locks, generations, Effect.newGeneration]

theorem LockInv.submit (h : LockInv world.desktop world.workers world.accepted) (spn : Bool) :
    LockInv (world.submit spn).desktop (world.submit spn).workers (world.submit spn).accepted := by
  unfold World.submit
  rcases submitLockPassword_cases world.desktop spn world.now with
    ⟨screen, ha, -, hp, hn⟩ | ⟨screen, ha, -, -, hp, hw⟩
  · simp only [ha, hn]
    refine h.congr rfl rfl rfl rfl fun at_ hs => ?_
    rcases hp with rfl | hp
    · exact h.pulse at_ hs
    · cases hp.symm.trans hs
  · obtain ⟨hl, hg⟩ := submitted_counts world.desktop screen
    simp only [ha]
    have hold := h.succ (t := { world.desktop with
        lockScreen := screen
        lockAuthGeneration := world.desktop.lockAuthGeneration + 1
        effects := world.desktop.effects ++ [.passwordSubmitted] }) rfl rfl hg
      (by
        intro at_ hs
        rw [hl]
        rcases hp with hp | hp
        · exact h.pulse at_ (hp.symm.trans hs)
        · cases hp.symm.trans hs)
    rcases hw with hw | ⟨pw, hw⟩
    · simp only [hw]
      exact hold
    · simp only [hw]
      refine ⟨hold.generation, fun wk hm => ?_, hold.received, hold.pulse⟩
      rcases mem_append.mp hm with hm | hm
      · exact hold.workers wk hm
      · cases mem_singleton.mp hm
        exact ⟨_, le_rfl, hold.generation, fun _ => hl.symm⟩

theorem LockInv.workerReturns (h : LockInv world.desktop world.workers world.accepted) {wk : Worker}
    {i : ℕ} (hw : world.workers[i]? = some wk) (authenticated : Bool) :
    LockInv (world.workerReturns wk i authenticated).desktop
      (world.workerReturns wk i authenticated).workers
      (world.workerReturns wk i authenticated).accepted := by
  have hg : ∀ n, n ∈ world.accepted →
      n ∈ if authenticated then world.accepted ++ [wk.lock] else world.accepted := by
    intro n hn
    split_ifs
    · exact mem_append_left _ hn
    · exact hn
  refine ⟨h.generation, fun other ho => ?_, fun generation hm => ?_, fun at_ hs => ?_⟩
  · exact h.workers other (mem_of_mem_eraseIdx ho)
  · rcases mem_append.mp hm with hm | hm
    · obtain ⟨g, hle, hge, hl⟩ := h.received generation hm
      exact ⟨g, hle, hge, fun heq => hg _ (hl heq)⟩
    · cases mem_singleton.mp hm
      obtain ⟨g, hle, hge, hl⟩ := h.workers wk (mem_of_getElem? hw)
      refine ⟨g, hle, hge, fun heq => ?_⟩
      show world.desktop.locks ∈ world.accepted ++ [wk.lock]
      rw [← hl heq]
      exact mem_append_right _ (mem_singleton_self _)
  · exact hg _ (h.pulse at_ hs)

/-! The results that are waiting when the timers run. -/

variable {s : DesktopState} {workers : List Worker} {acc : List ℕ}

theorem LockInv.receive (hb : s.generations < 2 ^ 64) (h : LockInv s workers acc)
    {res : UInt64 × Bool} (hr : res ∈ s.lockAuthRx) (now : ℕ) :
    LockInv (s.receiveLockResult res now) workers acc := by
  unfold receiveLockResult
  split_ifs with hs ht
  · exact h
  · refine h.congr rfl rfl rfl rfl fun _ _ => ?_
    obtain ⟨generation, authenticated⟩ := res
    dsimp only at ht hs
    subst ht
    obtain ⟨g, hle, hg, hl⟩ := h.received generation hr
    have hc : UInt64.ofNat g = UInt64.ofNat s.generations := by
      rw [← hg, ← h.generation]
      by_contra hne
      exact hs (.inl hne)
    exact hl (ofNat_inj (lt_of_le_of_lt hle hb) hb hc)
  · exact h.congr rfl rfl rfl rfl (by rintro at_ ⟨⟩)

theorem LockInv.receiveAll (hb : s.generations < 2 ^ 64) (h : LockInv s workers acc)
    {ress : List (UInt64 × Bool)} (hr : ∀ res ∈ ress, res ∈ s.lockAuthRx) (now : ℕ)
    : LockInv (s.receiveLockResults ress now) workers acc := by
  induction ress generalizing s with
  | nil => exact h
  | cons res ress ih =>
    obtain ⟨screen, hon, -⟩ := receiveLockResult_eq s res now
    refine ih (s := s.receiveLockResult res now) ?_
      (h.receive hb (hr res mem_cons_self) now) fun other ho => ?_
    · rw [hon]
      exact hb
    · rw [hon]
      exact hr other (mem_cons_of_mem _ ho)

theorem LockInv.processLockTimers (hb : s.generations < 2 ^ 64) (h : LockInv s workers acc)
    (now : ℕ) :
    LockInv (s.processLockTimers now) workers acc ∧
      (s.lockScreen.active → (s.processLockTimers now).lockScreen.active = false →
        s.locks ∈ acc) := by
  obtain ⟨screen, hs, hk⟩ := receiveLockResults_eq s s.lockAuthRx now
  have hal := h.receiveAll hb (fun res hm => hm) now
  rcases processLockTimers_cases s now with
    ⟨hi, ha⟩ | ⟨hac, recv, hre, hd⟩
  · rw [ha]
    exact ⟨h, fun hac => by rw [hi] at hac; cases hac⟩
  have hr : LockInv recv workers acc := by
    rw [hre]
    exact ⟨hal.generation, hal.workers, fun _ hm => (not_mem_nil hm).elim, hal.pulse⟩
  have hl : recv.locks = s.locks := by
    rw [hre, hs]
    rfl
  rcases hd with ⟨hdu, ha⟩ | ⟨-, ha⟩
  · have hacc : recv.locks ∈ acc := by
      unfold unlockDue at hdu
      obtain ⟨⟨kind, at_⟩, hp, hki⟩ := (Option.any_eq_true _ _).mp hdu
      simp only [Bool.and_eq_true, decide_eq_true_eq] at hki
      obtain ⟨rfl, -⟩ := hki
      exact hr.pulse at_ hp
    rw [ha]
    refine ⟨?_, fun _ _ => hl ▸ hacc⟩
    refine LockInv.of_same ?_ (same_finishUnlock recv now)
    exact hr.congr rfl rfl rfl rfl (by rintro at_ ⟨⟩)
  · rw [ha]
    refine ⟨hr, fun _ hu => ?_⟩
    rw [hre, hs] at hu
    rw [show screen.active = false from hu, hac] at hk
    cases hk

theorem LockInv.dispatch (h : LockInv s workers acc) (action : PowerIpcRequest) (ctx : PowerContext)
    (act : PowerActionInteraction) (auth : Option PowerAuthorization) (now : ℕ) :
    LockInv (s.dispatchPowerAction action ctx act auth now) workers acc ∧
      (s.lockScreen.active →
        (s.dispatchPowerAction action ctx act auth now).lockScreen.active) := by
  have hp : LockInv (s.beforeDispatch action act now) workers acc ∧
      (s.lockScreen.active → (s.beforeDispatch action act now).lockScreen.active) := by
    unfold beforeDispatch
    by_cases hsu : action = .suspend
    · rw [if_pos hsu]
      exact ⟨h.lockSession.congr rfl rfl rfl rfl (by rintro at_ ⟨⟩), fun _ => rfl⟩
    · rw [if_neg hsu]
      exact ⟨h, fun ha => ha⟩
  rcases same_dispatchPowerAction s action ctx act auth now with
    hs | ⟨ha, msg, haf⟩
  · refine ⟨hp.1.congr hs.generation hs.received hs.locks hs.generations
      fun at_ hsh => hp.1.pulse at_ ?_, fun ha => ?_⟩
    · rwa [hs.lockScreen] at hsh
    · rw [hs.lockScreen]
      exact hp.2 ha
  · rw [haf]
    exact ⟨hp.1.congr rfl rfl rfl rfl fun at_ hsh => hp.1.pulse at_ hsh, fun _ => ha⟩

theorem LockInv.handleSessionSuspend (h : LockInv s workers acc) (now : ℕ) :
    LockInv (s.handleSessionSuspend now) workers acc ∧
      (s.lockScreen.active → (s.handleSessionSuspend now).lockScreen.active) := by
  unfold DesktopState.handleSessionSuspend
  dsimp only
  generalize (UnattendedSuspendState.prepareForSleep s.unattendedSuspendState now).2 = remembered
  have hf : LockInv { s with unattendedSuspendState := remembered } workers acc :=
    h.congr rfl rfl rfl rfl h.pulse
  split_ifs
  · exact ⟨hf.lockSession, fun _ => rfl⟩
  · exact ⟨hf, fun ha => ha⟩

/-- A step keeps the invariant, and when it ends a lock, a thread has answered true for a
password of that lock. -/
theorem lockInv_step (hst : world.step ev = some next)
    (hb : ev = .processLockTimers → world.desktop.generations < 2 ^ 64)
    (h : LockInv world.desktop world.workers world.accepted) :
    LockInv next.desktop next.workers next.accepted ∧
      (world.desktop.lockScreen.active → next.desktop.lockScreen.active = false →
        ev = .processLockTimers ∧ world.desktop.locks ∈ world.accepted) := by
  have hs : ∀ {t : DesktopState}, t.lockScreen.active →
      t.lockScreen.active = false → ev = .processLockTimers ∧
        world.desktop.locks ∈ world.accepted := by
    intro t ha hu
    rw [ha] at hu
    cases hu
  have hsc : ∀ f : LockScreenState → LockScreenState,
      (∀ screen, (f screen).active = screen.active) → world.desktop.lockScreen.active →
        (world.onLockScreen f).desktop.lockScreen.active := by
    intro f hf ha
    rw [World.onLockScreen, if_pos ha]
    exact (hf _).trans ha
  have hp : ∀ f : LockScreenState → LockScreenState,
      (∀ screen, (f screen).active = screen.active) → world.desktop.lockScreen.active →
        (world.onPassword f).desktop.lockScreen.active := by
    intro f hf ha
    unfold World.onPassword
    split_ifs
    · exact hsc f hf ha
    · exact ha
  cases ev with
  | advance nanoseconds =>
    cases hst
    exact ⟨h, hs⟩
  | lockSession =>
    cases hst
    exact ⟨h.lockSession, fun _ hu => by cases hu⟩
  | dispatchPowerAction action text act auth =>
    cases hst
    obtain ⟨hi, ha⟩ := h.dispatch action ⟨text, world.requests⟩ act auth world.now
    exact ⟨hi, fun hl hu => hs (ha hl) hu⟩
  | requestHdrSafeLogout =>
    cases hst
    have hsa := same_requestHdrSafeLogout world.desktop world.now
    exact ⟨h.of_same hsa, fun hl hu =>
      hs hl ((congrArg LockScreenState.active hsa.lockScreen).symm.trans hu)⟩
  | handleSessionSuspend =>
    cases hst
    obtain ⟨hi, ha⟩ := h.handleSessionSuspend world.now
    exact ⟨hi, fun hl hu => hs (ha hl) hu⟩
  | handleSessionResume =>
    cases hst
    have hsa := same_handleSessionResume world.desktop
    have hfo : LockInv { world.desktop with unattendedSuspendState := none } world.workers
        world.accepted := h.congr rfl rfl rfl rfl h.pulse
    refine ⟨hfo.of_same hsa, fun hl hu => ?_⟩
    exact hs hl ((congrArg LockScreenState.active hsa.lockScreen).symm.trans hu)
  | pushChar ch =>
    cases hst
    exact ⟨h.onPassword fun _ => rfl, fun hl => hs (hp _ (fun _ => rfl) hl)⟩
  | backspace =>
    cases hst
    exact ⟨h.onPassword fun _ => rfl, fun hl => hs (hp _ (fun _ => rfl) hl)⟩
  | escape =>
    cases hst
    exact ⟨h.onPassword fun _ => rfl, fun hl => hs (hp _ (fun _ => rfl) hl)⟩
  | togglePasswordVisibility =>
    cases hst
    exact ⟨h.onLockScreen fun _ => rfl, fun hl => hs (hsc _ (fun _ => rfl) hl)⟩
  | submitLockPassword spn =>
    cases hst
    refine ⟨h.submit spn, fun hl hu => ?_⟩
    change (world.desktop.submitLockPassword spn world.now).1.lockScreen.active = false at hu
    rcases submitLockPassword_cases world.desktop spn world.now with
      ⟨screen, haf, hk, -, -⟩ | ⟨screen, haf, -, ha, -, -⟩
    · rw [haf] at hu
      exact hs (hk.trans hl) hu
    · rw [haf] at hu
      exact hs ha hu
  | workerReturns i authenticated =>
    obtain ⟨wk, hw, rfl⟩ := Option.map_eq_some_iff.mp hst
    exact ⟨h.workerReturns hw authenticated, hs⟩
  | processLockTimers =>
    cases hst
    obtain ⟨hi, he⟩ := h.processLockTimers (hb rfl) world.now
    exact ⟨hi, fun hl hu => ⟨rfl, he hl hu⟩⟩
  | processHdrSafeSessionAction =>
    cases hst
    have hsa := same_processHdrSafeSessionAction world.desktop world.now
    exact ⟨h.of_same hsa, fun hl hu =>
      hs hl ((congrArg LockScreenState.active hsa.lockScreen).symm.trans hu)⟩
  | output id outputEvent =>
    cases hst
    exact ⟨h.of_same (same_mapOutput world.desktop id
      (OutputEvent.apply · outputEvent)), hs⟩

end World

end FocalDesk.Session
