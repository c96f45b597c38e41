import FocalDesk.Calendar.Accounts
import FocalDesk.Library.Transition
import Mathlib.Logic.Equiv.List

/-! When the registry of calendar accounts loses nothing. -/
namespace FocalDesk.Calendar
open Library List Function

variable {codec : AccountsCodec} {disk next : Disk} {accounts accs : List CalendarAccount}
  {account : CalendarAccount} {request req : Request} {saved : List Request} {id : String}

/-- Whether an account is disconnected after a request, if it was before. -/
def Request.decides (id : String) (was : Bool) : Request → Bool
  | .connect account => if account.id = id then false else was
  | .disconnect accountId => if accountId = id then true else was
  | .updatePreferences .. => was

/-- The account was disconnected and not connected again since. -/
def disconnected (id : String) (saved : List Request) : Bool :=
  saved.foldl (Request.decides id) false

/-- The last request about an account. -/
def latest (id : String) (saved : List Request) : Option Request :=
  (saved.filter fun request => request.accountId = id).getLast?

/-- The accounts show every request that was saved: its account is there once, disabled if it is
disconnected, and as it was connected if that came last. -/
structure Shows (accounts : List CalendarAccount) (saved : List Request) : Prop where
  once : ∀ request ∈ saved,
    (accounts.filter fun account => account.id = request.accountId).length = 1
  disabled : ∀ id, disconnected id saved = true → ∀ account ∈ accounts, account.id = id →
    account.enabled = false
  connected : ∀ account, latest account.id saved = some (.connect account) → account ∈ accounts

theorem disconnected_append : disconnected id (saved ++ [req]) =
    req.decides id (disconnected id saved) := by
  simp [disconnected]

theorem disconnected_append_of_ne (hid : req.accountId ≠ id) :
    disconnected id (saved ++ [req]) = disconnected id saved := by
  rw [disconnected_append]
  cases req with
  | connect account => exact if_neg hid
  | disconnect acc => exact if_neg hid
  | updatePreferences => rfl

theorem latest_append_self : latest req.accountId (saved ++ [req]) = some req := by
  simp [latest]

theorem latest_append_of_ne (hid : req.accountId ≠ id) :
    latest id (saved ++ [req]) = latest id saved := by
  simp [latest, hid]

theorem filter_savedAccounts_of_ne (hid : account.id ≠ id) :
    (savedAccounts accs account).filter (fun item => item.id = id) =
      accs.filter fun item => item.id = id := by
  rw [savedAccounts, filter_append, filter_filter]
  have ho : [account].filter (fun item => item.id = id) = [] := by simp [hid]
  rw [ho, append_nil]
  refine filter_congr fun item _ => ?_
  by_cases hi : item.id = id
  · simp [hi, hid.symm]
  · simp [hi]

theorem filter_savedAccounts_self :
    (savedAccounts accs account).filter (fun item => item.id = account.id) = [account] := by
  rw [savedAccounts, filter_append, filter_filter]
  simp

theorem mem_savedAccounts_of_ne {item : CalendarAccount} (hi : item ∈ accs)
    (hid : item.id ≠ account.id) : item ∈ savedAccounts accs account :=
  mem_append_left _ (mem_filter.mpr ⟨hi, by simpa using hid⟩)

/-- One more request is saved, with an account that fits it. -/
theorem Shows.save (h : Shows accs saved) (hid : account.id = req.accountId)
    (hc : ∀ conn, req = .connect conn → account = conn)
    (hd : disconnected req.accountId (saved ++ [req]) →
      account.enabled = false) : Shows (savedAccounts accs account) (saved ++ [req]) := by
  constructor
  · intro other ho
    by_cases hs : account.id = other.accountId
    · rw [← hs, filter_savedAccounts_self]
      rfl
    · rw [filter_savedAccounts_of_ne hs]
      rcases mem_append.mp ho with hold | hn
      · exact h.once other hold
      · rw [mem_singleton.mp hn] at hs
        exact absurd hid hs
  · intro id hg item hit hi
    rcases mem_append.mp hit with hold | hn
    · obtain ⟨hm, hne⟩ := mem_filter.mp hold
      have ho : req.accountId ≠ id := by
        rw [← hid, ← hi]
        simpa using Ne.symm (of_decide_eq_true hne)
      rw [disconnected_append_of_ne ho] at hg
      exact h.disabled id hg item hm hi
    · obtain rfl := mem_singleton.mp hn
      refine hd ?_
      rw [← hid, hi]
      exact hg
  · intro conn hl
    by_cases hs : req.accountId = conn.id
    · rw [← hs, latest_append_self, Option.some.injEq] at hl
      rw [← hc conn hl]
      exact mem_append_right _ mem_cons_self
    · rw [latest_append_of_ne hs] at hl
      refine mem_savedAccounts_of_ne (h.connected conn hl) ?_
      rw [hid]
      exact Ne.symm hs

/-! ### The file -/

namespace Disk

/-- The names are of different inodes, and new ones are free. -/
structure Sound (disk : Disk) : Prop where
  apart : ∀ inode ∈ disk.registry, disk.temporary ≠ some inode
  registry : ∀ inode ∈ disk.registry, inode < disk.inodes
  temporary : ∀ inode ∈ disk.temporary, inode < disk.inodes

theorem accounts_of_load (h : disk.loadCalendarAccounts codec = .ok accs) :
    disk.accounts codec = some accs := by
  unfold loadCalendarAccounts at h
  unfold Disk.accounts
  cases hi : disk.registry with
  | none =>
    rw [hi] at h
    cases h
    rfl
  | some inode =>
    rw [hi] at h
    simp only [bind_eq_ok, bailIf_eq_ok, not_not] at h
    obtain ⟨-, -, doc, hde, -, hv, hd⟩ := h
    cases hd
    dsimp only
    rw [toOption_eq_some.mpr hde, Option.bind_some, if_pos hv]

/-- The registry is the same file with the same bytes. -/
theorem accounts_congr (hr : next.registry = disk.registry)
    (hc : ∀ inode ∈ disk.registry, next.contents inode = disk.contents inode) :
    next.accounts codec = disk.accounts codec := by
  unfold Disk.accounts
  rw [hr]
  cases hi : disk.registry with
  | none => rfl
  | some inode =>
    dsimp only
    rw [hc inode hi]

theorem Sound.create (h : disk.Sound) : disk.create.1.Sound := by
  unfold Disk.create
  split
  next => exact ⟨h.apart, h.registry, h.temporary⟩
  next =>
    refine ⟨fun inode hi => ?_, fun inode hi => ?_, ?_⟩
    · have hlt := h.registry inode hi
      rintro heq
      exact hlt.ne (Option.some.inj heq).symm
    · exact (h.registry inode hi).trans (Nat.lt_succ_self _)
    · rintro inode ⟨⟩
      exact Nat.lt_succ_self _

theorem Sound.accounts_create (h : disk.Sound) :
    disk.create.1.accounts codec = disk.accounts codec := by
  unfold Disk.create
  split
  next inode ht =>
    refine accounts_congr rfl fun reg hr => update_of_ne ?_ _ _
    rintro rfl
    exact h.apart reg hr ht
  next =>
    refine accounts_congr rfl fun reg hr => update_of_ne ?_ _ _
    exact (h.registry reg hr).ne

theorem Sound.write (h : disk.Sound) {inode off : ℕ} {bytes : List UInt8} :
    (disk.write inode off bytes).Sound := ⟨h.apart, h.registry, h.temporary⟩

theorem accounts_write {inode off : ℕ} {bytes : List UInt8}
    (hi : disk.registry ≠ some inode) :
    (disk.write inode off bytes).accounts codec = disk.accounts codec := by
  refine accounts_congr rfl fun reg hr => update_of_ne ?_ _ _
  rintro rfl
  exact hi hr

theorem Sound.rename (h : disk.Sound) (hr : disk.rename = some next) : next.Sound := by
  obtain ⟨inode, ht, rfl⟩ := Option.map_eq_some_iff.mp hr
  refine ⟨?_, ?_, ?_⟩
  · rintro _ _ ⟨⟩
  · rintro _ ⟨⟩
    exact h.temporary inode ht
  · rintro _ ⟨⟩

theorem accounts_rename (hr : disk.rename = some next)
    (hw : disk.temporary.map disk.contents = some (codec.encode accs)) :
    next.accounts codec = some accs := by
  obtain ⟨inode, ht, rfl⟩ := Option.map_eq_some_iff.mp hr
  rw [ht, Option.map_some, Option.some.injEq] at hw
  unfold Disk.accounts
  dsimp only
  rw [hw, codec.decode_encode]
  rfl

end Disk

/-! ### The calls -/

/-- The account that a call is going to save. -/
def Phase.copy : Phase → Option CalendarAccount
  | .chosen account | .loaded _ account => some account
  | .writing writer => some writer.account
  | _ => none

/-- The copy of a call is of its account, and is disabled if the account is disconnected once the
call is saved. -/
def FitsSaved (saved : List Request) (request : Request) (account : CalendarAccount) : Prop :=
  account.id = request.accountId ∧
    (∀ connected, request = .connect connected → account = connected) ∧
      (disconnected request.accountId (saved ++ [request]) = true → account.enabled = false)

structure Call.Faithful (saved : List Request) (call : Call) : Prop where
  copy : ∀ account ∈ call.phase.copy, FitsSaved saved call.request account
  returned : call.ok = true → call.request ∈ saved

namespace AccountRegistry

variable {s t : AccountRegistry} {caller : Caller} {ph : Phase}

def writer (s : AccountRegistry) (caller : Caller) : Option Writer :=
  match getKey caller s.calls with
  | some ⟨_, .writing writer⟩ => some writer
  | _ => none

/-- No call writes through its handle to a file that is the registry by then, and a call renames
a temporary file with its own document, over a registry that still holds what it loaded. -/
def KeepsRegistry (codec : AccountsCodec) (s : AccountRegistry) : RegistryStep → Prop
  | .write caller _ => ∀ writer ∈ s.writer caller, s.disk.registry ≠ some writer.inode
  | .rename caller => ∀ writer ∈ s.writer caller,
      s.disk.temporary.map s.disk.contents = some (writer.bytes codec) ∧
        s.disk.accounts codec = some writer.accounts
  | _ => True

/-- The file parses and shows what was saved, and every call is about to save what fits. -/
structure Kept (codec : AccountsCodec) (s : AccountRegistry) : Prop where
  sound : s.disk.Sound
  shows : ∃ accounts, s.disk.accounts codec = some accounts ∧ Shows accounts s.saved
  calls : ∀ caller call, getKey caller s.calls = some call →
    caller.makes call.request = true ∧ call.Faithful s.saved

theorem put_calls_self :
    getKey caller (s.put caller req ph).calls = some ⟨req, ph⟩ := getKey_putKey_self

theorem put_calls_of_ne {other : Caller} (ho : other ≠ caller) :
    getKey other (s.put caller req ph).calls = getKey other s.calls :=
  getKey_putKey_of_ne ho

theorem Kept.put (h : Kept codec s) (hm : caller.makes req)
    (hf : Call.Faithful s.saved ⟨req, ph⟩) :
    Kept codec (s.put caller req ph) := by
  refine ⟨h.sound, h.shows, fun other call hc => ?_⟩
  by_cases ho : other = caller
  · subst ho
    rw [put_calls_self] at hc
    cases hc
    exact ⟨hm, hf⟩
  · rw [put_calls_of_ne ho] at hc
    exact h.calls other call hc

theorem Kept.withDisk (h : Kept codec s) (hs : disk.Sound)
    (ha : disk.accounts codec = s.disk.accounts codec) : Kept codec { s with disk } := by
  refine ⟨hs, ?_, h.calls⟩
  obtain ⟨accs, hsh, hso⟩ := h.shows
  exact ⟨accs, ha.trans hsh, hso⟩

theorem faithful_error {err : String} :
    Call.Faithful saved ⟨req, .returned (.error err)⟩ := by
  constructor
  · rintro account ⟨⟩
  · rintro ⟨⟩

theorem faithful_copy (hc : ph.copy = some account) (hf : FitsSaved saved req account)
    : Call.Faithful saved ⟨req, ph⟩ := by
  constructor
  · intro other ho
    rw [Option.mem_def, hc] at ho
    cases ho
    exact hf
  · intro hok
    cases ph with
    | returned => cases hc
    | _ => cases hok

/-- What a request makes of the accounts of the file fits it. -/
theorem fits_prepare (hs : Shows accs saved) (hp : req.prepare accs = .ok account)
    : FitsSaved saved req account := by
  have hfo : ∀ {acc : String} {found : CalendarAccount},
      okOr (accs.find? fun item => item.id = acc) "unknown calendar account" = .ok found →
        found ∈ accs ∧ found.id = acc := fun h => by
    have hf := okOr_eq_ok.mp h
    exact ⟨mem_of_find?_eq_some hf, by simpa using find?_some hf⟩
  cases req with
  | connect conn =>
    cases hp
    refine ⟨rfl, fun _ heq => Request.connect.inj heq, fun hg => ?_⟩
    rw [disconnected_append] at hg
    simp [Request.decides, Request.accountId] at hg
  | disconnect acc =>
    simp only [Request.prepare, bind_eq_ok] at hp
    obtain ⟨found, hf, hd⟩ := hp
    cases hd
    exact ⟨(hfo hf).2, by rintro _ ⟨⟩, fun _ => rfl⟩
  | updatePreferences acc calendarIds reminderMinutes =>
    simp only [Request.prepare, bind_eq_ok] at hp
    obtain ⟨found, hf, -, -, hd⟩ := hp
    cases hd
    obtain ⟨hm, hid⟩ := hfo hf
    refine ⟨hid, by rintro _ ⟨⟩, fun hg => ?_⟩
    rw [disconnected_append] at hg
    exact hs.disabled acc hg found hm hid

theorem load_eq (h : Kept codec s) : ∃ ph,
    s.load codec caller req = s.put caller req ph ∧
      Call.Faithful s.saved ⟨req, ph⟩ := by
  unfold AccountRegistry.load
  split
  next account hok =>
    obtain ⟨accs, hl, hp⟩ := bind_eq_ok.mp hok
    obtain ⟨shown, hs, hsh⟩ := h.shows
    rw [Disk.accounts_of_load hl, Option.some.injEq] at hs
    subst hs
    exact ⟨_, rfl, faithful_copy rfl (fits_prepare hsh hp)⟩
  next => exact ⟨_, rfl, faithful_error⟩

theorem reload_eq (hf : FitsSaved s.saved req account) : ∃ ph,
    s.reload codec caller req account = s.put caller req ph ∧
      Call.Faithful s.saved ⟨req, ph⟩ := by
  unfold AccountRegistry.reload
  split
  next => exact ⟨_, rfl, faithful_copy rfl hf⟩
  next => exact ⟨_, rfl, faithful_error⟩

/-- A call that is saved changes the copies of no other call: only the control thread disconnects,
and it makes one call at a time. -/
theorem faithful_append {other : Request} {call : Call} (h : call.Faithful saved)
    (hc : (∃ conn, other = .connect conn) ∨
      ∃ conn, call.request = .connect conn) : call.Faithful (saved ++ [other]) := by
  refine ⟨fun account hco => ?_, fun hr => mem_append_left _ (h.returned hr)⟩
  obtain ⟨hid, hcn, hd⟩ := h.copy account hco
  refine ⟨hid, hcn, fun hg => hd ?_⟩
  rw [disconnected_append] at hg ⊢
  obtain ⟨conn, rfl⟩ | ⟨conn, hre⟩ := hc
  · rw [disconnected_append] at hg
    revert hg
    cases call.request with
    | connect => simp [Request.decides, Request.accountId]
    | disconnect => simp [Request.decides, Request.accountId]
    | updatePreferences =>
      simp only [Request.decides]
      split_ifs
      · intro hf
        cases hf
      · exact id
  · rw [hre] at hg
    simp [Request.decides, Request.accountId] at hg

theorem faithful_firstPhase (hs : Shows accs saved) :
    Call.Faithful saved ⟨req, req.firstPhase⟩ := by
  cases req with
  | connect account => exact faithful_copy rfl (fits_prepare hs rfl)
  | disconnect =>
    constructor
    · rintro account ⟨⟩
    · rintro ⟨⟩
  | updatePreferences =>
    constructor
    · rintro account ⟨⟩
    · rintro ⟨⟩

theorem mem_writer {wr : Writer}
    (hc : getKey caller s.calls = some ⟨req, .writing wr⟩) :
    wr ∈ s.writer caller := by
  unfold AccountRegistry.writer
  rw [hc]
  rfl

variable {event : RegistryStep}

/-- A step moves one call along and keeps the accounts of the file, or it saves the account of a
call over the accounts that the call loaded. -/
theorem step_cases (h : Kept codec s) (hs : step codec s event = some t)
    (hk : KeepsRegistry codec s event) :
    (∃ disk caller req ph, t = { s with disk }.put caller req ph ∧ disk.Sound ∧
      disk.accounts codec = s.disk.accounts codec ∧ caller.makes req ∧
        Call.Faithful s.saved ⟨req, ph⟩) ∨
      ∃ disk caller req wr, getKey caller s.calls = some ⟨req, .writing wr⟩ ∧
        disk.Sound ∧ s.disk.accounts codec = some wr.accounts ∧
          disk.accounts codec = some (savedAccounts wr.accounts wr.account) ∧
            t = { s with disk, saved := s.saved ++ [req] }.put caller req
              (.returned (.ok ())) := by
  obtain ⟨accs, -, hsh⟩ := h.shows
  cases event with
  | «begin» caller req =>
    simp only [AccountRegistry.step, Option.ite_none_right_eq_some, Bool.and_eq_true] at hs
    obtain ⟨⟨-, hm⟩, hs⟩ := hs
    cases hs
    exact .inl ⟨s.disk, caller, req, _, rfl, h.sound, rfl, hm, faithful_firstPhase hsh⟩
  | load caller =>
    simp only [AccountRegistry.step] at hs
    split at hs
    next req hc =>
      cases hs
      obtain ⟨ph, hp, hf⟩ := load_eq h
      exact .inl ⟨s.disk, caller, req, ph, hp, h.sound, rfl, (h.calls caller _ hc).1, hf⟩
    next => cases hs
  | reload caller =>
    simp only [AccountRegistry.step] at hs
    split at hs
    next req account hc =>
      cases hs
      obtain ⟨hm, hco⟩ := h.calls caller _ hc
      obtain ⟨ph, hp, hf⟩ := reload_eq (hco.copy account rfl)
      exact .inl ⟨s.disk, caller, req, ph, hp, h.sound, rfl, hm, hf⟩
    next => cases hs
  | create caller =>
    simp only [AccountRegistry.step] at hs
    split at hs
    next req accs account hc =>
      cases hs
      obtain ⟨hm, hco⟩ := h.calls caller _ hc
      exact .inl ⟨_, caller, req, _, rfl, h.sound.create, h.sound.accounts_create, hm,
        faithful_copy rfl (hco.copy account rfl)⟩
    next => cases hs
  | write caller count =>
    simp only [AccountRegistry.step] at hs
    split at hs
    next req wr hc =>
      cases hs
      obtain ⟨hm, hco⟩ := h.calls caller _ hc
      exact .inl ⟨_, caller, req, _, rfl, h.sound.write,
        Disk.accounts_write (hk wr (mem_writer hc)), hm,
          faithful_copy rfl (hco.copy wr.account rfl)⟩
    next => cases hs
  | rename caller =>
    simp only [AccountRegistry.step] at hs
    split at hs
    next req wr hc =>
      simp only [Option.ite_none_left_eq_some] at hs
      obtain ⟨-, hs⟩ := hs
      cases hs
      obtain ⟨hm, -⟩ := h.calls caller _ hc
      obtain ⟨hw, hl⟩ := hk wr (mem_writer hc)
      unfold AccountRegistry.rename
      split
      next => exact .inl ⟨s.disk, caller, req, _, rfl, h.sound, rfl, hm, faithful_error⟩
      next disk hr =>
        exact .inr ⟨disk, caller, req, wr, hc, h.sound.rename hr, hl,
          Disk.accounts_rename hr hw, rfl⟩
    next => cases hs

/-- While one thread saves, the calls of the others stay faithful. -/
theorem Kept.others (h : Kept codec s) {other : Caller} {call : Call}
    (hm : caller.makes req) (hot : other ≠ caller)
    (hc : getKey other s.calls = some call) :
    other.makes call.request ∧ call.Faithful (s.saved ++ [req]) := by
  obtain ⟨ho, hk⟩ := h.calls other call hc
  refine ⟨ho, faithful_append hk ?_⟩
  cases caller with
  | oauth flow =>
    cases req with
    | connect conn => exact .inl ⟨conn, rfl⟩
    | disconnect => cases hm
    | updatePreferences => cases hm
  | control =>
    cases other with
    | control => exact absurd rfl hot
    | oauth flow =>
      cases hr : call.request with
      | connect conn => exact .inr ⟨conn, rfl⟩
      | disconnect =>
        rw [hr] at ho
        cases ho
      | updatePreferences =>
        rw [hr] at ho
        cases ho

theorem Kept.step (h : Kept codec s) (hst : step codec s event = some t)
    (hk : KeepsRegistry codec s event) : Kept codec t := by
  obtain ⟨disk, caller, req, ph, rfl, hs, ha, hm, hf⟩ |
    ⟨disk, caller, req, wr, hca, hs, hl, hsv, rfl⟩ := step_cases h hst hk
  · exact (h.withDisk hs ha).put hm hf
  · obtain ⟨hm, hf⟩ := h.calls caller _ hca
    obtain ⟨hid, hc, hd⟩ := hf.copy wr.account rfl
    obtain ⟨accs, hsh, hso⟩ := h.shows
    rw [hl, Option.some.injEq] at hsh
    subst hsh
    refine ⟨hs, ⟨_, hsv, hso.save hid hc hd⟩, fun other call ho => ?_⟩
    by_cases hsa : other = caller
    · subst hsa
      rw [put_calls_self] at ho
      cases ho
      refine ⟨hm, ?_, fun _ => mem_append_right _ mem_cons_self⟩
      rintro account ⟨⟩
    · rw [put_calls_of_ne hsa] at ho
      exact h.others hm hsa ho

/-- One more step saves at most one request, and keeps the accounts of all other ids. -/
theorem others_kept (h : Kept codec s) (hst : step codec s event = some t)
    (hk : KeepsRegistry codec s event) :
    (t.saved = s.saved ∧ t.disk.accounts codec = s.disk.accounts codec) ∨
      ∃ req accs next, t.saved = s.saved ++ [req] ∧
        s.disk.accounts codec = some accs ∧ t.disk.accounts codec = some next ∧
          ∀ id, id ≠ req.accountId → next.filter (fun account => account.id = id) =
            accs.filter fun account => account.id = id := by
  obtain ⟨disk, caller, req, ph, rfl, -, ha, -, -⟩ |
    ⟨disk, caller, req, wr, hc, -, hl, hs, rfl⟩ := step_cases h hst hk
  · exact .inl ⟨rfl, ha⟩
  · obtain ⟨hid, -, -⟩ := (h.calls caller _ hc).2.copy wr.account rfl
    refine .inr ⟨req, wr.accounts, _, rfl, hl, hs, fun id hne => ?_⟩
    refine filter_savedAccounts_of_ne ?_
    rw [hid]
    exact hne.symm

theorem kept_start {file leftover : Option (List UInt8)} {init : List CalendarAccount}
    (hf : (start file leftover).disk.accounts codec = some init) :
    Kept codec (start file leftover) := by
  refine ⟨⟨?_, ?_, ?_⟩, ⟨init, hf, ?_, ?_, ?_⟩, ?_⟩
  · intro inode hi ht
    obtain ⟨_, -, rfl⟩ := Option.map_eq_some_iff.mp hi
    obtain ⟨_, -, ho⟩ := Option.map_eq_some_iff.mp ht
    cases ho
  · intro inode hi
    obtain ⟨_, -, rfl⟩ := Option.map_eq_some_iff.mp hi
    exact Nat.zero_lt_two
  · intro inode hi
    obtain ⟨_, -, rfl⟩ := Option.map_eq_some_iff.mp hi
    exact Nat.one_lt_two
  · rintro req ⟨⟩
  · rintro id ⟨⟩
  · rintro account ⟨⟩
  · rintro caller call ⟨⟩

/-- In every run that meets the condition the registry parses and shows every request that was
saved, which are those of all calls that returned `Ok`, and the next step that meets it keeps the
accounts of all ids but at most one. -/
theorem registry_loses_nothing (codec : AccountsCodec) {file leftover : Option (List UInt8)}
    {initial : List CalendarAccount} {events : List RegistryStep}
    (hfile : (start file leftover).disk.accounts codec = some initial)
    (hkeeps : Meets (step codec) (KeepsRegistry codec) (start file leftover) events)
    (hrun : run (step codec) (start file leftover) events = some s) :
    (∃ accounts, s.disk.accounts codec = some accounts ∧ Shows accounts s.saved) ∧
      (∀ caller call, getKey caller s.calls = some call → call.ok = true → call.request ∈ s.saved) ∧
      ∀ event t, step codec s event = some t → KeepsRegistry codec s event →
        (t.saved = s.saved ∧ t.disk.accounts codec = s.disk.accounts codec) ∨
          ∃ request accounts next, t.saved = s.saved ++ [request] ∧
            s.disk.accounts codec = some accounts ∧ t.disk.accounts codec = some next ∧
              ∀ id, id ≠ request.accountId → next.filter (fun account => account.id = id) =
                accounts.filter fun account => account.id = id := by
  have hk : Kept codec s := run_invariant_of_meets (fun hs hok h => h.step hs hok) hkeeps
    hrun (kept_start hfile)
  exact ⟨hk.shows, fun caller call hc => (hk.calls caller call hc).2.returned,
    fun event t hs hok => others_kept hk hs hok⟩

end AccountRegistry

/-! ### Two threads -/

def CalendarProvider.code : CalendarProvider → ℕ
  | .local => 0
  | .google => 1
  | .microsoft => 2

def CalendarProvider.ofCode : ℕ → CalendarProvider
  | 0 => .local
  | 1 => .google
  | _ => .microsoft

def textCode (text : String) : List ℕ := text.toList.map Char.toNat

def ofTextCode (code : List ℕ) : String := String.ofList (code.map Char.ofNat)

theorem ofTextCode_textCode (text : String) : ofTextCode (textCode text) = text := by
  have hc : (text.toList.map Char.toNat).map Char.ofNat = text.toList := by
    rw [map_map]
    exact (map_congr_left fun c _ => Char.ofNat_toNat c).trans (map_id _)
  rw [ofTextCode, textCode, hc, String.ofList_toList]

/-- Accounts as numbers, for the documents that are given no text below. -/
instance : Encodable CalendarAccount :=
  Encodable.ofLeftInverse
    (fun account => (textCode account.id, account.provider.code, account.enabled,
      textCode account.clientId, textCode account.calendarId, account.calendarIds.map textCode,
      account.reminderMinutes.toNat, textCode account.tenant))
    (fun code => {
      id := ofTextCode code.1
      provider := .ofCode code.2.1
      enabled := code.2.2.1
      clientId := ofTextCode code.2.2.2.1
      calendarId := ofTextCode code.2.2.2.2.1
      calendarIds := code.2.2.2.2.2.1.map ofTextCode
      reminderMinutes := UInt32.ofNat code.2.2.2.2.2.2.1
      tenant := ofTextCode code.2.2.2.2.2.2.2 })
    (fun account => by
      have hids : (account.calendarIds.map textCode).map ofTextCode = account.calendarIds := by
        rw [List.map_map]
        exact (List.map_congr_left fun text _ => ofTextCode_textCode text).trans (List.map_id _)
      have hprovider : CalendarProvider.ofCode account.provider.code = account.provider := by
        cases account.provider <;> rfl
      simp only [ofTextCode_textCode, hids, hprovider, UInt32.ofNat_toNat])

def CalendarProvider.text : CalendarProvider → String
  | .local => "local"
  | .google => "google"
  | .microsoft => "microsoft"

/-! The text that `to_vec_pretty` makes of accounts in plain ASCII, as characters. -/

def quotedChars (s : String) : List Char := '"' :: s.toList ++ ['"']

/-- The lines between two brackets at a depth, each but the last with a comma. -/
def bracketedChars (depth : ℕ) (left right : Char) (parts : List (List Char)) : List Char :=
  let lines := parts.map fun part => '\n' :: List.replicate (2 * (depth + 1)) ' ' ++ part
  left :: List.intercalate [','] lines ++ '\n' :: List.replicate (2 * depth) ' ' ++ [right]

def objectChars (depth : ℕ) (members : List (String × List Char)) : List Char :=
  bracketedChars depth '\x7b' '\x7d' (members.map fun member =>
    quotedChars member.1 ++ ':' :: ' ' :: member.2)

/-- The members of the JSON objects stand in the order of their names. -/
def CalendarAccount.chars (account : CalendarAccount) : List Char :=
  objectChars 2 [("calendar_id", quotedChars account.calendarId),
    ("calendar_ids", bracketedChars 3 '[' ']' (account.calendarIds.map quotedChars)),
    ("client_id", quotedChars account.clientId),
    ("enabled", (if account.enabled then "true" else "false").toList),
    ("id", quotedChars account.id), ("provider", quotedChars account.provider.text),
    ("reminder_minutes", Nat.toDigits 10 account.reminderMinutes.toNat),
    ("tenant", quotedChars account.tenant)]

def accountsBytes (accounts : List CalendarAccount) : List UInt8 :=
  (objectChars 0 [("accounts", bracketedChars 1 '[' ']' (accounts.map CalendarAccount.chars)),
    ("version", ['1'])]).map fun c => UInt8.ofNat c.toNat

/-- The documents that occur below. -/
def sampleDocuments : List (List CalendarAccount) :=
  [[workAccount], [homeAccount], [{ workAccount with enabled := false }]]

/-- The JSON of the sample documents, and a number in unary for every other one. -/
def sampleCodec : AccountsCodec where
  encode accounts :=
    if accounts ∈ sampleDocuments then accountsBytes accounts
    else List.replicate (Encodable.encode accounts) 0
  decode bytes :=
    match sampleDocuments.find? fun accounts => accountsBytes accounts = bytes with
    | some accounts => .ok ⟨1, accounts⟩
    | none =>
      match Encodable.decode bytes.length with
      | some accounts => .ok ⟨1, accounts⟩
      | none => .error "expected value at line 1 column 1"
  decode_encode accounts := by
    have hfirst : ∀ sample ∈ sampleDocuments, (accountsBytes sample).head? = some 123 := by
      decide +kernel
    have hfound : ∀ sample ∈ sampleDocuments, (sampleDocuments.find? fun other =>
        accountsBytes other = accountsBytes sample) = some sample := by decide +kernel
    by_cases hsample : accounts ∈ sampleDocuments
    · rw [if_pos hsample, hfound accounts hsample]
    · have hnone : (sampleDocuments.find? fun sample => accountsBytes sample =
          List.replicate (Encodable.encode accounts) 0) = none := by
        refine List.find?_eq_none.mpr fun sample hmem => ?_
        intro heq
        have hhead := hfirst sample hmem
        rw [of_decide_eq_true heq] at hhead
        cases hcode : Encodable.encode accounts with
        | zero =>
          rw [hcode] at hhead
          cases hhead
        | succ n =>
          rw [hcode] at hhead
          cases hhead
      rw [if_neg hsample, hnone]
      simp only [List.length_replicate, Encodable.encodek]

namespace AccountRegistry

instance (codec : AccountsCodec) (s : AccountRegistry) :
    (event : RegistryStep) → Decidable (KeepsRegistry codec s event) := by
  intro event
  cases event <;> unfold KeepsRegistry <;> infer_instance

/-- One thread saves an account from its load to its rename. -/
def saves (caller : Caller) : List RegistryStep :=
  [.reload caller, .create caller, .write caller 1000, .rename caller]

/-- An account is connected, and then disconnected by the control thread. -/
def connectThenDisconnect : List RegistryStep :=
  .begin (.oauth 0) (.connect workAccount) :: saves (.oauth 0) ++
    .begin .control (.disconnect "work") :: .load .control :: saves .control

theorem registry_loses_nothing_example : ∃ s,
    run (step sampleCodec) (start none none) connectThenDisconnect = some s ∧
      ∃ accounts, s.disk.accounts sampleCodec = some accounts ∧ Shows accounts s.saved := by
  have h : (checkedRun (step sampleCodec) (KeepsRegistry sampleCodec) (start none none)
      connectThenDisconnect).any (fun _ => true) = true := by decide +kernel
  obtain ⟨hk, s, hr, -⟩ := exists_run_of_checked h
  exact ⟨s, hr, (registry_loses_nothing sampleCodec rfl hk hr).1⟩

/-- Two accounts are connected at the same time: both threads load before either saves. -/
def connectBoth : List RegistryStep :=
  [.begin (.oauth 0) (.connect workAccount), .begin (.oauth 1) (.connect homeAccount),
    .reload (.oauth 0), .reload (.oauth 1), .create (.oauth 0), .write (.oauth 0) 1000,
    .rename (.oauth 0), .create (.oauth 1), .write (.oauth 1) 1000, .rename (.oauth 1)]

theorem connectBoth_run : (run (step sampleCodec) (start none none) connectBoth).any (fun s =>
    decide ((∀ e ∈ s.calls, e.2.ok) ∧
      (∃ e ∈ s.calls, e.2.request = .connect workAccount) ∧
        s.disk.accounts sampleCodec = some [homeAccount])) := by decide +kernel

theorem connected_account_lost : ¬∀ (codec : AccountsCodec) (file leftover : Option (List UInt8))
    (initial : List CalendarAccount) (events : List RegistryStep) (s : AccountRegistry),
    (start file leftover).disk.accounts codec = some initial →
      run (step codec) (start file leftover) events = some s →
        (∀ entry ∈ s.calls, entry.2.ok = true) → ∃ accounts,
          s.disk.accounts codec = some accounts ∧ ∀ entry ∈ s.calls, ∀ account,
            entry.2.request = .connect account →
              (accounts.filter fun item => item.id = account.id).length = 1 := by
  intro hal
  obtain ⟨s, hru, hl⟩ := exists_run_of_any connectBoth_run
  obtain ⟨hok, ⟨entry, hm, hr⟩, hf⟩ := of_decide_eq_true hl
  obtain ⟨accounts, ha, hon⟩ := hal sampleCodec none none [] connectBoth s rfl hru hok
  rw [hf, Option.some.injEq] at ha
  have ho := hon entry hm workAccount hr
  rw [← ha] at ho
  have hg : ([homeAccount].filter fun item => item.id = workAccount.id).length = 0 := by
    decide +kernel
  rw [hg] at ho
  cases ho

end AccountRegistry

end FocalDesk.Calendar
