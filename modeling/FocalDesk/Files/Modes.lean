import FocalDesk.Archive.FileSystem
import FocalDesk.Library.Result
import Mathlib.Data.List.Nodup
import Mathlib.Logic.Function.Basic

/-! Edits of file permissions, and how they are undone. -/
namespace FocalDesk.Files
open Library Archive List Function

def maxRecursivePermissionItems : ℕ := 10000

/-- The twelve bits of a mode that `chmod` sets. -/
abbrev Mode := BitVec 12

/-- The owner may search the folder. -/
def Searches (mode : Mode) : Bool := mode &&& 0o100 ≠ 0

inductive EntryKind where
  | file
  | dir
  | link
  | special
deriving DecidableEq

/-- A device and an inode. -/
abbrev Identity := ℕ × ℕ

structure Entry where
  identity : Identity
  kind : EntryKind

/-- The entries of a file system that belong to the user. A folder has one path, a file may have
several. -/
structure Tree where
  entry : Path → Option Entry
  /-- The names in a folder, sorted. -/
  names : Path → List Name
  folder_unique : ∀ p q e e', entry p = some e → entry q = some e' → e.kind = .dir →
    e.identity = e'.identity → p = q

abbrev Modes := Identity → Mode

inductive ModeError where
  /-- "symbolic links are not changed: …" -/
  | symbolicLink (path : Path)
  /-- "special files are not changed: …" -/
  | specialFile (path : Path)
  /-- "recursive permission changes are limited to 10000 items" -/
  | tooMany
  | notFound
  | denied
  /-- "…; rollback also failed: …" -/
  | rollbackFailed (error rollback : ModeError)

def ModeError.isInvalidInput : ModeError → Bool
  | symbolicLink _ | specialFile _ | tooMany => true
  | _ => false

structure PermissionSnapshot where
  path : Path
  mode : Mode
  identity : Identity
  isDir : Bool

variable (tree : Tree)

/-- Every folder above the path can be searched. -/
def searchable (modes : Modes) (path : Path) : Bool :=
  (List.range path.length).all fun n => (tree.entry (path.take n)).any fun entry =>
    entry.kind = .dir && Searches (modes entry.identity)

def lstat (modes : Modes) (path : Path) : Except ModeError Entry :=
  if searchable tree modes path then okOr (tree.entry path) .notFound else .error .denied

def permissionSnapshot (modes : Modes) (path : Path) : Except ModeError PermissionSnapshot :=
  match lstat tree modes path with
  | .error error => .error error
  | .ok entry =>
    match entry.kind with
    | .link => .error (.symbolicLink path)
    | .special => .error (.specialFile path)
    | kind => .ok
        { path, mode := modes entry.identity, identity := entry.identity, isDir := kind = .dir }

structure PermissionChanges where
  bits : List (Option Bool)
  length_bits : bits.length = 9

def permissionMasks : List Mode :=
  [0o400, 0o040, 0o004, 0o200, 0o020, 0o002, 0o100, 0o010, 0o001]

def applyPermissionBits (mode : Mode) (changes : PermissionChanges) : Mode :=
  (changes.bits.zip permissionMasks).foldl
    (fun mode bit =>
      match bit.1 with
      | some true => mode ||| bit.2
      | some false => mode &&& ~~~bit.2
      | none => mode) mode

def readDir (modes : Modes) (snapshot : PermissionSnapshot) : Except ModeError (List Name) := do
  let entry ← lstat tree modes snapshot.path
  if modes entry.identity &&& 0o400 = 0 then .error .denied else .ok (tree.names snapshot.path)

/-- A child on the device of its folder; links and special files are skipped. -/
def childSnapshot (modes : Modes) (folder : PermissionSnapshot) (name : Name) :
    Except ModeError (List PermissionSnapshot) :=
  match permissionSnapshot tree modes (folder.path ++ [name]) with
  | .ok child => .ok (if child.identity.1 = folder.identity.1 then [child] else [])
  | .error error => if error.isInvalidInput then .ok [] else .error error

def childSnapshots (modes : Modes) (folder : PermissionSnapshot) :
    Except ModeError (List PermissionSnapshot) := do
  let names ← readDir tree modes folder
  let children ← names.mapM (childSnapshot tree modes folder)
  return children.flatten

/-- The loop over the pending snapshots. The identities seen are those of the targets. -/
def collectLoop (modes : Modes) (recursive : Bool) :
    List PermissionSnapshot → List PermissionSnapshot → Except ModeError (List PermissionSnapshot)
  | [], targets => .ok targets
  | snapshot :: pending, targets =>
    if snapshot.identity ∈ targets.map PermissionSnapshot.identity then
      collectLoop modes recursive pending targets
    else if _h : maxRecursivePermissionItems ≤ targets.length then .error .tooMany
    else if recursive && snapshot.isDir then
      match childSnapshots tree modes snapshot with
      | .error error => .error error
      | .ok children => collectLoop modes recursive (pending ++ children) (targets ++ [snapshot])
    else collectLoop modes recursive pending (targets ++ [snapshot])
termination_by pending targets => (maxRecursivePermissionItems - targets.length, pending.length)
decreasing_by
  · exact Prod.Lex.right _ (Nat.lt_succ_self _)
  · exact Prod.Lex.left _ _ (by rw [List.length_append, List.length_singleton]; omega)
  · exact Prod.Lex.left _ _ (by rw [List.length_append, List.length_singleton]; omega)

def collectPermissionTargets (modes : Modes) (paths : List Path) (recursive : Bool) :
    Except ModeError (List PermissionSnapshot) := do
  let pending ← paths.mapM (permissionSnapshot tree modes)
  collectLoop tree modes recursive pending []

def setModeNoSymlink (modes : Modes) (path : Path) (mode : Mode) : Except ModeError Modes :=
  (permissionSnapshot tree modes path).map fun snapshot =>
    Function.update modes snapshot.identity mode

/-- `rename_transaction_error` -/
def transactionError (error : ModeError) : Option ModeError → ModeError
  | none => error
  | some rollback => .rollbackFailed error rollback

/-- Sets a previous mode again; the first error is kept. -/
def rollbackStep (state : Modes × Option ModeError) (request : Path × Mode) :
    Modes × Option ModeError :=
  match setModeNoSymlink tree state.1 request.1 request.2 with
  | .ok modes => (modes, state.2)
  | .error error => (state.1, state.2.or (some error))

/-- The requests, each with its previous mode; what was applied before is `done`, the last first. -/
def setLoop (modes : Modes) (done : List (Path × Mode)) :
    List ((Path × Mode) × (Path × Mode)) → Modes × Option ModeError
  | [] => (modes, none)
  | (request, previous) :: rest =>
    match setModeNoSymlink tree modes request.1 request.2 with
    | .ok modes => setLoop modes (previous :: done) rest
    | .error error =>
      let undone := done.foldl (rollbackStep tree) (modes, none)
      (undone.1, some (transactionError error undone.2))

def setPermissionModes (modes : Modes) (requests : List (Path × Mode)) :
    Modes × Except ModeError (List (Path × Mode)) :=
  match requests.mapM fun request => (permissionSnapshot tree modes request.1).map fun snapshot =>
      (request.1, snapshot.mode) with
  | .error error => (modes, .error error)
  | .ok previous =>
    match setLoop tree modes [] (requests.zip previous) with
    | (modes, some error) => (modes, .error error)
    | (modes, none) => (modes, .ok previous)

structure PermissionChangeReport where
  changed : ℕ
  previousModes : List (Path × Mode)

/-- The targets whose mode changes, each with its new one. -/
def changedTargets (targets : List PermissionSnapshot) (changes : PermissionChanges) :
    List (PermissionSnapshot × Mode) :=
  (targets.map fun target => (target, applyPermissionBits target.mode changes)).filter
    fun change => change.2 ≠ change.1.mode

def applyPermissionChanges (modes : Modes) (paths : List Path) (changes : PermissionChanges)
    (recursive : Bool) : Modes × Except ModeError PermissionChangeReport :=
  match collectPermissionTargets tree modes paths recursive with
  | .error error => (modes, .error error)
  | .ok targets =>
    let set := setPermissionModes tree modes
      ((changedTargets targets changes).map fun change => (change.1.path, change.2))
    (set.1, set.2.map fun previousModes => { changed := previousModes.length, previousModes })

def restorePermissionModes (modes : Modes) (previous : List (Path × Mode)) :
    Modes × Except ModeError Unit :=
  let set := setPermissionModes tree modes previous
  (set.1, set.2.map fun _ => ())

/-! What can be seen. -/

def Above (above path : Path) : Prop := above <+: path ∧ above.length < path.length

/-- The snapshot is the one that is taken of its path. -/
def Seen (modes : Modes) (snapshot : PermissionSnapshot) : Prop :=
  permissionSnapshot tree modes snapshot.path = .ok snapshot

variable {tree} {modes modes' : Modes} {path : Path} {snap target : PermissionSnapshot}

theorem searchable_iff : searchable tree modes path ↔ ∀ above, Above above path →
    ∃ e, tree.entry above = some e ∧ e.kind = .dir ∧ Searches (modes e.identity) := by
  simp only [searchable, all_eq_true, mem_range, Option.any_eq_true, Bool.and_eq_true,
    decide_eq_true_eq]
  constructor
  · rintro h above ⟨hp, hl⟩
    have ht := h above.length hl
    rwa [← prefix_iff_eq_take.mp hp] at ht
  · intro h n hn
    exact h _ ⟨List.take_prefix n path, by rw [length_take]; omega⟩

theorem permissionSnapshot_eq_ok : permissionSnapshot tree modes path = .ok snap ↔
    searchable tree modes path ∧ ∃ e, tree.entry path = some e ∧
      e.kind ≠ .link ∧ e.kind ≠ .special ∧ snap =
        { path, mode := modes e.identity, identity := e.identity
          isDir := e.kind = .dir } := by
  unfold permissionSnapshot lstat
  by_cases hs : searchable tree modes path
  · cases he : tree.entry path with
    | none => simp [hs, okOr]
    | some e => cases hk : e.kind <;> simp [hs, okOr, hk, eq_comm]
  · simp [hs]

theorem Seen.searchable (h : Seen tree modes snap) :
    searchable tree modes snap.path :=
  ((permissionSnapshot_eq_ok).mp h).1

/-- Under other modes a path is seen as long as the folders above it can be searched. -/
theorem Seen.snapshot_eq (h : Seen tree modes snap) (modes' : Modes) :
    permissionSnapshot tree modes' snap.path =
      if Files.searchable tree modes' snap.path then
        .ok { snap with mode := modes' snap.identity }
      else .error .denied := by
  obtain ⟨-, e, he, hlink, hspecial, hs⟩ := (permissionSnapshot_eq_ok).mp h
  have hi : snap.identity = e.identity := congrArg PermissionSnapshot.identity hs
  have hd : snap.isDir = decide (e.kind = .dir) := congrArg PermissionSnapshot.isDir hs
  split
  case isTrue ht =>
    exact (permissionSnapshot_eq_ok).mpr ⟨ht, e, he, hlink, hspecial, by rw [hi, hd]⟩
  case isFalse hf =>
    rw [permissionSnapshot, lstat, if_neg hf]

theorem Seen.set_eq (h : Seen tree modes snap) (modes' : Modes) (mode : Mode) :
    setModeNoSymlink tree modes' snap.path mode =
      if Files.searchable tree modes' snap.path then
        .ok (update modes' snap.identity mode)
      else .error .denied := by
  rw [setModeNoSymlink, h.snapshot_eq]
  split <;> rfl

/-- A folder above a seen path is the entry of any snapshot with its identity. -/
theorem Seen.above (h : Seen tree modes snap) (ht : Seen tree modes target)
    (ha : Above snap.path target.path) : Searches snap.mode := by
  obtain ⟨e, he, -, hs⟩ := (searchable_iff).mp ht.searchable _ ha
  obtain ⟨-, e', he', -, -, hsnap⟩ := (permissionSnapshot_eq_ok).mp h
  cases he.symm.trans he'
  rw [hsnap]
  exact hs

/-! Plans: targets with their new modes. -/

abbrev Change := PermissionSnapshot × Mode

def applied (modes : Modes) (plan : List Change) : Modes :=
  plan.foldl (fun modes change => Function.update modes change.1.identity change.2) modes

structure Planned (tree : Tree) (modes : Modes) (plan : List Change) : Prop where
  seen : ∀ change ∈ plan, Seen tree modes change.1
  distinct : (plan.map fun change => change.1.identity).Nodup

/-- The change takes the search permission from a folder above the target. -/
def Cuts (change : Change) (target : PermissionSnapshot) : Prop :=
  Above change.1.path target.path ∧ Searches change.2 = false

/-- No change comes after one that cuts it off. -/
def InOrder (plan : List Change) : Prop := plan.Pairwise fun first second => ¬ Cuts first second.1

def previous (change : Change) : Path × Mode := (change.1.path, change.1.mode)

def request (change : Change) : Path × Mode := (change.1.path, change.2)

variable {plan pre after : List Change} {change : Change}

theorem applied_concat : applied modes (plan ++ [change]) =
    update (applied modes plan) change.1.identity change.2 := by
  simp [applied]

theorem applied_other {identity : Identity}
    (h : identity ∉ plan.map fun change => change.1.identity) :
    applied modes plan identity = modes identity := by
  induction plan using reverseRecOn with
  | nil => rfl
  | append_singleton plan change ih =>
    simp only [map_append, mem_append, not_or, map_cons, map_nil,
      mem_singleton] at h
    rw [applied_concat, update_of_ne h.2, ih h.1]

theorem applied_of_mem (hd : (plan.map fun change => change.1.identity).Nodup) (h : change ∈ plan)
    : applied modes plan change.1.identity = change.2 := by
  induction plan using reverseRecOn with
  | nil => cases h
  | append_singleton plan last ih =>
    rw [map_append, nodup_append] at hd
    rw [applied_concat]
    rcases mem_append.mp h with h | h
    · have hne : change.1.identity ≠ last.1.identity :=
        hd.2.2 _ (mem_map_of_mem h) _ (by simp)
      rw [update_of_ne hne, ih hd.1 h]
    · obtain rfl := mem_singleton.mp h
      exact update_self ..

theorem Planned.left (h : Planned tree modes (pre ++ after)) : Planned tree modes pre :=
  ⟨fun change hc => h.seen change (mem_append_left _ hc),
    (nodup_append.mp (map_append ▸ h.distinct)).1⟩

/-- A target is still reached unless one of the changes cuts it off. -/
theorem searchable_applied (h : Planned tree modes plan) (ht : Seen tree modes target) :
    searchable tree (applied modes plan) target.path ↔ ∀ change ∈ plan, ¬ Cuts change target := by
  rw [searchable_iff]
  constructor
  · rintro hs change hc ⟨ha, hn⟩
    obtain ⟨e, he, -, hsearch⟩ := hs _ ha
    obtain ⟨-, e', he', -, -, hsnap⟩ := (permissionSnapshot_eq_ok).mp (h.seen change hc)
    cases he.symm.trans he'
    have hi : change.1.identity = e.identity := congrArg PermissionSnapshot.identity hsnap
    rw [← hi, applied_of_mem h.distinct hc, hn] at hsearch
    cases hsearch
  · intro hc above ha
    obtain ⟨e, he, hd, hs⟩ := (searchable_iff).mp ht.searchable above ha
    refine ⟨e, he, hd, ?_⟩
    by_cases hm : e.identity ∈ plan.map fun change => change.1.identity
    · obtain ⟨change, hm, hi⟩ := mem_map.mp hm
      obtain ⟨-, e', he', -, -, hsnap⟩ := (permissionSnapshot_eq_ok).mp (h.seen change hm)
      have hi' : change.1.identity = e'.identity := congrArg PermissionSnapshot.identity hsnap
      -- a folder has one path
      have hp := tree.folder_unique _ _ _ _ he he' hd (hi.symm.trans hi')
      rw [← hi, applied_of_mem h.distinct hm]
      by_contra hn
      exact hc change hm ⟨hp ▸ ha, by simpa using hn⟩
    · rwa [applied_other hm]

theorem not_cuts_self (change : Change) : ¬ Cuts change change.1 := fun h => absurd h.1.2 (by simp)

/-- What was set is taken back, the last first. -/
theorem rollback_applied (h : Planned tree modes plan) (ho : InOrder plan) :
    (plan.reverse.map previous).foldl (rollbackStep tree) (applied modes plan, none) =
      (modes, none) := by
  induction plan using reverseRecOn with
  | nil => rfl
  | append_singleton plan change ih =>
    obtain ⟨hp, -, hlast⟩ := pairwise_append.mp ho
    have hseen : Seen tree modes change.1 := h.seen change (by simp)
    have hsearch : searchable tree (applied modes (plan ++ [change])) change.1.path := by
      refine (searchable_applied h hseen).mpr fun other hm => ?_
      rcases mem_append.mp hm with hm | hm
      · exact hlast other hm change (by simp)
      · obtain rfl := mem_singleton.mp hm
        exact not_cuts_self other
    have hnew : change.1.identity ∉ plan.map fun change => change.1.identity := by
      have hd := h.distinct
      rw [map_append, nodup_append] at hd
      exact fun hm => hd.2.2 _ hm _ (by simp) rfl
    have hback : update (applied modes (plan ++ [change])) change.1.identity
        change.1.mode = applied modes plan := by
      obtain ⟨-, e, -, -, -, hsnap⟩ := (permissionSnapshot_eq_ok).mp hseen
      have hm : change.1.mode = modes change.1.identity := by rw [hsnap]
      have hother : applied modes plan change.1.identity = modes change.1.identity :=
        applied_other hnew
      rw [applied_concat, update_idem, hm, ← hother, update_eq_self]
    rw [reverse_append, reverse_singleton, singleton_append, map_cons,
      foldl_cons, rollbackStep, previous, hseen.set_eq, if_pos hsearch, hback]
    exact ih h.left hp

/-- The loop applies a plan in order, or takes back what it has applied. -/
theorem setLoop_applied (pre : List Change) (h : Planned tree modes (pre ++ after))
    (hb : InOrder pre) :
    (InOrder (pre ++ after) → setLoop tree (applied modes pre) (pre.reverse.map previous)
      (after.map fun change => (request change, previous change)) =
        (applied modes (pre ++ after), none)) ∧
    (¬ InOrder (pre ++ after) → ∃ err, setLoop tree (applied modes pre)
      (pre.reverse.map previous)
      (after.map fun change => (request change, previous change)) = (modes, some err)) := by
  induction after generalizing pre with
  | nil =>
    rw [append_nil]
    exact ⟨fun _ => rfl, fun hn => absurd hb hn⟩
  | cons change after ih =>
    have hseen : Seen tree modes change.1 := h.seen change (by simp)
    simp only [map_cons, setLoop, request, hseen.set_eq]
    split
    case h_1 modes' hset =>
      split at hset
      case isFalse => cases hset
      case isTrue hs =>
        cases hset
        have hnot := (searchable_applied h.left hseen).mp hs
        have hb' : InOrder (pre ++ [change]) := pairwise_append.mpr
          ⟨hb, pairwise_singleton .., fun a ha c hc =>
            mem_singleton.mp hc ▸ hnot a ha⟩
        have hi := ih (pre ++ [change]) (by simpa using h) hb'
        rw [applied_concat, reverse_append, append_assoc] at hi
        exact hi
    case h_2 err hset =>
      split at hset
      case isTrue => cases hset
      case isFalse hs =>
        rw [rollback_applied h.left hb]
        refine ⟨fun ho => absurd ?_ hs, fun _ => ⟨_, rfl⟩⟩
        exact (searchable_applied h.left hseen).mpr fun a ha =>
          (pairwise_append.mp ho).2.2 a ha change mem_cons_self

theorem setPermissionModes_planned (h : Planned tree modes plan) :
    (InOrder plan → setPermissionModes tree modes (plan.map request) =
      (applied modes plan, .ok (plan.map previous))) ∧
    (¬ InOrder plan → ∃ err, setPermissionModes tree modes (plan.map request) =
      (modes, .error err)) := by
  have hprev : (plan.map request).mapM (fun request =>
      (permissionSnapshot tree modes request.1).map fun snap => (request.1, snap.mode)) =
        .ok (plan.map previous) := by
    rw [mapM_map]
    refine mapM_ok fun change hc => ?_
    rw [comp_apply, request, h.seen change hc]
    rfl
  have hz : (plan.map request).zip (plan.map previous) =
      plan.map fun change => (request change, previous change) := zip_map' ..
  obtain ⟨hok, herr⟩ := setLoop_applied [] h Pairwise.nil
  simp only [setPermissionModes, hprev, hz]
  constructor
  · intro ho
    rw [show setLoop tree modes [] _ = _ from hok ho]
    rfl
  · intro hn
    obtain ⟨err, he⟩ := herr hn
    exact ⟨err, by rw [show setLoop tree modes [] _ = _ from he]⟩

/-- The plan that gives the changed targets their modes back. -/
def undo (plan : List Change) : List Change :=
  plan.map fun change => ({ change.1 with mode := change.2 }, change.1.mode)

theorem applied_undo (h : Planned tree modes plan) :
    applied (applied modes plan) (undo plan) = modes := by
  have hids : (undo plan).map (fun change => change.1.identity) =
      plan.map fun change => change.1.identity := by simp [undo]
  funext identity
  by_cases hm : identity ∈ plan.map fun change => change.1.identity
  · obtain ⟨change, hc, rfl⟩ := mem_map.mp hm
    have hmem : ({ change.1 with mode := change.2 }, change.1.mode) ∈ undo plan :=
      mem_map_of_mem (f := fun change : Change =>
        (({ change.1 with mode := change.2 }, change.1.mode) : Change)) hc
    obtain ⟨-, e, -, -, -, hsnap⟩ := (permissionSnapshot_eq_ok).mp (h.seen change hc)
    have hmode : change.1.mode = modes change.1.identity := by rw [hsnap]
    rw [← hmode]
    exact applied_of_mem (hids ▸ h.distinct) hmem
  · rw [applied_other (hids ▸ hm), applied_other hm]

/-- No change cuts a changed target off. -/
def Reachable (plan : List Change) : Prop :=
  ∀ first ∈ plan, ∀ second ∈ plan, ¬ Cuts first second.1

theorem restore_planned (h : Planned tree modes plan) :
    (Reachable plan → restorePermissionModes tree (applied modes plan) (plan.map previous) =
      (modes, .ok ())) ∧
    (¬ Reachable plan → ∃ modes' error, restorePermissionModes tree (applied modes plan)
      (plan.map previous) = (modes', .error error)) := by
  constructor
  · intro hr
    have hseen : ∀ change ∈ undo plan, Seen tree (applied modes plan) change.1 := by
      intro back hb
      obtain ⟨change, hc, rfl⟩ := mem_map.mp hb
      have hs := (searchable_applied h (h.seen change hc)).mpr fun fst hf => hr fst hf change hc
      rw [Seen, (h.seen change hc).snapshot_eq, if_pos hs, applied_of_mem h.distinct hc]
    have hids : (undo plan).map (fun change => change.1.identity) =
        plan.map fun change => change.1.identity := by simp [undo]
    have hp : Planned tree (applied modes plan) (undo plan) := ⟨hseen, hids ▸ h.distinct⟩
    -- a folder above a target could be searched before
    have ho : InOrder (undo plan) := by
      refine pairwise_map.mpr (pairwise_of_forall_mem_list fun fst hf snd hs => ?_)
      rintro ⟨ha, hn⟩
      exact absurd ((h.seen fst hf).above (h.seen snd hs) ha) (by simpa using hn)
    have hreq : plan.map previous = (undo plan).map request := by
      simp [undo, request, previous, comp_def]
    rw [restorePermissionModes, hreq, (setPermissionModes_planned hp).1 ho, applied_undo h]
    rfl
  · intro hr
    simp only [Reachable, not_forall, not_not] at hr
    obtain ⟨fst, hf, snd, hs, hcut⟩ := hr
    have hnot : ¬ searchable tree (applied modes plan) snd.1.path := fun hs' =>
      (searchable_applied h (h.seen snd hs)).mp hs' fst hf hcut
    cases hm : (plan.map previous).mapM fun request =>
        (permissionSnapshot tree (applied modes plan) request.1).map fun snap =>
          (request.1, snap.mode) with
    | error error =>
      exact ⟨_, error, by simp only [restorePermissionModes, setPermissionModes, hm]; rfl⟩
    | ok previous' =>
      obtain ⟨r, hr⟩ := exists_mapM_eq_ok.mp ⟨_, hm⟩ _ (mem_map_of_mem hs)
      rw [previous, (h.seen snd hs).snapshot_eq, if_neg hnot] at hr
      cases hr

/-! The targets. -/

theorem Seen.of_snapshot (h : permissionSnapshot tree modes path = .ok snap) :
    Seen tree modes snap := by
  obtain ⟨-, e, -, -, -, hs⟩ := (permissionSnapshot_eq_ok).mp h
  have hp : snap.path = path := by rw [hs]
  rwa [Seen, hp]

variable {kids pend targets : List PermissionSnapshot} {recursive : Bool}

theorem childSnapshots_seen (h : childSnapshots tree modes snap = .ok kids) :
    ∀ child ∈ kids, Seen tree modes child := by
  simp only [childSnapshots, bind_eq_ok, pure_eq_ok] at h
  obtain ⟨ns, -, found, hf, rfl⟩ := h
  intro child hc
  obtain ⟨part, hp, hc⟩ := mem_flatten.mp hc
  obtain ⟨name, -, hn⟩ := mapM_mem hf part hp
  unfold childSnapshot at hn
  split at hn
  case h_1 seen hs =>
    cases hn
    split at hc
    · cases mem_singleton.mp hc
      exact .of_snapshot hs
    · cases hc
  case h_2 =>
    split at hn
    · cases hn
      cases hc
    · cases hn

/-- Each target is a snapshot of its path, and no entry is a target twice. -/
structure Collected (tree : Tree) (modes : Modes) (targets : List PermissionSnapshot) : Prop where
  seen : ∀ target ∈ targets, Seen tree modes target
  distinct : (targets.map PermissionSnapshot.identity).Nodup

theorem Collected.concat (h : Collected tree modes targets) (hs : Seen tree modes snap)
    (hn : snap.identity ∉ targets.map PermissionSnapshot.identity) :
    Collected tree modes (targets ++ [snap]) where
  seen := forall_mem_append.mpr ⟨h.seen, forall_mem_singleton.mpr hs⟩
  distinct := by
    rw [map_append, map_singleton]
    exact nodup_append.mpr ⟨h.distinct, nodup_singleton _, fun i hi j hj hij =>
      hn (mem_singleton.mp hj ▸ hij ▸ hi)⟩

theorem collectLoop_collected {collected : List PermissionSnapshot}
    (hp : ∀ snap ∈ pend, Seen tree modes snap) (ht : Collected tree modes targets)
    (h : collectLoop tree modes recursive pend targets = .ok collected) :
    Collected tree modes collected := by
  induction pend, targets using collectLoop.induct tree modes recursive with
  | case1 targets =>
    rw [collectLoop] at h
    cases h
    exact ht
  | case2 targets snap pend hm ih =>
    rw [collectLoop, if_pos hm] at h
    exact ih (forall_mem_cons.mp hp).2 ht h
  | case3 targets snap pend hm hmax =>
    rw [collectLoop, if_neg hm, dif_pos hmax] at h
    cases h
  | case4 targets snap pend hm hmax hdir err herr =>
    rw [collectLoop, if_neg hm, dif_neg hmax, if_pos hdir, herr] at h
    cases h
  | case5 targets snap pend hm hmax hdir kids hc ih =>
    rw [collectLoop, if_neg hm, dif_neg hmax, if_pos hdir, hc] at h
    obtain ⟨hs, hp⟩ := forall_mem_cons.mp hp
    exact ih (forall_mem_append.mpr ⟨hp, childSnapshots_seen hc⟩) (ht.concat hs hm) h
  | case6 targets snap pend hm hmax hdir ih =>
    rw [collectLoop, if_neg hm, dif_neg hmax, if_neg hdir] at h
    obtain ⟨hs, hp⟩ := forall_mem_cons.mp hp
    exact ih hp (ht.concat hs hm) h

theorem collectPermissionTargets_collected {ps : List Path}
    (h : collectPermissionTargets tree modes ps recursive = .ok targets) :
    Collected tree modes targets := by
  simp only [collectPermissionTargets, bind_eq_ok] at h
  obtain ⟨pend, hp, h⟩ := h
  refine collectLoop_collected (fun snap hs => ?_) ⟨by simp, by simp⟩ h
  obtain ⟨path, -, hsnap⟩ := mapM_mem hp snap hs
  exact .of_snapshot hsnap

variable {changes : PermissionChanges}

theorem Collected.planned (h : Collected tree modes targets) :
    Planned tree modes (changedTargets targets changes) := by
  have hsub : ((changedTargets targets changes).map fun change => change.1.identity).Sublist
      (targets.map PermissionSnapshot.identity) := by
    have := (filter_sublist (l := targets.map fun target =>
      (target, applyPermissionBits target.mode changes))
      (p := fun change => change.2 ≠ change.1.mode)).map fun change => change.1.identity
    rwa [map_map] at this
  refine ⟨fun change hc => ?_, hsub.nodup h.distinct⟩
  obtain ⟨target, ht, rfl⟩ := mem_map.mp (mem_filter.mp hc).1
  exact h.seen target ht

/-- The modes after the edit: those of the targets have the chosen bits. -/
def Edited (modes after : Modes) (targets : List PermissionSnapshot) (changes : PermissionChanges) :
    Prop :=
  (∀ target ∈ targets, after target.identity =
    applyPermissionBits (modes target.identity) changes) ∧
  ∀ identity ∉ targets.map PermissionSnapshot.identity, after identity = modes identity

theorem Collected.edited (h : Collected tree modes targets) :
    Edited modes (applied modes (changedTargets targets changes)) targets changes := by
  refine ⟨fun target ht => ?_, fun identity hn => applied_other fun hm => ?_⟩
  · obtain ⟨-, e, -, -, -, hsnap⟩ := (permissionSnapshot_eq_ok).mp (h.seen target ht)
    have hmode : modes target.identity = target.mode := by rw [hsnap]
    rw [hmode]
    by_cases he : applyPermissionBits target.mode changes = target.mode
    · rw [applied_other, hmode, he]
      intro hm
      obtain ⟨change, hc, hi⟩ := mem_map.mp hm
      obtain ⟨hc, hne⟩ := mem_filter.mp hc
      obtain ⟨other, ho, rfl⟩ := mem_map.mp hc
      cases inj_on_of_nodup_map h.distinct ho ht hi
      exact absurd he (by simpa using hne)
    · have hc : (target, applyPermissionBits target.mode changes) ∈
          changedTargets targets changes :=
        mem_filter.mpr ⟨mem_map_of_mem ht, by simpa using he⟩
      exact applied_of_mem h.planned.distinct hc
  · obtain ⟨change, hc, rfl⟩ := mem_map.mp hm
    obtain ⟨target, ht, rfl⟩ := mem_map.mp (mem_filter.mp hc).1
    exact hn (mem_map_of_mem ht)

/-- The edit is atomic and can be undone. -/
def Undoable (tree : Tree) (modes : Modes) (paths : List Path) (changes : PermissionChanges)
    (recursive : Bool) : Prop :=
  let result := applyPermissionChanges tree modes paths changes recursive
  (∀ error, result.2 = .error error → result.1 = modes) ∧
  ∀ report, result.2 = .ok report →
    (∃ targets, collectPermissionTargets tree modes paths recursive = .ok targets ∧
      Edited modes result.1 targets changes) ∧
    restorePermissionModes tree result.1 report.previousModes = (modes, .ok ())

/-- A folder loses its owner's search permission while an entry in it is changed, after the
entry. -/
def CutsLater (plan : List Change) : Prop := InOrder plan ∧ ¬ Reachable plan

/-- An edit can be undone unless, after the change of an entry, it takes the search permission of a
folder above the entry. -/
theorem permission_edit_undoable (tree : Tree) (modes : Modes) (paths : List Path)
    (changes : PermissionChanges) (recursive : Bool) :
    Undoable tree modes paths changes recursive ↔
      ∀ targets, collectPermissionTargets tree modes paths recursive = .ok targets →
        ¬ CutsLater (changedTargets targets changes) := by
  unfold Undoable applyPermissionChanges
  cases hc : collectPermissionTargets tree modes paths recursive with
  | error error => simp
  | ok targets =>
    have hcollected := collectPermissionTargets_collected hc
    have hp : Planned tree modes (changedTargets targets changes) := hcollected.planned
    obtain ⟨hok, herr⟩ := setPermissionModes_planned hp
    obtain ⟨hback, hstuck⟩ := restore_planned hp
    change _ ↔ ∀ found, Except.ok targets = .ok found → _
    simp only [show (changedTargets targets changes).map (fun change =>
      (change.1.path, change.2)) = (changedTargets targets changes).map request from rfl]
    by_cases ho : InOrder (changedTargets targets changes)
    · rw [hok ho]
      constructor
      · rintro ⟨-, h⟩ found hf ⟨-, hn⟩
        cases hf
        obtain ⟨modes', error, he⟩ := hstuck hn
        have := (h _ rfl).2
        rw [he] at this
        cases this
      · refine fun h => ⟨fun error he => (by cases he), fun report hr => ?_⟩
        cases hr
        refine ⟨⟨targets, rfl, hcollected.edited⟩, hback ?_⟩
        by_contra hn
        exact h targets rfl ⟨ho, hn⟩
    · obtain ⟨error, he⟩ := herr ho
      rw [he]
      refine ⟨fun _ found hf hl => ?_, fun _ => ⟨fun _ _ => rfl, fun report hr => ?_⟩⟩
      · cases hf
        exact ho hl.1
      · cases hr

/-- A folder `d` with a file `d/c`. -/
def nested : Tree where
  entry path :=
    if path = [] then some ⟨(1, 1), .dir⟩
    else if path = [[100]] then some ⟨(1, 2), .dir⟩
    else if path = [[100], [99]] then some ⟨(1, 3), .file⟩
    else none
  names path := if path = [] then [[100]] else if path = [[100]] then [[99]] else []
  folder_unique p q e e' he he' hd hi := by
    split_ifs at he he' <;> cases he <;> cases he' <;> simp_all

/-- Taking the owner's search permission from `d/c` and then from `d` succeeds, and cannot be
undone. -/
theorem nested_edit_not_undoable :
    ¬ Undoable nested (fun _ => 0o700) [[[100], [99]], [[100]]]
      ⟨[none, none, none, none, none, none, some false, none, none], rfl⟩ false := by
  have hc : collectPermissionTargets nested (fun _ => 0o700) [[[100], [99]], [[100]]] false =
      .ok [⟨[[100], [99]], 0o700, (1, 3), false⟩, ⟨[[100]], 0o700, (1, 2), true⟩] := by
    simp [collectPermissionTargets, collectLoop, maxRecursivePermissionItems, permissionSnapshot,
      lstat, searchable, nested, okOr, Searches, range_succ]
  rintro ⟨-, h⟩
  rw [applyPermissionChanges, hc] at h
  have := (h _ rfl).2
  have herr : (restorePermissionModes nested _ _).2.toBool = true := congrArg (·.2.toBool) this
  revert herr
  decide

end FocalDesk.Files
