import FocalDesk.Launcher.State

/-! What the launcher has on file after any number of calls, and what the callers were told. -/
namespace FocalDesk.Launcher
open Library Option LauncherState

variable {state : LauncherState} {line rest acc : List Char} {ents vs : List String}
  {kind : Kind} {v : String}

/-! The text of a state. -/

theorem lines_append (hl : ∀ c ∈ line, c ≠ '\n') :
    lines acc (line ++ '\n' :: rest) = stripReturn (acc ++ line) :: lines [] rest := by
  induction line generalizing acc with
  | nil => simp [lines]
  | cons c line ih =>
    obtain ⟨hc, hl⟩ := List.forall_mem_cons.mp hl
    rw [List.cons_append, lines, if_neg hc, ih hl, List.append_assoc]
    rfl

theorem storable_iff : storable v ↔
    v ≠ "" ∧ ∀ c ∈ v.toList, c ≠ '\t' ∧ c ≠ '\n' ∧ c ≠ '\r' := by
  simp [storable, and_assoc]

theorem toList_ne_nil (h : v ≠ "") : v.toList ≠ [] := by
  intro hn
  exact h (String.toList_eq_nil_iff.mp hn)

theorem name_plain : ∀ c ∈ kind.name.toList, c ≠ '\t' ∧ c ≠ '\n' := by
  have ha : (kind.name.toList.all fun c => c ≠ '\t' && c ≠ '\n') := by
    cases kind <;> decide
  simpa using ha

theorem splitTab_line (kind : Kind) (v : String) :
    splitTab (kind.name.toList ++ '\t' :: v.toList) = (kind.name, v) := by
  have hp : ∀ c ∈ kind.name.toList, decide (c ≠ '\t') := fun c hc =>
    decide_eq_true (name_plain c hc).1
  simp only [splitTab, List.takeWhile_append_of_pos hp, List.dropWhile_append_of_pos hp]
  simp

/-- The line of an entry is read as it was written. -/
theorem lines_entry (hs : storable v) :
    lines [] (kind.name.toList ++ '\t' :: v.toList ++ '\n' :: rest) =
      (kind.name.toList ++ '\t' :: v.toList) :: lines [] rest := by
  obtain ⟨hne, hp⟩ := (storable_iff).mp hs
  rw [lines_append]
  · congr 1
    rw [List.nil_append, stripReturn, if_neg]
    rw [List.getLast?_append_of_ne_nil _ (List.cons_ne_nil _ _), List.getLast?_cons,
      List.getLast?_eq_some_getLast (toList_ne_nil hne), getD_some]
    intro hl
    exact (hp _ (List.getLast_mem _)).2.2 (some.inj hl)
  · intro c hc
    simp only [List.mem_append, List.mem_cons] at hc
    obtain hc | rfl | hc := hc
    · exact (name_plain c hc).2
    · decide
    · exact (hp c hc).2.1

theorem lines_appendEntries (kind : Kind) (ents : List String) (rest : List Char) :
    (lines [] (appendEntries kind.name ents ++ rest)).map splitTab =
      (ents.filter storable).map (fun e => (kind.name, e)) ++ (lines [] rest).map splitTab := by
  unfold appendEntries
  have ha : ∀ e ∈ ents.filter storable, storable e := fun e he =>
    (List.mem_filter.mp he).2
  generalize ents.filter storable = kept at ha ⊢
  induction kept with
  | nil => rfl
  | cons e kept ih =>
    obtain ⟨he, hk⟩ := List.forall_mem_cons.mp ha
    rw [List.flatMap_cons, List.map_cons, List.cons_append, ← ih hk]
    rw [show kind.name.toList ++ '\t' :: e.toList ++ ['\n'] ++
        kept.flatMap (fun e => kind.name.toList ++ '\t' :: e.toList ++ ['\n']) ++ rest =
      kind.name.toList ++ '\t' :: e.toList ++ '\n' ::
        (kept.flatMap (fun e => kind.name.toList ++ '\t' :: e.toList ++ ['\n']) ++ rest) by simp]
    rw [lines_entry he, List.map_cons, splitTab_line]

theorem lines_save (state : LauncherState) :
    (lines [] (saveLauncherState state).toList).map splitTab =
      [Kind.favorite, .fileFavorite, .recent, .recentFile].flatMap fun kind =>
        ((state.entries kind).filter storable).map fun e => (kind.name, e) := by
  have h := fun kind ents rest => lines_appendEntries kind ents rest
  have hl := h .recentFile state.recentFiles []
  rw [List.append_nil] at hl
  simp only [saveLauncherState, String.toList_ofList, List.append_assoc]
  rw [show "favorite" = Kind.name .favorite from rfl,
    show "file-favorite" = Kind.name .fileFavorite from rfl,
    show "recent" = Kind.name .recent from rfl,
    show "recent-file" = Kind.name .recentFile from rfl]
  rw [h, h, h, hl]
  simp [lines, entries]

/-! The state that is read. -/

@[simp] theorem entries_setEntries (state : LauncherState) (ents : List String) (kind : Kind) :
    (state.setEntries ents kind).entries kind = ents := by cases kind <;> rfl

@[simp] theorem setEntries_setEntries (state : LauncherState) (ents vs : List String) (kind : Kind)
    : (state.setEntries ents kind).setEntries vs kind =
      state.setEntries vs kind := by cases kind <;> rfl

@[simp] theorem setEntries_entries (state : LauncherState) (kind : Kind) :
    state.setEntries (state.entries kind) kind = state := by cases kind <;> rfl

theorem entries_setEntries_of_ne {other : Kind} (h : other ≠ kind) :
    (state.setEntries ents kind).entries other = state.entries other := by
  cases kind <;> cases other <;> first | rfl | exact absurd rfl h

@[simp] theorem ofName_name (kind : Kind) : Kind.ofName kind.name = some kind := by
  cases kind <;> decide

theorem foldl_pushNew (h : (ents ++ vs).Nodup) :
    vs.foldl pushNew ents = ents ++ vs := by
  induction vs generalizing ents with
  | nil => simp
  | cons v vs ih =>
    have hn : v ∉ ents := fun hm =>
      (List.nodup_append.mp h).2.2 v hm v List.mem_cons_self rfl
    rw [List.foldl_cons, pushNew, if_neg hn, ih]
    · simp
    · simpa using h

theorem nodup_pushNew (h : ents.Nodup) (v : String) : (pushNew ents v).Nodup := by
  unfold pushNew
  split
  · exact h
  · rename_i hn
    simpa [List.nodup_append] using ⟨h, fun other ho hs => hn (hs ▸ ho)⟩

theorem foldl_addLine (hv : ∀ v ∈ vs, v ≠ "") :
    (vs.map fun v => (kind.name, v)).foldl addLine state =
      state.setEntries (vs.foldl pushNew (state.entries kind)) kind := by
  induction vs generalizing state with
  | nil => simp
  | cons v vs ih =>
    obtain ⟨hva, hv⟩ := List.forall_mem_cons.mp hv
    rw [List.map_cons, List.foldl_cons, List.foldl_cons, ih hv]
    simp [addLine, hva]

/-- A state as it can be on file. -/
structure Kept (state : LauncherState) : Prop where
  nodup : ∀ kind, (state.entries kind).Nodup
  stored : ∀ kind, ∀ entry ∈ state.entries kind, storable entry = true
  recents : state.recents.length ≤ maxRecents
  recentFiles : state.recentFiles.length ≤ maxRecents

/-- What is read of any file has no repetitions and is not too long. -/
theorem kept_load {file : Option String} (hs : ∀ kind,
    ∀ e ∈ (loadLauncherState file).entries kind, storable e) :
    Kept (loadLauncherState file) := by
  cases file with
  | none => exact ⟨fun kind => by cases kind <;> exact List.nodup_nil, hs, Nat.zero_le _,
      Nat.zero_le _⟩
  | some contents =>
    refine ⟨fun kind => ?_, hs, List.length_take_le _ _, List.length_take_le _ _⟩
    have hr : ∀ (read : List (String × String)) (state : LauncherState),
        (∀ kind, (state.entries kind).Nodup) →
          ∀ kind, ((read.foldl addLine state).entries kind).Nodup := by
      intro read
      induction read with
      | nil => exact fun _ hn => hn
      | cons fst read ih =>
        intro state hn
        refine ih _ fun kind => ?_
        unfold addLine
        split
        · exact hn kind
        · split
          · exact hn kind
          · rename_i other _
            by_cases hsa : kind = other
            · subst hsa
              rw [entries_setEntries]
              exact nodup_pushNew (hn kind) _
            · rw [entries_setEntries_of_ne hsa]
              exact hn kind
    have ha := hr ((lines [] contents.toList).map splitTab) .empty fun kind => by
      cases kind <;> exact List.nodup_nil
    cases kind with
    | favorite => exact ha .favorite
    | fileFavorite => exact ha .fileFavorite
    | recent => exact (ha .recent).sublist (List.take_sublist _ _)
    | recentFile => exact (ha .recentFile).sublist (List.take_sublist _ _)

/-- A state that was saved is read again. -/
theorem load_save (h : Kept state) : loadContents (saveLauncherState state) = state := by
  have hf : ∀ kind, (state.entries kind).filter storable = state.entries kind :=
    fun kind => List.filter_eq_self.mpr (h.stored kind)
  have hne : ∀ kind, ∀ e ∈ state.entries kind, e ≠ "" := fun kind e he =>
    ((storable_iff).mp (h.stored kind e he)).1
  have hp : ∀ kind, (state.entries kind).foldl pushNew [] = state.entries kind := fun kind =>
    foldl_pushNew (h.nodup kind)
  unfold loadContents
  rw [lines_save]
  simp only [hf, List.flatMap_cons, List.flatMap_nil, List.append_nil, List.foldl_append,
    foldl_addLine (hne _)]
  simp only [entries, setEntries, empty] at hp ⊢
  rw [hp .favorite, hp .fileFavorite, hp .recent, hp .recentFile,
    List.take_of_length_le h.recents, List.take_of_length_le h.recentFiles]

/-! The operations. -/

/-- What an operation means for the lists of the state. -/
def Operation.effect (state : LauncherState) : Operation → LauncherState
  | .rememberRecentApp id =>
    if storable id then
      { state with recents := (id :: state.recents.erase id).take maxRecents }
    else state
  | .rememberRecentFile uri =>
    if storable uri then
      { state with recentFiles := (uri :: state.recentFiles.erase uri).take maxRecents }
    else state
  | .toggleAppFavorite id => { state with favorites :=
      if id ∈ state.favorites then state.favorites.erase id else state.favorites ++ [id] }
  | .toggleFileFavorite uri => { state with fileFavorites :=
      if uri ∈ state.fileFavorites then state.fileFavorites.erase uri
      else state.fileFavorites ++ [uri] }
  | .removeFileFavorite uri => { state with fileFavorites := state.fileFavorites.erase uri }
  | .clearRecentApps => { state with recents := [] }
  | .clearRecentActivity => { state with recents := [], recentFiles := [] }

/-- A value that is toggled can be stored. -/
def Operation.Storable : Operation → Prop
  | .toggleAppFavorite id => storable id = true
  | .toggleFileFavorite uri => storable uri = true
  | _ => True

/-- What the caller is told of the state that the operation found. -/
def Operation.Tells (state : LauncherState) (answer : Option Bool) (op : Operation) : Prop :=
  match op with
  | .toggleAppFavorite id => answer = some (decide (id ∈ (op.effect state).favorites))
  | .toggleFileFavorite uri => answer = some (decide (uri ∈ (op.effect state).fileFavorites))
  | .removeFileFavorite uri => answer = some (decide (uri ∈ state.fileFavorites))
  | _ => answer = none

theorem toggleEntry_of_mem (h : v ∈ ents) :
    toggleEntry ents v = (ents.erase v, false) := by
  unfold toggleEntry
  rw [List.erase_eq_eraseIdx]
  cases hi : ents.idxOf? v with
  | none => exact absurd h (List.idxOf?_eq_none_iff.mp hi)
  | some i => rfl

theorem toggleEntry_of_not_mem (h : v ∉ ents) :
    toggleEntry ents v = (ents ++ [v], true) := by
  unfold toggleEntry
  rw [List.idxOf?_eq_none_iff.mpr h]

theorem erase_eq_filter (h : ents.Nodup) (v : String) :
    ents.erase v = ents.filter (· ≠ v) := by
  rw [h.erase_eq_filter]
  exact List.filter_congr fun other _ => by simp [bne, beq_eq_decide]

theorem rememberRecentEntry_eq (h : ents.Nodup) (v : String) :
    rememberRecentEntry ents v =
      if storable v then (v :: ents.erase v).take maxRecents else ents := by
  rw [erase_eq_filter h]
  rfl

/-- Each operation does what it means. -/
theorem mutate_eq_effect (h : Kept state) (op : Operation) :
    (op.mutate state).1 = op.effect state := by
  have hre : state.recents.Nodup := h.nodup .recent
  have hr : state.recentFiles.Nodup := h.nodup .recentFile
  have hf : state.fileFavorites.Nodup := h.nodup .fileFavorite
  cases op with
  | rememberRecentApp id =>
    simp only [Operation.mutate, Operation.effect]
    rw [rememberRecentEntry_eq hre]
    split <;> rfl
  | rememberRecentFile uri =>
    simp only [Operation.mutate, Operation.effect]
    rw [rememberRecentEntry_eq hr]
    split <;> rfl
  | toggleAppFavorite id =>
    simp only [Operation.mutate, Operation.effect]
    split
    · rename_i hm
      rw [toggleEntry_of_mem hm]
    · rename_i hm
      rw [toggleEntry_of_not_mem hm]
  | toggleFileFavorite uri =>
    simp only [Operation.mutate, Operation.effect]
    split
    · rename_i hm
      rw [toggleEntry_of_mem hm]
    · rename_i hm
      rw [toggleEntry_of_not_mem hm]
  | removeFileFavorite uri =>
    simp only [Operation.mutate, Operation.effect]
    rw [erase_eq_filter hf]
  | clearRecentApps => rfl
  | clearRecentActivity => rfl

/-- One of the lists changes. -/
theorem Kept.set (h : Kept state) (hn : ents.Nodup)
    (hst : ∀ e ∈ ents, storable e) (hl : ents.length ≤ maxRecents ∨
      kind = .favorite ∨ kind = .fileFavorite) : Kept (state.setEntries ents kind) := by
  refine ⟨fun other => ?_, fun other => ?_, ?_, ?_⟩
  · by_cases hs : other = kind
    · subst hs
      rwa [entries_setEntries]
    · rw [entries_setEntries_of_ne hs]
      exact h.nodup other
  · by_cases hs : other = kind
    · subst hs
      rwa [entries_setEntries]
    · rw [entries_setEntries_of_ne hs]
      exact h.stored other
  · obtain hl | rfl | rfl := hl
    · cases kind with
      | recent => exact hl
      | favorite => exact h.recents
      | fileFavorite => exact h.recents
      | recentFile => exact h.recents
    · exact h.recents
    · exact h.recents
  · obtain hl | rfl | rfl := hl
    · cases kind with
      | recentFile => exact hl
      | favorite => exact h.recentFiles
      | fileFavorite => exact h.recentFiles
      | recent => exact h.recentFiles
    · exact h.recentFiles
    · exact h.recentFiles

/-- A list after its value was remembered. -/
theorem Kept.remember (h : Kept state) (kind : Kind) (hv : storable v) :
    Kept (state.setEntries ((v :: (state.entries kind).erase v).take maxRecents) kind) := by
  refine h.set ?_ (fun e hentry => ?_) (.inl (List.length_take_le _ _))
  · refine List.Nodup.sublist (List.take_sublist _ _) (List.nodup_cons.mpr ⟨?_, ?_⟩)
    · exact (h.nodup kind).not_mem_erase
    · exact (h.nodup kind).erase v
  · obtain rfl | hentry := List.mem_cons.mp (List.mem_of_mem_take hentry)
    · exact hv
    · exact h.stored kind e (List.mem_of_mem_erase hentry)

/-- A list after its value was toggled. -/
theorem Kept.toggle (h : Kept state) (kind : Kind) (hk : kind = .favorite ∨ kind = .fileFavorite)
    (hv : storable v) :
    Kept (state.setEntries (if v ∈ state.entries kind then (state.entries kind).erase v
      else state.entries kind ++ [v]) kind) := by
  split
  · exact h.set ((h.nodup kind).erase v)
      (fun e he => h.stored kind e (List.mem_of_mem_erase he)) (.inr hk)
  · rename_i hn
    refine h.set ?_ (fun e he => ?_) (.inr hk)
    · simpa [List.nodup_append] using
        ⟨h.nodup kind, fun other ho hs => hn (hs ▸ ho)⟩
    · obtain he | he := List.mem_append.mp he
      · exact h.stored kind e he
      · rw [List.mem_singleton.mp he]
        exact hv

theorem Kept.clear (h : Kept state) (kind : Kind) : Kept (state.setEntries [] kind) :=
  h.set List.nodup_nil (by simp) (.inl (Nat.zero_le _))

theorem Kept.effect (h : Kept state) {op : Operation} (hop : op.Storable) :
    Kept (op.effect state) := by
  cases op with
  | rememberRecentApp id =>
    simp only [Operation.effect]
    split
    · rename_i hid
      exact h.remember .recent hid
    · exact h
  | rememberRecentFile uri =>
    simp only [Operation.effect]
    split
    · rename_i hu
      exact h.remember .recentFile hu
    · exact h
  | toggleAppFavorite id => exact h.toggle .favorite (.inl rfl) hop
  | toggleFileFavorite uri => exact h.toggle .fileFavorite (.inr rfl) hop
  | removeFileFavorite uri =>
    have hk : Kept (state.setEntries (state.fileFavorites.erase uri) .fileFavorite) :=
      h.set ((h.nodup .fileFavorite).erase uri)
        (fun e he => h.stored .fileFavorite e (List.mem_of_mem_erase he))
        (.inr (.inr rfl))
    exact hk
  | clearRecentApps => exact h.clear .recent
  | clearRecentActivity => exact (h.clear .recent).clear .recentFile

/-- What an operation answers is what a fresh load shows. -/
theorem mutate_tells (h : Kept state) (op : Operation) : op.Tells state (op.mutate state).2 := by
  cases op with
  | toggleAppFavorite id =>
    simp only [Operation.Tells, Operation.effect, Operation.mutate]
    split
    · rename_i hm
      have hg : id ∉ state.favorites.erase id := (h.nodup .favorite).not_mem_erase
      simp [toggleEntry_of_mem hm, hg]
    · rename_i hm
      simp [toggleEntry_of_not_mem hm]
  | toggleFileFavorite uri =>
    simp only [Operation.Tells, Operation.effect, Operation.mutate]
    split
    · rename_i hm
      have hg : uri ∉ state.fileFavorites.erase uri := (h.nodup .fileFavorite).not_mem_erase
      simp [toggleEntry_of_mem hm, hg]
    · rename_i hm
      simp [toggleEntry_of_not_mem hm]
  | removeFileFavorite uri =>
    simp only [Operation.Tells, Operation.mutate, some.injEq, decide_eq_decide]
    rw [Ne, List.length_filter_eq_length_iff]
    constructor
    · intro h
      by_contra hn
      exact h fun other ho => decide_eq_true fun hs => hn (hs ▸ ho)
    · intro hm h
      exact of_decide_eq_true (h uri hm) rfl
  | rememberRecentApp id => rfl
  | rememberRecentFile uri => rfl
  | clearRecentApps => rfl
  | clearRecentActivity => rfl

/-! The recent entries. -/

/-- The values that were remembered since the last clear, the last one first. -/
def Operation.usedApps (used : List String) : Operation → List String
  | .rememberRecentApp id => if storable id then id :: used else used
  | .clearRecentApps => []
  | .clearRecentActivity => []
  | _ => used

def Operation.usedFiles (used : List String) : Operation → List String
  | .rememberRecentFile uri => if storable uri then uri :: used else used
  | .clearRecentActivity => []
  | _ => used

theorem effect_recents {used : List String}
    (h : state.recents = (distinct used).take maxRecents) (op : Operation) :
    (op.effect state).recents = (distinct (op.usedApps used)).take maxRecents := by
  cases op with
  | rememberRecentApp id =>
    simp only [Operation.effect, Operation.usedApps]
    split
    · rw [← rememberFirst_distinct, ← h, rememberFirst, ← erase_eq_filter]
      rw [h]
      exact (nodup_distinct used).sublist (List.take_sublist _ _)
    · exact h
  | clearRecentApps => rfl
  | clearRecentActivity => rfl
  | toggleAppFavorite id => exact h
  | toggleFileFavorite uri => exact h
  | removeFileFavorite uri => exact h
  | rememberRecentFile uri =>
    simp only [Operation.effect, Operation.usedApps]
    split
    · exact h
    · exact h

theorem effect_recentFiles {used : List String}
    (h : state.recentFiles = (distinct used).take maxRecents) (op : Operation) :
    (op.effect state).recentFiles = (distinct (op.usedFiles used)).take maxRecents := by
  cases op with
  | rememberRecentFile uri =>
    simp only [Operation.effect, Operation.usedFiles]
    split
    · rw [← rememberFirst_distinct, ← h, rememberFirst, ← erase_eq_filter]
      rw [h]
      exact (nodup_distinct used).sublist (List.take_sublist _ _)
    · exact h
  | clearRecentApps => exact h
  | clearRecentActivity => rfl
  | toggleAppFavorite id => exact h
  | toggleFileFavorite uri => exact h
  | removeFileFavorite uri => exact h
  | rememberRecentApp id =>
    simp only [Operation.effect, Operation.usedFiles]
    split
    · exact h
    · exact h

/-! The runs. -/

/-- The operations of a log, applied one after the other. -/
def applied (state : LauncherState) (log : List (Operation × Option Bool)) : LauncherState :=
  (log.map Prod.fst).foldl Operation.effect state

/-- What the callers were told of, from the state that was on file at first. -/
structure Told (init : LauncherState) (log : List (Operation × Option Bool)) (state : LauncherState)
    : Prop where
  applied : state = applied init log
  answers : ∀ before op answer after, log = before ++ (op, answer) :: after →
    op.Tells (Launcher.applied init before) answer
  recents : state.recents =
    (distinct ((log.map Prod.fst).foldl Operation.usedApps init.recents)).take maxRecents
  recentFiles : state.recentFiles =
    (distinct ((log.map Prod.fst).foldl Operation.usedFiles init.recentFiles)).take maxRecents

theorem told_nil (h : Kept state) : Told state [] state := by
  refine ⟨rfl, fun pre op ans after hl => ?_, ?_, ?_⟩
  · cases pre <;> cases hl
  · exact ((congrArg _ (distinct_of_nodup (h.nodup .recent))).trans
      (List.take_of_length_le h.recents)).symm
  · exact ((congrArg _ (distinct_of_nodup (h.nodup .recentFile))).trans
      (List.take_of_length_le h.recentFiles)).symm

theorem Told.snoc {init : LauncherState} {log : List (Operation × Option Bool)}
    (h : Told init log state) {op : Operation} {ans : Option Bool} (hop : op.Tells state ans)
    : Told init (log ++ [(op, ans)]) (op.effect state) := by
  refine ⟨?_, fun pre op' answer' after hlo => ?_, ?_, ?_⟩
  · simp [Launcher.applied, h.applied]
  · obtain ⟨later, rfl, hl⟩ | ⟨later, rfl, hl⟩ := List.append_eq_append_iff.mp hlo
    · cases later with
      | nil =>
        cases hl
        rw [List.append_nil, ← h.applied]
        exact hop
      | cons fst later => cases later <;> cases hl
    · cases later with
      | nil =>
        cases hl
        rw [List.append_nil] at h
        rw [← h.applied]
        exact hop
      | cons fst later =>
        cases hl
        exact h.answers pre op' answer' later rfl
  · rw [List.map_append, List.foldl_append]
    exact effect_recents h.recents op
  · rw [List.map_append, List.foldl_append]
    exact effect_recentFiles h.recentFiles op

/-- One operation that was served. -/
theorem load_mutate (h : Kept state) {op : Operation} (hop : op.Storable) :
    loadLauncherState (some (saveLauncherState (op.mutate state).1)) = op.effect state := by
  rw [mutate_eq_effect h]
  exact load_save (h.effect hop)

theorem told_serves {file file' : Option String} {log : List (Operation × Option Bool)}
    (h : Locked.Serves launcherSystem file log file') (hf : Kept (loadLauncherState file))
    (hlo : ∀ e ∈ log, e.1.Storable) :
    Told (loadLauncherState file) log (loadLauncherState file') ∧
      Kept (loadLauncherState file') := by
  induction h with
  | nil => exact ⟨told_nil hf, hf⟩
  | snoc op _ ih =>
    obtain ⟨ht, hk⟩ := ih fun e he => hlo e (List.mem_append_left _ he)
    have hop : op.Storable := hlo _ (List.mem_append_right _ (List.mem_singleton_self _))
    have hl := load_mutate hk hop
    simp only [launcherSystem] at hl ⊢
    rw [hl]
    exact ⟨ht.snoc (mutate_tells hk op), hk.effect hop⟩

/-- Whatever the order of the calls, a fresh load shows what the callers were told. -/
theorem launcher_state_told {file : Option String} {es : List (Locked.Event Operation)}
    {t : Locked.State (Option String) LauncherState Operation (Option Bool)}
    (hfile : ∀ kind, ∀ entry ∈ (loadLauncherState file).entries kind, storable entry = true)
    (hes : ∀ p op, .call p op ∈ es → op.Storable)
    (hrun : run (Locked.step launcherSystem) (.opened file) es = some t) :
    Told (loadLauncherState file) t.log (loadLauncherState t.file) ∧
      (∀ kind, ((loadLauncherState t.file).entries kind).Nodup) ∧
      (loadLauncherState t.file).recents.length ≤ maxRecents ∧
      (loadLauncherState t.file).recentFiles.length ≤ maxRecents := by
  obtain ⟨ht, hk⟩ := told_serves (Locked.serves_of_run hrun) (kept_load hfile)
    (Locked.good_of_run hes hrun)
  exact ⟨ht, hk.nodup, hk.recents, hk.recentFiles⟩

/-- Two processes, one of which waits for the lock of the other. -/
def waitingCalls : List (Locked.Event Operation) :=
  [.call 0 (.toggleAppFavorite "files"), .call 1 (.rememberRecentApp "mail"), .acquire 1, .load 1,
    .save 1, .release 1, .acquire 0, .load 0, .save 0, .release 0]

theorem waiting_calls_told :
    ∃ t : Locked.State (Option String) LauncherState Operation (Option Bool),
      run (Locked.step launcherSystem) (.opened (some "recent\tmail\nrecent\tweb\n"))
          waitingCalls = some t ∧
        (loadLauncherState t.file).favorites = ["files"] ∧
        (loadLauncherState t.file).recents = ["mail", "web"] ∧
        Told (loadLauncherState (some "recent\tmail\nrecent\tweb\n")) t.log
          (loadLauncherState t.file) := by
  have hr : run (Locked.step launcherSystem) (.opened (some "recent\tmail\nrecent\tweb\n"))
      waitingCalls = some _ := rfl
  refine ⟨_, hr, by decide +kernel, by decide +kernel, (launcher_state_told ?_ ?_ hr).1⟩
  · intro kind
    cases kind <;> decide +kernel
  · intro p op hop
    simp only [waitingCalls, List.mem_cons, Locked.Event.call.injEq, reduceCtorEq,
      List.not_mem_nil, or_false] at hop
    obtain ⟨-, rfl⟩ | ⟨-, rfl⟩ := hop
    · exact (by decide : storable "files" = true)
    · trivial

/-- A favorite with a tab in it is not written, whatever the caller is told. -/
theorem toggle_with_tab_not_told :
    ∃ t : Locked.State (Option String) LauncherState Operation (Option Bool),
      run (Locked.step launcherSystem) (.opened none) [.call 0 (.toggleAppFavorite "a\tb"),
        .acquire 0, .load 0, .save 0, .release 0] = some t ∧
        t.log = [(.toggleAppFavorite "a\tb", some true)] ∧
        (loadLauncherState t.file).favorites = [] ∧
        ¬ Told (loadLauncherState none) t.log (loadLauncherState t.file) := by
  refine ⟨_, rfl, rfl, by decide +kernel, fun h => ?_⟩
  have hf := congrArg favorites h.applied
  revert hf
  decide +kernel

end FocalDesk.Launcher
