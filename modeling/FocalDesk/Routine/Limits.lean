import FocalDesk.Routine.Engine

/-! The limits of routines over whole runs, and what simulation leaves unchanged. -/
namespace FocalDesk
open Library List Bool RoutineState RoutineCall Std.ExtTreeMap

variable {reg : RoutineRegistry} {state state' : RoutineState}
  {history : List RoutineSuggestion} {definition defn : RoutineDefinition} {event : RoutineEvent}
  {now later : ℕ} {id : String} {call : RoutineCall} {calls : List RoutineCall}

/-- When the suggestions of one routine were published, in order. -/
def firingTimes (history : List RoutineSuggestion) (routineId : String) : List ℕ :=
  (history.filter fun suggestion => suggestion.routineId = routineId).map
    RoutineSuggestion.createdAtUnix

def inWindow (start : ℕ) (fired : ℕ) : Bool := decide (start ≤ fired) && decide (fired < start + 3600)

/-- The cooldown and the hourly limit of a routine, over all it has published. -/
structure WithinLimits (definition : RoutineDefinition) (history : List RoutineSuggestion) :
    Prop where
  cooldown : (firingTimes history definition.id).Pairwise fun earlier later =>
    earlier + definition.cooldownSeconds ≤ later
  hourly : ∀ start, (firingTimes history definition.id).countP (inWindow start) ≤
    definition.maxSuggestionsPerHour

/-! Pruning, by what it keeps for every later time. -/

def withinDay (now fired : ℕ) : Bool := decide (now - fired < 86400)

theorem withinDay_of_later (h : now ≤ later) {fired : ℕ} (hw : withinDay later fired) :
    withinDay now fired := by
  simp only [withinDay, decide_eq_true_eq] at hw ⊢
  omega

theorem recent_prune (rtid : String) :
    (pruneRoutines now state).recent rtid = (state.recent rtid).filter (withinDay now) := by
  simp only [recent, pruneRoutines, Std.ExtTreeMap.getElem?_map]
  cases state.firings[rtid]? with
  | none => rfl
  | some firings => rfl

theorem filter_withinDay (h : now ≤ later) (firings : List ℕ) :
    (firings.filter (withinDay now)).filter (withinDay later) =
      firings.filter (withinDay later) := by
  rw [filter_filter]
  apply filter_congr
  intro fired _
  cases hw : withinDay later fired with
  | false => rfl
  | true => simp [withinDay_of_later h hw]

/-- Pruning before a later pruning makes no difference. -/
theorem prune_prune (h : now ≤ later) :
    pruneRoutines later (pruneRoutines now state) = pruneRoutines later state := by
  have hs : (pruneRoutines later (pruneRoutines now state)).suggestions =
      (pruneRoutines later state).suggestions := by
    apply Std.ExtTreeMap.ext_getElem?
    intro k
    simp only [pruneRoutines, Std.ExtTreeMap.getElem?_filter', Option.filter_filter]
    congr 1
    funext sug
    have : later < sug.expiresAtUnix → now < sug.expiresAtUnix := by omega
    by_cases hl : later < sug.expiresAtUnix <;> simp [hl, this]
  have hf : (pruneRoutines later (pruneRoutines now state)).firings =
      (pruneRoutines later state).firings := by
    apply Std.ExtTreeMap.ext_getElem?
    intro k
    simp only [pruneRoutines, Std.ExtTreeMap.getElem?_map, Option.map_map]
    congr 1
    funext firings
    exact filter_withinDay h firings
  have hd : (pruneRoutines later (pruneRoutines now state)).dedupe =
      (pruneRoutines later state).dedupe := by
    apply Std.ExtTreeMap.ext_getElem?
    intro k
    simp only [pruneRoutines, Std.ExtTreeMap.getElem?_filter', Option.filter_filter]
    congr 1
    funext seen
    have : later - seen < 86400 → now - seen < 86400 := by omega
    by_cases hl : later - seen < 86400 <;> simp [hl, this]
  calc pruneRoutines later (pruneRoutines now state)
      = { suspended := state.suspended
          suggestions := (pruneRoutines later (pruneRoutines now state)).suggestions
          firings := (pruneRoutines later (pruneRoutines now state)).firings
          dedupe := (pruneRoutines later (pruneRoutines now state)).dedupe } := rfl
    _ = pruneRoutines later state := by rw [hs, hf, hd]; rfl

/-! What the engine remembers of its history. -/

structure Remembers (registry : RoutineRegistry) (now : ℕ) (state : RoutineState)
    (history : List RoutineSuggestion) : Prop where
  past : ∀ suggestion ∈ history, suggestion.createdAtUnix ≤ now
  /-- For every later time, the log holds the firings of the last day. -/
  recent : ∀ routineId later, now ≤ later →
    (state.recent routineId).filter (withinDay later) =
      (firingTimes history routineId).filter (withinDay later)
  keyed : ∀ (id : String) suggestion, state.suggestions[id]? = some suggestion → suggestion.id = id
  size : state.suggestions.size ≤ maxSuggestions
  limits : ∀ definition ∈ registry.definitions, WithinLimits definition history

theorem Remembers.mono (h : Remembers reg now state history) (hle : now ≤ later) :
    Remembers reg later state history where
  past sug hmem := (h.past sug hmem).trans hle
  recent routineId latest hlatest := h.recent routineId latest (hle.trans hlatest)
  keyed := h.keyed
  size := h.size
  limits := h.limits

theorem Remembers.prune (h : Remembers reg now state history) :
    Remembers reg now (pruneRoutines now state) history where
  past := h.past
  recent routineId later hle := by
    rw [recent_prune, filter_withinDay hle]
    exact h.recent routineId later hle
  keyed id suggestion hget := by
    simp only [pruneRoutines, getElem?_filter', Option.filter_eq_some_iff] at hget
    exact h.keyed id suggestion hget.1
  size := le_trans size_filter_le_size h.size
  limits := h.limits

theorem mem_firingTimes_le (h : Remembers reg now state history) {fired : ℕ}
    (hm : fired ∈ firingTimes history id) : fired ≤ now := by
  obtain ⟨sug, hs, rfl⟩ := mem_map.mp hm
  exact h.past sug (mem_filter.mp hs).1

theorem firingTimes_append (history new : List RoutineSuggestion) (rtid : String) :
    firingTimes (history ++ new) rtid = firingTimes history rtid ++ firingTimes new rtid := by
  simp [firingTimes]

/-! Eviction makes room. -/

variable {suggestions : BTreeMap String RoutineSuggestion}

theorem size_evictSuggestions
    (hk : ∀ (id : String) sug, suggestions[id]? = some sug →
      sug.id = id) {fuel : ℕ} (hfu : suggestions.size ≤ fuel) :
    (evictSuggestions fuel suggestions).size < maxSuggestions ∧
      ∀ (id : String) sug, (evictSuggestions fuel suggestions)[id]? = some sug →
        suggestions[id]? = some sug := by
  induction fuel generalizing suggestions with
  | zero =>
    refine ⟨?_, fun _ _ h => h⟩
    simp only [evictSuggestions, maxSuggestions]
    omega
  | succ fuel ih =>
    simp only [evictSuggestions]
    split
    case isTrue hr => exact ⟨hr, fun _ _ h => h⟩
    case isFalse hf =>
      split
      case h_1 hn =>
        -- A full table has a suggestion to evict.
        exfalso
        cases hl : suggestions.toList with
        | nil =>
          have hle : suggestions.toList.length = suggestions.size := length_toList
          rw [hl, length_nil] at hle
          simp only [maxSuggestions] at hf
          omega
        | cons e ents =>
          rw [hl] at hn
          cases hn
      case h_2 oldest ho =>
        have hm := minByKey_mem ho
        obtain ⟨e, he, rfl⟩ := mem_map.mp hm
        have hg : suggestions[e.1]? = some e.2 :=
          mem_toList_iff_getElem?_eq_some.mp he
        have hid : e.2.id = e.1 := hk _ _ hg
        have hc : suggestions.contains e.2.id := by
          rw [hid]
          exact contains_iff_mem.mpr (mem_of_getElem? hg)
        obtain ⟨hs, hke⟩ := @ih (suggestions.erase e.2.id)
          (fun id sug h => hk id sug (getElem?_of_erase h)) (by
            rw [size_erase, if_pos hc]
            omega)
        exact ⟨hs, fun id sug h => getElem?_of_erase (hke id sug h)⟩

/-! One turn of the loop. -/

/-- What an engine that does not suppress an event tells about its log. -/
theorem suppressionReason_eq_none (h : suppressionReason state defn event now = none) :
    state.suspended = false ∧ isQuiet defn now = false ∧
      (∀ fired ∈ state.recent defn.id, defn.cooldownSeconds ≤ now - fired) ∧
      (state.recent defn.id).countP (fun fired => decide (now - fired < 3600)) <
        defn.maxSuggestionsPerHour := by
  unfold suppressionReason at h
  split at h
  · cases h
  case isFalse hs =>
    split at h
    · cases h
    case isFalse hq =>
      dsimp only at h
      split at h
      · cases h
      case isFalse hc =>
        split at h
        · cases h
        case isFalse hh =>
          refine ⟨by simpa using hs, by simpa using hq, ?_, ?_⟩
          · intro fired hm
            by_contra hlt
            apply hc
            exact any_eq_true.mpr ⟨fired, hm, by simpa using Nat.lt_of_not_le hlt⟩
          · rw [countP_eq_length_filter]
            omega

/-- Publishing at a time the log allows keeps the routine within its limits. -/
theorem WithinLimits.publish (h : WithinLimits defn history)
    (hp : ∀ fired ∈ firingTimes history defn.id, fired ≤ now)
    (hc : ∀ fired ∈ firingTimes history defn.id, defn.cooldownSeconds ≤ now - fired)
    (hh : (firingTimes history defn.id).countP
      (fun fired => decide (now - fired < 3600)) < defn.maxSuggestionsPerHour)
    {sug : RoutineSuggestion} (hid : sug.routineId = defn.id)
    (hn : sug.createdAtUnix = now) :
    WithinLimits defn (history ++ [sug]) := by
  have ht : firingTimes (history ++ [sug]) defn.id =
      firingTimes history defn.id ++ [now] := by
    rw [firingTimes_append]
    simp [firingTimes, hid, hn]
  constructor
  · rw [ht, pairwise_append]
    refine ⟨h.cooldown, pairwise_singleton _ _, ?_⟩
    intro fired hm last hl
    obtain rfl := mem_singleton.mp hl
    have := hp fired hm
    have := hc fired hm
    omega
  · intro start
    rw [ht, countP_append]
    by_cases hin : inWindow start now
    · -- The other firings of the window are among those of the last hour.
      have hle : (firingTimes history defn.id).countP (inWindow start) ≤
          (firingTimes history defn.id).countP
            (fun fired => decide (now - fired < 3600)) := by
        apply countP_mono_left
        intro fired _ hf
        simp only [inWindow, and_eq_true, decide_eq_true_eq] at hin hf ⊢
        omega
      have ho : [now].countP (inWindow start) = 1 := by simp [hin]
      omega
    · have hz : [now].countP (inWindow start) = 0 := by simp [hin]
      have := h.hourly start
      omega

theorem WithinLimits.other (h : WithinLimits defn history) {sug : RoutineSuggestion}
    (hid : sug.routineId ≠ defn.id) :
    WithinLimits defn (history ++ [sug]) := by
  have ht : firingTimes (history ++ [sug]) defn.id =
      firingTimes history defn.id := by
    rw [firingTimes_append]
    simp [firingTimes, hid]
  constructor
  · rw [ht]
    exact h.cooldown
  · rw [ht]
    exact h.hourly

theorem recent_publish (sug : RoutineSuggestion) (rtid : String) :
    (publish state defn event now sug).recent rtid =
      state.recent rtid ++ if defn.id = rtid then [now] else [] := by
  simp only [recent, publish, Std.ExtTreeMap.getElem?_insert]
  by_cases hid : defn.id = rtid
  · subst hid
    simp
  · simp [hid]

/-- Publishing an event that the engine does not suppress. -/
theorem Remembers.publish (h : Remembers reg now state history)
    (hp : ∀ rtid, ∀ fired ∈ state.recent rtid, withinDay now fired)
    (hm : defn ∈ reg.definitions)
    (hr : suppressionReason state defn event now = none) (id : String) :
    Remembers reg now
      (publish state defn event now (makeSuggestion defn event now id))
      (history ++ [makeSuggestion defn event now id]) := by
  obtain ⟨-, -, hc, hh⟩ := suppressionReason_eq_none hr
  obtain ⟨-, hd, -⟩ := RoutineDefinition.validate_limits (reg.valid defn hm)
  have hl : state.recent defn.id =
      (firingTimes history defn.id).filter (withinDay now) := by
    rw [← h.recent defn.id now le_rfl]
    exact (filter_eq_self.mpr (hp defn.id)).symm
  obtain ⟨hro, hk⟩ := size_evictSuggestions h.keyed le_rfl
  constructor
  · intro sug hs
    rcases mem_append.mp hs with hs | hs
    · exact h.past sug hs
    · obtain rfl := mem_singleton.mp hs
      exact le_rfl
  · intro rtid later hle
    rw [recent_publish, firingTimes_append, filter_append, filter_append, h.recent rtid later hle]
    by_cases hid : defn.id = rtid <;> simp [firingTimes, makeSuggestion, hid]
  · intro key sug hg
    simp only [FocalDesk.publish, Std.ExtTreeMap.getElem?_insert] at hg
    split at hg
    case isTrue heq =>
      cases hg
      exact Std.LawfulEqCmp.eq_of_compare heq
    case isFalse => exact h.keyed key sug (hk key sug hg)
  · have hi := Std.ExtTreeMap.size_insert_le (t := evictSuggestions state.suggestions.size
        state.suggestions) (k := id) (v := makeSuggestion defn event now id)
    simp only [FocalDesk.publish, makeSuggestion] at hi ⊢
    omega
  · intro other ho
    by_cases hid : defn.id = other.id
    · obtain rfl : defn = other :=
        inj_on_of_nodup_map reg.distinct hm ho hid
      refine (h.limits defn hm).publish (fun fired => mem_firingTimes_le h) ?_ ?_ rfl rfl
      · intro fired hf
        by_cases hw : withinDay now fired
        · apply hc
          rw [hl]
          exact mem_filter.mpr ⟨hf, hw⟩
        · -- Older firings are past every cooldown.
          simp only [withinDay, decide_eq_true_eq, not_lt] at hw
          omega
      · rw [hl, countP_filter] at hh
        refine lt_of_le_of_lt (countP_mono_left ?_) hh
        intro fired _ hf
        simp only [withinDay, and_eq_true, decide_eq_true_eq] at hf ⊢
        omega
    · exact (h.limits other ho).other hid

/-- What a suggestion that is published says about the moment of its publication. -/
structure PublishedAt (registry : RoutineRegistry) (now : ℕ) (suspended : Bool)
    (suggestion : RoutineSuggestion) : Prop where
  time : suggestion.createdAtUnix = now
  active : suspended = false
  awake : ∃ definition ∈ registry.definitions, definition.id = suggestion.routineId ∧
    isQuiet definition now = false

/-- What a turn or a loop of evaluations does to an engine that remembers its history. -/
structure Considered (registry : RoutineRegistry) (now : ℕ) (state state' : RoutineState)
    (history new : List RoutineSuggestion) : Prop where
  remembers : Remembers registry now state' (history ++ new)
  pruned : ∀ routineId, ∀ fired ∈ state'.recent routineId, withinDay now fired = true
  suspended : state'.suspended = state.suspended
  published : ∀ suggestion ∈ new, PublishedAt registry now state.suspended suggestion

theorem consider_considered (h : Remembers reg now state history)
    (hp : ∀ rtid, ∀ fired ∈ state.recent rtid, withinDay now fired)
    (hm : defn ∈ reg.definitions) (id : String) :
    Considered reg now state (consider state defn event false now id).1 history
      ((consider state defn event false now id).2.bind
        RoutineEvaluation.suggestion).toList := by
  have hi : Considered reg now state state history [] := ⟨by simpa using h, hp, rfl, by simp⟩
  unfold consider
  split
  · exact hi
  · split
    · exact hi
    · split
      · exact hi
      case h_2 hr =>
        obtain ⟨ha, hq, -⟩ := suppressionReason_eq_none hr
        refine ⟨h.publish hp hm hr id, ?_, rfl, ?_⟩
        · intro rtid fired hf
          simp only [false_eq_true, if_false, recent_publish, mem_append] at hf
          rcases hf with hf | hf
          · exact hp rtid fired hf
          · split at hf
            · obtain rfl := mem_singleton.mp hf
              simp [withinDay]
            · cases hf
        · intro sug hs
          obtain rfl := mem_singleton.mp hs
          exact ⟨rfl, ha, defn, hm, rfl, hq⟩

theorem considerAll_considered (h : Remembers reg now state history)
    (hp : ∀ rtid, ∀ fired ∈ state.recent rtid, withinDay now fired) {defs : List RoutineDefinition}
    (hm : ∀ d ∈ defs, d ∈ reg.definitions) (ids : String → String) :
    Considered reg now state (considerAll event false now ids defs state).1 history
      (suggestionsOf (considerAll event false now ids defs state).2) := by
  induction defs generalizing state history with
  | nil => exact ⟨by simpa [considerAll, suggestionsOf] using h, hp, rfl, by
      simp [considerAll, suggestionsOf]⟩
  | cons defn defs ih =>
    obtain ⟨hde, hd⟩ := forall_mem_cons.mp hm
    have ht : Considered reg now state
        (consider state defn event false now (ids defn.id)).1 history _ :=
      consider_considered h hp hde (ids defn.id)
    have hr := ih ht.remembers ht.pruned hd
    obtain ⟨evaluations, hok⟩ := considerAll_isOk hd event false now ids
      (consider state defn event false now (ids defn.id)).1
    simp only [considerAll, reg.valid defn hde]
    rw [hok] at hr ⊢
    have hn : suggestionsOf ((.ok evaluations : Except String _).map fun rest =>
        (consider state defn event false now (ids defn.id)).2.toList ++ rest) =
          ((consider state defn event false now (ids defn.id)).2.bind
            RoutineEvaluation.suggestion).toList ++ suggestionsOf (.ok evaluations) := by
      simp only [suggestionsOf, Except.map, filterMap_append]
      congr 1
      cases (consider state defn event false now (ids defn.id)).2 with
      | none => rfl
      | some found =>
        cases hs : found.suggestion <;> simp [hs]
    rw [hn]
    refine ⟨by rw [← append_assoc]; exact hr.remembers, hr.pruned,
      hr.suspended.trans ht.suspended, ?_⟩
    intro sug hsu
    rcases mem_append.mp hsu with hsu | hsu
    · exact ht.published sug hsu
    · rw [← ht.suspended]
      exact hr.published sug hsu

theorem considerAll_simulated (defs : List RoutineDefinition) (ids : String → String) :
    (considerAll event true now ids defs state).1 = state := by
  have ht (defn : RoutineDefinition) (id : String) :
      (consider state defn event true now id).1 = state := by
    unfold consider
    split
    · rfl
    · split
      · rfl
      · split <;> rfl
  induction defs with
  | nil => rfl
  | cons defn defs ih =>
    simp only [considerAll]
    split
    · rfl
    · simp only [ht, ih]

/-! Calls. -/

theorem Remembers.withSuggestions (h : Remembers reg now state history)
    (hk : ∀ (id : String) suggestion, suggestions[id]? = some suggestion →
      suggestion.id = id) (hs : suggestions.size ≤ state.suggestions.size) :
    Remembers reg now { state with suggestions } history :=
  ⟨h.past, h.recent, hk, hs.trans h.size, h.limits⟩

variable {upd : RoutineSuggestion → RoutineSuggestion}

theorem Remembers.modify (h : Remembers reg now state history) (hid : ∀ s, (upd s).id = s.id)
    (suggestionId : String) : Remembers reg now
      { state with suggestions := state.suggestions.modify suggestionId upd } history := by
  apply h.withSuggestions
  · intro key sug hg
    rw [Std.ExtTreeMap.getElem?_modify] at hg
    split at hg
    case isTrue heq =>
      obtain rfl := Std.LawfulEqCmp.eq_of_compare heq
      obtain ⟨pre, hp, rfl⟩ := Option.map_eq_some_iff.mp hg
      exact (hid pre).trans (h.keyed _ pre hp)
    case isFalse => exact h.keyed key sug hg
  · exact Std.ExtTreeMap.size_modify.le

theorem Remembers.claimPromotion (h : Remembers reg now state history) (suggestionId : String)
    :
    Remembers reg now (claimPromotion state now suggestionId).1 history := by
  have hp := h.prune
  simp only [FocalDesk.claimPromotion]
  split
  · exact hp
  case h_2 suggestion hg =>
    split
    · exact hp
    · apply hp.withSuggestions
      · intro key other ho
        rw [Std.ExtTreeMap.getElem?_insert] at ho
        split at ho
        case isTrue heq =>
          obtain rfl := Std.LawfulEqCmp.eq_of_compare heq
          cases ho
          exact hp.keyed _ suggestion hg
        case isFalse => exact hp.keyed key other ho
      · rw [Std.ExtTreeMap.size_insert, if_pos]
        exact Std.ExtTreeMap.contains_iff_mem.mpr (mem_of_getElem? hg)

/-- One call keeps the memory of the engine and publishes within its rules. -/
theorem perform_remembers (h : Remembers reg now state history) (hle : now ≤ call.now) :
    Remembers reg call.now (call.perform reg state).1
        (history ++ (call.perform reg state).2) ∧
      ∀ sug ∈ (call.perform reg state).2,
        PublishedAt reg call.now state.suspended sug := by
  have hn := h.mono hle
  cases hop : call.operation with
  | dispatch event ids =>
    simp only [perform, hop, evaluate]
    cases event.validate with
    | error error => exact ⟨by simpa [suggestionsOf] using hn, by simp [suggestionsOf]⟩
    | ok =>
      have hc : Considered reg call.now (pruneRoutines call.now state)
          (considerAll event false call.now ids reg.definitions
            (pruneRoutines call.now state)).1 history _ :=
        considerAll_considered hn.prune (fun rtid fired hm => by
          rw [recent_prune] at hm
          exact (mem_filter.mp hm).2) (fun _ hm => hm) ids
      exact ⟨hc.remembers, hc.published⟩
  | simulate event ids =>
    simp only [perform, hop, evaluate, append_nil]
    refine ⟨?_, by simp⟩
    cases event.validate with
    | error error => exact hn
    | ok =>
      simp only [considerAll_simulated]
      exact hn.prune
  | setSuspended suspended =>
    simp only [perform, hop, append_nil]
    exact ⟨⟨hn.past, hn.recent, hn.keyed, hn.size, hn.limits⟩, by simp⟩
  | snapshot =>
    simp only [perform, hop, append_nil]
    exact ⟨hn.prune, by simp⟩
  | dismiss suggestionId =>
    simp only [perform, hop, append_nil]
    refine ⟨?_, by simp⟩
    apply hn.modify
    intro sug
    rfl
  | claimPromotion suggestionId =>
    simp only [perform, hop, append_nil]
    exact ⟨hn.claimPromotion suggestionId, by simp⟩
  | releasePromotion suggestionId =>
    simp only [perform, hop, append_nil]
    refine ⟨?_, by simp⟩
    apply hn.modify
    intro sug
    rfl

theorem remembers_default (reg : RoutineRegistry) (now : ℕ) :
    Remembers reg now .default [] where
  past := by simp
  recent routineId later _ := by simp [RoutineState.recent, RoutineState.default, firingTimes]
  keyed id suggestion hget := by simp [RoutineState.default] at hget
  size := by simp [RoutineState.default]
  limits defn _ := ⟨by simp [firingTimes], fun start => by simp [firingTimes]⟩

/-- A list of calls under a clock that never goes back. -/
theorem calls_remember (h : Remembers reg now state history)
    (hs : ∀ call ∈ calls, now ≤ call.now) (hc : calls.Pairwise fun pre later => pre.now ≤ later.now)
    :
    ∃ last, Remembers reg last (afterCalls reg state calls)
        (history ++ published reg state calls) ∧
      (∀ lim, (∀ call ∈ calls, call.now ≤ lim) → now ≤ lim → last ≤ lim) := by
  induction calls generalizing state history now with
  | nil =>
    refine ⟨now, ?_, fun lim _ hn => hn⟩
    simpa [afterCalls, published] using h
  | cons call calls ih =>
    obtain ⟨hla, hc⟩ := pairwise_cons.mp hc
    obtain ⟨hst, -⟩ := perform_remembers h (hs call (by simp))
    obtain ⟨last, hl, hli⟩ := ih hst hla hc
    refine ⟨last, ?_, fun lim hca _ => ?_⟩
    · rw [append_assoc] at hl
      exact hl
    · obtain ⟨hcl, hca⟩ := forall_mem_cons.mp hca
      exact hli lim hca hcl

/-! Simulation. -/

/-- Engines that are the same once they are pruned. -/
def SameFrom (now : ℕ) (state state' : RoutineState) : Prop :=
  pruneRoutines now state = pruneRoutines now state'

theorem SameFrom.mono (h : SameFrom now state state') (hle : now ≤ later) :
    SameFrom later state state' := by
  unfold SameFrom at h ⊢
  rw [← prune_prune hle, h, prune_prune hle]

theorem prune_modify (he : ∀ s, (upd s).expiresAtUnix = s.expiresAtUnix) (suggestionId : String)
    :
    pruneRoutines now
        { state with suggestions := state.suggestions.modify suggestionId upd } =
      { pruneRoutines now state with
        suggestions := (pruneRoutines now state).suggestions.modify suggestionId upd } := by
  have hs : (state.suggestions.modify suggestionId upd).filter
        (fun _ sug => decide (now < sug.expiresAtUnix)) =
      (state.suggestions.filter
        fun _ sug => decide (now < sug.expiresAtUnix)).modify suggestionId
          upd := by
    apply Std.ExtTreeMap.ext_getElem?
    intro k
    simp only [Std.ExtTreeMap.getElem?_filter', Std.ExtTreeMap.getElem?_modify]
    split
    · cases state.suggestions[suggestionId]? with
      | none => rfl
      | some sug =>
        by_cases hl : now < sug.expiresAtUnix <;> simp [Option.filter, he, hl]
    · rfl
  simp only [pruneRoutines, hs]

/-- A call publishes the same, and leaves the same, on engines that are the same once pruned. -/
theorem perform_same (h : SameFrom now state state') (hle : now ≤ call.now) :
    (call.perform reg state).2 = (call.perform reg state').2 ∧
      SameFrom call.now (call.perform reg state).1 (call.perform reg state').1 := by
  have hn : pruneRoutines call.now state = pruneRoutines call.now state' := h.mono hle
  cases hop : call.operation with
  | dispatch event ids =>
    simp only [perform, hop, evaluate]
    cases event.validate with
    | error error => exact ⟨rfl, hn⟩
    | ok =>
      simp only [hn]
      exact ⟨trivial, rfl⟩
  | simulate event ids =>
    simp only [perform, hop, evaluate]
    refine ⟨trivial, ?_⟩
    cases event.validate with
    | error error => exact hn
    | ok =>
      simp only [hn]
      exact rfl
  | setSuspended suspended =>
    simp only [perform, hop]
    refine ⟨trivial, ?_⟩
    have : ({ pruneRoutines call.now state with suspended } : RoutineState) =
        { pruneRoutines call.now state' with suspended } := by rw [hn]
    exact this
  | snapshot =>
    simp only [perform, hop]
    exact ⟨trivial, by rw [hn]; rfl⟩
  | dismiss suggestionId =>
    simp only [perform, hop, dismiss]
    refine ⟨trivial, ?_⟩
    unfold SameFrom
    rw [prune_modify, prune_modify, hn]
    all_goals
      intro sug
      rfl
  | claimPromotion suggestionId =>
    simp only [perform, hop, claimPromotion, hn]
    exact ⟨trivial, rfl⟩
  | releasePromotion suggestionId =>
    simp only [perform, hop, releasePromotion]
    refine ⟨trivial, ?_⟩
    unfold SameFrom
    rw [prune_modify, prune_modify, hn]
    all_goals
      intro sug
      rfl

theorem published_same (h : SameFrom now state state') (hs : ∀ call ∈ calls, now ≤ call.now)
    (hc : calls.Pairwise fun pre later => pre.now ≤ later.now) :
    published reg state calls = published reg state' calls := by
  induction calls generalizing state state' now with
  | nil => rfl
  | cons call calls ih =>
    obtain ⟨hl, hc⟩ := pairwise_cons.mp hc
    obtain ⟨hsa, hn⟩ : (call.perform reg state).2 = (call.perform reg state').2 ∧ _ :=
      perform_same h (hs call (by simp))
    rw [published, published, hsa, ih hn hl hc]

theorem perform_simulate_same {ids : String → String} :
    SameFrom now (perform reg state ⟨now, .simulate event ids⟩).1 state := by
  simp only [perform, evaluate]
  cases event.validate with
  | error error => rfl
  | ok =>
    simp only [considerAll_simulated]
    exact prune_prune le_rfl

/-! Whole runs. -/

/-- Calls on a fresh engine under fixed definitions and a clock that never goes back. -/
structure RoutineRun where
  registry : RoutineRegistry
  calls : List RoutineCall
  clock : calls.Pairwise fun earlier later => earlier.now ≤ later.now

theorem afterCalls_append (pre after : List RoutineCall) :
    afterCalls reg state (pre ++ after) =
      afterCalls reg (afterCalls reg state pre) after := by
  induction pre generalizing state with
  | nil => rfl
  | cons call pre ih => exact ih

end FocalDesk
