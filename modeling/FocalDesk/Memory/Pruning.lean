import FocalDesk.Memory.Store

/-! Both ways of pruning keep the newest memories. -/
namespace FocalDesk.Memory
open Library List

variable {rows kept : List MemoryRow} {row other : MemoryRow} {policy : MemoryPolicy} {now : ℤ}

theorem MemoryRow.older_total (row other : MemoryRow) : row.Older other ∨ other.Older row := by
  obtain h | h | h := lt_trichotomy row.createdAtUnix other.createdAtUnix
  · exact .inl (.inl h)
  · exact (le_total row.id other.id).imp (fun hid => .inr ⟨h, hid⟩) fun hid => .inr ⟨h.symm, hid⟩
  · exact .inr (.inl h)

theorem MemoryRow.Older.trans {third : MemoryRow} (h : row.Older other) (h' : other.Older third) :
    row.Older third := by
  obtain h | ⟨h, hid⟩ := h <;> obtain h' | ⟨h', hid'⟩ := h'
  · exact .inl (h.trans h')
  · exact .inl (h'  ▸ h)
  · exact .inl (h ▸ h')
  · exact .inr ⟨h.trans h', hid.trans hid'⟩

instance : Std.Total MemoryRow.Older := ⟨MemoryRow.older_total⟩

instance : IsTrans MemoryRow MemoryRow.Older := ⟨fun _ _ _ => MemoryRow.Older.trans⟩

/-- What the policy leaves of some rows: the newest of those that have not expired. -/
structure KeepsNewest (policy : MemoryPolicy) (now : ℤ) (rows kept : List MemoryRow) : Prop where
  sublist : kept.Sublist (rows.filter fun row => !row.expired now)
  length : kept.length = (policy.maxEntries.elim id min)
    (rows.filter fun row => !row.expired now).length
  newest : ∀ row ∈ rows, row.expired now = false → row ∉ kept → ∀ other ∈ kept, row.Older other

/-- The rows that remain when the oldest ones beyond the limit are deleted. -/
def withoutExcess (policy : MemoryPolicy) (rows : List MemoryRow) : List MemoryRow :=
  rows.filter fun row => row.id ∉ excessIds policy rows

theorem keepsNewest_withoutExcess (hi : (rows.map MemoryRow.id).Nodup) :
    KeepsNewest policy now rows (withoutExcess policy (rows.filter fun row => !row.expired now)) := by
  set live := rows.filter fun row => !row.expired now with hl
  have hli : (live.map MemoryRow.id).Nodup := hi.sublist (filter_sublist.map _)
  cases hm : policy.maxEntries with
  | none =>
    have ha : withoutExcess policy live = live := by simp [withoutExcess, excessIds, hm]
    rw [ha]
    refine ⟨List.Sublist.refl _, by simp [hm, ← hl], fun row hr he hg => ?_⟩
    exact absurd (mem_filter.mpr ⟨hr, by simp [he]⟩) hg
  | some maxEntries =>
    set sorted := live.insertionSort MemoryRow.Older with hs
    set excess := live.length - maxEntries with hex
    have hp : sorted.Perm live := perm_insertionSort _ _
    have hpa : (sorted.take excess ++ sorted.drop excess).Pairwise MemoryRow.Older := by
      rw [take_append_drop]
      exact pairwise_insertionSort _ _
    have hg : excessIds policy live = (sorted.take excess).map MemoryRow.id := by
      simp only [excessIds, hm, hs, hex]
    have hn : (sorted.map MemoryRow.id).Nodup := (hp.map _).nodup_iff.mpr hli
    have hk : (withoutExcess policy live).Perm (sorted.drop excess) := by
      have hsp : sorted.filter (fun row => row.id ∉ excessIds policy live) =
          sorted.drop excess := by
        conv_lhs => rw [← take_append_drop excess sorted]
        rw [filter_append, filter_eq_nil_iff.mpr, filter_eq_self.mpr, nil_append]
        · intro row hr
          rw [hg, map_take]
          refine decide_eq_true fun hid => disjoint_take_drop hn le_rfl hid ?_
          rw [← map_drop]
          exact mem_map_of_mem hr
        · intro row hr hst
          exact of_decide_eq_true hst (hg ▸ mem_map_of_mem hr)
      exact hsp ▸ hp.symm.filter _
    refine ⟨filter_sublist, ?_, fun row hr he hrg other ho => ?_⟩
    · rw [hk.length_eq, length_drop, hp.length_eq, hm]
      simp only [Option.elim_some, ← hl, hex]
      omega
    · have hme : row ∈ sorted.take excess ++ sorted.drop excess := by
        rw [take_append_drop, hp.mem_iff, hl]
        exact mem_filter.mpr ⟨hr, by simp [he]⟩
      have ht := (mem_append.mp hme).resolve_right fun h => hrg (hk.mem_iff.mpr h)
      exact (pairwise_append.mp hpa).2.2 row ht other (hk.mem_iff.mp ho)

section Paths
variable {db : MemoryDb}

theorem filter_not_expired (hi : db.allIds.Nodup) :
    (db.memories.filter fun row =>
      row.id ∉ (db.memories.filter (MemoryRow.expired now)).map MemoryRow.id) =
        db.memories.filter fun row => !row.expired now := by
  refine filter_congr fun row hr => ?_
  rw [Bool.eq_iff_iff, decide_eq_true_iff, Bool.not_eq_true', ← Bool.not_eq_true]
  refine not_congr ⟨fun h => ?_, fun h => mem_map_of_mem (mem_filter.mpr ⟨hr, h⟩)⟩
  obtain ⟨other, ho, hid⟩ := mem_map.mp h
  obtain ⟨hm, he⟩ := mem_filter.mp ho
  exact inj_on_of_nodup_map hi hm hr hid ▸ he

theorem memories_pruneLocked (hi : db.allIds.Nodup) (sqliteVectors : Bool) :
    (db.pruneLocked policy now sqliteVectors).memories =
      withoutExcess policy (db.memories.filter fun row => !row.expired now) := by
  cases sqliteVectors <;> exact congrArg (withoutExcess policy) (filter_not_expired hi)

theorem memories_delete_expiredAndExcess (hi : db.allIds.Nodup) :
    (db.memories.filter fun row => row.id ∉ expiredAndExcessIds policy now db) =
      withoutExcess policy (db.memories.filter fun row => !row.expired now) := by
  rw [withoutExcess, ← filter_not_expired hi, filter_filter]
  refine filter_congr fun row _ => ?_
  rw [← Bool.decide_and, filter_not_expired hi, decide_eq_decide]
  simp only [expiredAndExcessIds, mem_dedup, mem_insertionSort, mem_append]
  tauto

end Paths

/-- With distinct ids and a sidecar that serves, both ways of pruning leave the same rows: of those
that have not expired the newest, as many as the limit allows. -/
theorem prunings_agree (policy : MemoryPolicy) (now : ℤ) (collection : String) (world : World)
    (sqliteVectors : Bool) (hids : world.db.allIds.Nodup) : ∃ after,
      pruneBackendLocked true policy now (.focalVector collection) world = .ok after ∧
        after.db.memories = (world.db.pruneLocked policy now sqliteVectors).memories ∧
          KeepsNewest policy now world.db.memories after.db.memories := by
  have hp : ∃ after,
      pruneBackendLocked true policy now (.focalVector collection) world = .ok after ∧
        after.db.memories = world.db.memories.filter fun row =>
          row.id ∉ expiredAndExcessIds policy now world.db := by
    simp only [pruneBackendLocked, deleteFromBackend]
    split <;> exact ⟨_, rfl, rfl⟩
  obtain ⟨after, ha, hr⟩ := hp
  rw [memories_delete_expiredAndExcess hids] at hr
  refine ⟨after, ha, hr.trans (memories_pruneLocked hids sqliteVectors).symm, ?_⟩
  exact hr ▸ keepsNewest_withoutExcess hids

/-- A row that has expired and two that are as old as each other. -/
def agingWorld : World :=
  let row (id : MemoryId) (expires : Option ℤ) : MemoryRow := ⟨id, "a", .null, 7, expires⟩
  ⟨{ MemoryDb.empty with memories := [row 1 none, row 2 (some 8), row 3 none] }, fun _ => none⟩

theorem prunings_agree_sample : ∃ after,
    pruneBackendLocked true ⟨none, some 1⟩ 9 (.focalVector "m") agingWorld = .ok after ∧
      after.db.memories = (agingWorld.db.pruneLocked ⟨none, some 1⟩ 9 true).memories ∧
        KeepsNewest ⟨none, some 1⟩ 9 agingWorld.db.memories after.db.memories :=
  prunings_agree ⟨none, some 1⟩ 9 "m" agingWorld true (by decide)

end FocalDesk.Memory
