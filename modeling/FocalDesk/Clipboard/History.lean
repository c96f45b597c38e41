import FocalDesk.Library.Transition
import Mathlib.Algebra.Order.Ring.Nat
import Mathlib.Data.List.Nodup

/-! The clipboard history, in memory and on disk. -/
namespace FocalDesk.Clipboard
open Library List

def maxEntries : ℕ := 50

def retentionSecs : ℕ := 30 * 24 * 60 * 60

structure ClipboardEntry where
  id : ℕ
  mimeType : String
  text : String
  timestampSecs : ℕ
deriving DecidableEq

structure ClipboardHistory where
  entries : List ClipboardEntry
  nextId : ℕ
deriving DecidableEq

/-- The entry is neither too old nor too far in the future. -/
def ClipboardEntry.keeps (nowSecs : ℕ) (entry : ClipboardEntry) : Bool :=
  nowSecs - entry.timestampSecs ≤ retentionSecs &&
    entry.timestampSecs ≤ min (nowSecs + 24 * 60 * 60) (2 ^ 64 - 1)

namespace ClipboardHistory

def empty : ClipboardHistory := ⟨[], 0⟩

variable (history : ClipboardHistory)

def pruneAt (nowSecs : ℕ) : ClipboardHistory × Bool :=
  let entries := history.entries.filter (ClipboardEntry.keeps nowSecs)
  ({ history with entries }, entries.length ≠ history.entries.length)

/-- The first entries, and one more. Ids are numbers of 64 bits. -/
def insert (mimeType text : String) (nowSecs : ℕ) : ClipboardHistory where
  entries := (⟨history.nextId, mimeType, text, nowSecs⟩ :: history.entries).take maxEntries
  nextId := (history.nextId + 1) % 2 ^ 64

end ClipboardHistory

/-- The history in memory, and the file once there is one. -/
structure ClipboardStore where
  memory : ClipboardHistory
  file : Option ClipboardHistory
deriving DecidableEq

namespace ClipboardStore

variable (store : ClipboardStore)

/-- What a file that was saved reads as, and a missing one. -/
def onDisk : ClipboardHistory := store.file.getD .empty

def save : ClipboardStore := { store with file := some store.memory }

/-- The clock is read for the pruning and for the new entry. -/
def push (pruneSecs nowSecs : ℕ) (mimeType text : String) : ClipboardStore × ℕ :=
  let history := (store.memory.pruneAt pruneSecs).1
  match history.entries.head? with
  | some front =>
    if front.text = text then ({ store with memory := history }, front.id)
    else (save { store with memory := history.insert mimeType text nowSecs }, history.nextId)
  | none => (save { store with memory := history.insert mimeType text nowSecs }, history.nextId)

def get (id : ℕ) : Option ClipboardEntry := store.memory.entries.find? fun entry => entry.id = id

def remove (id : ℕ) : ClipboardStore :=
  save { store with memory := { store.memory with
    entries := store.memory.entries.filter fun entry => entry.id ≠ id } }

def clear : ClipboardStore :=
  save { store with memory := { store.memory with entries := [] } }

def load (nowSecs : ℕ) : ClipboardStore :=
  let pruned := store.onDisk.pruneAt nowSecs
  if pruned.2 then save { store with memory := pruned.1 } else { store with memory := pruned.1 }

end ClipboardStore

/-! Runs. -/

/-- A store with all entries that were pushed, the newest first. -/
structure ClipboardRun where
  store : ClipboardStore
  pushed : List ClipboardEntry
deriving DecidableEq

inductive ClipboardEvent where
  | load (nowSecs : ℕ)
  | push (pruneSecs nowSecs : ℕ) (mimeType text : String)
  | remove (id : ℕ)
  | clear

namespace ClipboardRun

def start : ClipboardRun := ⟨⟨.empty, none⟩, []⟩

/-- The newest entry has the text already. -/
def repeats (store : ClipboardStore) (pruneSecs : ℕ) (text : String) : Bool :=
  (store.memory.pruneAt pruneSecs).1.entries.head?.any fun front => front.text = text

def step (run : ClipboardRun) : ClipboardEvent → Option ClipboardRun
  | .load nowSecs => some { run with store := run.store.load nowSecs }
  | .push pruneSecs nowSecs mimeType text => some
      { store := (run.store.push pruneSecs nowSecs mimeType text).1
        pushed := if repeats run.store pruneSecs text then run.pushed
          else ⟨run.store.memory.nextId, mimeType, text, nowSecs⟩ :: run.pushed }
  | .remove id => some { run with store := run.store.remove id }
  | .clear => some { run with store := run.store.clear }

/-- A push of the newest text again finds nothing to prune, and a push of another text an id that
no entry has. -/
def KeepsFile (run : ClipboardRun) : ClipboardEvent → Prop
  | .push pruneSecs _ _ text =>
    if repeats run.store pruneSecs text = true then
      ∀ entry ∈ run.store.memory.entries, entry.keeps pruneSecs = true
    else ∀ entry ∈ run.store.memory.entries, entry.id ≠ run.store.memory.nextId
  | _ => True

instance (run : ClipboardRun) : (event : ClipboardEvent) → Decidable (run.KeepsFile event)
  | .push _ _ _ _ => inferInstanceAs (Decidable (ite _ _ _))
  | .load _ => isTrue trivial
  | .remove _ => isTrue trivial
  | .clear => isTrue trivial

/-- The entries are a few of those that were pushed, and the file has them. -/
structure Exact (run : ClipboardRun) : Prop where
  distinct : (run.store.memory.entries.map ClipboardEntry.id).Nodup
  limit : run.store.memory.entries.length ≤ maxEntries
  newestFirst : run.store.memory.entries.Sublist run.pushed
  file : run.store.onDisk = run.store.memory

variable {run next : ClipboardRun} {ev : ClipboardEvent}

variable {history : ClipboardHistory}

/-- Entries are dropped and the rest is saved. -/
theorem Exact.dropped (h : run.Exact) (he : history.entries.Sublist run.store.memory.entries) :
    Exact { run with store := ClipboardStore.save { run.store with memory := history } } where
  distinct := h.distinct.sublist (he.map _)
  limit := Nat.le_trans he.length_le h.limit
  newestFirst := he.trans h.newestFirst
  file := rfl

variable {nowSecs : ℕ}

theorem pruneAt_of_forall (h : ∀ e ∈ history.entries, e.keeps nowSecs) :
    history.pruneAt nowSecs = (history, false) := by
  simp [ClipboardHistory.pruneAt, filter_eq_self.mpr h]

theorem pruneAt_of_not_pruned (h : (history.pruneAt nowSecs).2 = false)
    : (history.pruneAt nowSecs).1 = history := by
  have hl : (history.entries.filter (ClipboardEntry.keeps nowSecs)).length =
      history.entries.length := by
    simpa [ClipboardHistory.pruneAt] using h
  have hf := filter_sublist.eq_of_length hl
  simp only [ClipboardHistory.pruneAt, hf]

theorem Exact.load (h : run.Exact) (nowSecs : ℕ) :
    Exact { run with store := run.store.load nowSecs } := by
  unfold ClipboardStore.load
  rw [h.file]
  dsimp only
  split
  · exact h.dropped filter_sublist
  · rename_i hp
    rw [pruneAt_of_not_pruned (Bool.eq_false_iff.mpr hp)]
    exact h

/-- What a push does, by whether the newest entry has the text. -/
theorem push_cases (store : ClipboardStore) (pruneSecs nowSecs : ℕ) (mimeType text : String) :
    (store.push pruneSecs nowSecs mimeType text).1 =
      if repeats store pruneSecs text then
        { store with memory := (store.memory.pruneAt pruneSecs).1 }
      else ClipboardStore.save { store with
        memory := (store.memory.pruneAt pruneSecs).1.insert mimeType text nowSecs } := by
  unfold ClipboardStore.push repeats
  dsimp only
  cases (store.memory.pruneAt pruneSecs).1.entries.head? with
  | none => rfl
  | some front =>
    by_cases ht : front.text = text
    · simp [ht]
    · simp [ht]

theorem Exact.push (h : run.Exact) {pruneSecs : ℕ} {mimeType text : String}
    (hk : run.KeepsFile (.push pruneSecs nowSecs mimeType text))
    (hs : run.step (.push pruneSecs nowSecs mimeType text) = some next) : next.Exact := by
  cases hs
  rw [push_cases]
  simp only [KeepsFile] at hk
  by_cases hr : repeats run.store pruneSecs text
  · rw [if_pos hr] at hk
    rw [if_pos hr, if_pos hr, pruneAt_of_forall hk]
    exact h
  · rw [if_neg hr] at hk
    rw [if_neg hr, if_neg hr]
    have hp : (run.store.memory.pruneAt pruneSecs).1.entries.Sublist
        run.store.memory.entries := filter_sublist
    have hd : ((⟨run.store.memory.nextId, mimeType, text, nowSecs⟩ ::
        (run.store.memory.pruneAt pruneSecs).1.entries).map ClipboardEntry.id).Nodup := by
      refine nodup_cons.mpr ⟨?_, h.distinct.sublist (hp.map _)⟩
      intro hm
      obtain ⟨e, he, hid⟩ := mem_map.mp hm
      exact hk e (hp.subset he) hid
    refine ⟨?_, ?_, ?_, rfl⟩
    · exact hd.sublist ((take_sublist _ _).map _)
    · exact length_take_le _ _
    · exact (take_sublist _ _).trans ((hp.trans h.newestFirst).cons_cons _)

theorem step_exact (hs : run.step ev = some next) (hk : run.KeepsFile ev) (h : run.Exact)
    : next.Exact := by
  cases ev with
  | load nowSecs =>
    cases hs
    exact h.load nowSecs
  | push pruneSecs nowSecs mimeType text => exact h.push hk hs
  | remove id =>
    cases hs
    exact h.dropped filter_sublist
  | clear =>
    cases hs
    exact h.dropped (nil_sublist _)

theorem exact_start : start.Exact :=
  ⟨nodup_nil, Nat.zero_le _, List.Sublist.refl _, rfl⟩

/-- The entry that a push adds differs in its text from the one below. -/
theorem push_text_ne {pruneSecs : ℕ} {mimeType text : String}
    (hs : run.step (.push pruneSecs nowSecs mimeType text) = some next)
    (hn : repeats run.store pruneSecs text = false) : ∃ rest, next.store.memory.entries =
        ⟨run.store.memory.nextId, mimeType, text, nowSecs⟩ :: rest ∧
      ∀ below ∈ rest.head?, below.text ≠ text := by
  cases hs
  rw [push_cases, if_neg (Bool.eq_false_iff.mp hn)]
  refine ⟨(run.store.memory.pruneAt pruneSecs).1.entries.take 49, rfl, ?_⟩
  intro below hb ht
  have hh : (run.store.memory.pruneAt pruneSecs).1.entries.head? = some below := by
    rw [head?_take, if_neg (by decide)] at hb
    exact hb
  simp [repeats, hh, ht] at hn

end ClipboardRun

open ClipboardRun

/-- Two texts, of which one is too old at the next push. -/
def samplePushes : List ClipboardEvent :=
  [.load 0, .push 0 0 "text/plain" "a", .push 2592000 2592000 "text/plain" "b",
    .push 2592001 2592001 "text/plain" "c"]

end FocalDesk.Clipboard
