import FocalDesk.Launcher.Calls
import FocalDesk.Text
import Mathlib.Data.List.DropRight

/-! Events of a calendar as text. -/
namespace FocalDesk.Ics
open Launcher List

structure IcsEvent where
  id : String
  title : String
  start : String
  finish : String
  organizer : String
deriving DecidableEq

def IcsEvent.default : IcsEvent :=
  { id := "", title := "", start := "", finish := "", organizer := "" }

/-- The properties that are read. -/
inductive IcsProperty where
  | uid
  | summary
  | dtstart
  | dtend
  | organizer

namespace IcsProperty

def name : IcsProperty → String
  | uid => "UID"
  | summary => "SUMMARY"
  | dtstart => "DTSTART"
  | dtend => "DTEND"
  | organizer => "ORGANIZER"

/-- The order in which a line is compared with them. -/
def all : List IcsProperty := [uid, summary, dtstart, dtend, organizer]

end IcsProperty

def IcsEvent.set (event : IcsEvent) (value : String) : IcsProperty → IcsEvent
  | .uid => { event with id := value }
  | .summary => { event with title := value }
  | .dtstart => { event with start := value }
  | .dtend => { event with finish := value }
  | .organizer => { event with organizer := value }

/-- The first colon of a line ends its key. -/
def propertyValue (line property : String) : Option String :=
  match line.toList.dropWhile (· ≠ ':') with
  | [] => none
  | _ :: value =>
    let key := String.ofList (line.toList.takeWhile (· ≠ ':'))
    if key = property ∨ startsWith key (property ++ ";") = true then some (String.ofList value)
    else none

def IcsEvent.readLine (event : IcsEvent) (line : String) : IcsEvent :=
  ((IcsProperty.all.findSome? fun property =>
    (propertyValue line property.name).map fun value => event.set value property)).getD event

/-- The events so far, and the one that is read. -/
def readLine (state : List IcsEvent × Option IcsEvent) (line : String) :
    List IcsEvent × Option IcsEvent :=
  if line = "BEGIN:VEVENT" then (state.1, some .default)
  else if line = "END:VEVENT" then
    (state.1 ++ (state.2.filter fun event => event.id ≠ "" && event.title ≠ "").toList, none)
  else (state.1, state.2.map fun event => event.readLine line)

def readLines (state : List IcsEvent × Option IcsEvent) (physical : List (List Char)) :
    List IcsEvent × Option IcsEvent :=
  (physical.map fun line => trim (String.ofList line)).foldl readLine state

def parseIcsEvents (text : String) : List IcsEvent :=
  (readLines ([], none) (lines [] text.toList)).1

/-! The format. -/

/-- A parameter; a quoted value may have delimiters in it. -/
structure Parameter where
  name : String
  value : String
  quoted : Bool
  plain : ∀ c ∈ name.toList, c ≠ ':' ∧ c ≠ ';'
  safe : quoted = false → ∀ c ∈ value.toList, c ≠ ':' ∧ c ≠ ';'

def Parameter.text (parameter : Parameter) : List Char :=
  ';' :: parameter.name.toList ++ '=' :: (if parameter.quoted then
    '"' :: parameter.value.toList ++ ['"'] else parameter.value.toList)

/-- A content line, and the pieces into which it is folded. -/
structure ContentLine where
  name : String
  parameters : List Parameter
  value : String
  pieces : List (List Char)

namespace ContentLine

def key (line : ContentLine) : List Char :=
  line.name.toList ++ line.parameters.flatMap Parameter.text

def text (line : ContentLine) : List Char := line.key ++ ':' :: line.value.toList

/-- The lines of the text; every piece but the first is put after a space. -/
def physical (line : ContentLine) : List (List Char) :=
  line.pieces.take 1 ++ (line.pieces.drop 1).map (' ' :: ·)

structure Folded (line : ContentLine) : Prop where
  named : ∀ c ∈ line.name.toList, c ≠ ':' ∧ c ≠ ';' ∧ isWhitespace c = false
  joined : line.pieces.flatten = line.text
  within : ∀ c ∈ line.text, c ≠ '\r' ∧ c ≠ '\n'

end ContentLine

/-- What a VEVENT has: one of its own properties that are read, another one, or an alarm. -/
inductive Part where
  | own (property : IcsProperty) (line : ContentLine)
  | other (line : ContentLine)
  | alarm (lines : List ContentLine)

namespace Part

def physical : Part → List (List Char)
  | own _ line => line.physical
  | other line => line.physical
  | alarm lines => "BEGIN:VALARM".toList :: lines.flatMap ContentLine.physical ++ ["END:VALARM".toList]

def WellFormed : Part → Prop
  | own property line => line.name = property.name ∧ line.Folded
  | other line => (∀ property : IcsProperty, line.name ≠ property.name) ∧
      line.name ≠ "BEGIN" ∧ line.name ≠ "END" ∧ line.Folded
  | alarm lines => ∀ line ∈ lines, line.name ≠ "BEGIN" ∧ line.name ≠ "END" ∧ line.Folded

/-- What a part says of its event. -/
def apply (event : IcsEvent) : Part → IcsEvent
  | own property line => event.set line.value property
  | _ => event

end Part

def eventOf (parts : List Part) : IcsEvent := parts.foldl Part.apply .default

def physicalEvent (parts : List Part) : List (List Char) :=
  "BEGIN:VEVENT".toList :: parts.flatMap Part.physical ++ ["END:VEVENT".toList]

def encode (events : List (List Part)) : String :=
  String.ofList (("BEGIN:VCALENDAR".toList :: events.flatMap physicalEvent ++
    ["END:VCALENDAR".toList]).flatMap (· ++ ['\r', '\n']))

/-- An event that is kept, in the format. -/
def Encodable (parts : List Part) : Prop :=
  (∀ part ∈ parts, part.WellFormed) ∧ (eventOf parts).id ≠ "" ∧ (eventOf parts).title ≠ ""

/-! What can be read. -/

/-- A line of the text that says nothing of the event. -/
def Foreign (line : String) : Prop :=
  line ≠ "BEGIN:VEVENT" ∧ line ≠ "END:VEVENT" ∧
    ∀ property : IcsProperty, propertyValue line property.name = none

/-- The own properties are not folded, have no colon in a parameter and no white space at their
ends; no line of an alarm and no continuation of another property reads as one of them. -/
def Part.Readable : Part → Prop
  | own _ line => line.pieces = [line.text] ∧ ':' ∉ line.key ∧
      ∀ c ∈ line.value.toList.getLast?, isWhitespace c = false
  | other line => ∀ piece ∈ line.pieces.drop 1, Foreign (trim (String.ofList (' ' :: piece)))
  | alarm lines => ∀ line ∈ lines.flatMap ContentLine.physical, Foreign (trim (String.ofList line))

variable {line : ContentLine} {ev : IcsEvent} {evs : List IcsEvent} {part : Part}
  {parts : List Part}

theorem lines_flatMap {physical : List (List Char)} (h : ∀ l ∈ physical, '\n' ∉ l) :
    lines [] (physical.flatMap (· ++ ['\r', '\n'])) = physical := by
  induction physical with
  | nil => rfl
  | cons l physical ih =>
    obtain ⟨hl, hp⟩ := forall_mem_cons.mp h
    have hn : ∀ c ∈ l ++ ['\r'], c ≠ '\n' := by
      intro c hc he
      rcases mem_append.mp hc with hc | hc
      · exact hl (he ▸ hc)
      · simp_all
    have hs : stripReturn ([] ++ (l ++ ['\r'])) = l := by simp [stripReturn]
    rw [flatMap_cons, append_assoc, cons_append, append_cons l, singleton_append,
      lines_append hn, hs, ih hp]

/-- White space is only taken from the end of a line that does not begin with it. -/
theorem trim_ofList {l : List Char} (h : ∀ c ∈ l.head?, isWhitespace c = false) :
    trim (String.ofList l) = String.ofList (l.rdropWhile isWhitespace) := by
  cases l with
  | nil => rfl
  | cons c l => simp [trim, rdropWhile, dropWhile_cons_of_neg, h c rfl]

theorem name_ne_semicolon (prop : IcsProperty) : ∀ c ∈ prop.name.toList, c ≠ ';' := by
  have hall : (prop.name.toList.all fun c => c ≠ ';') := by cases prop <;> decide
  simpa using hall

/-- A key is that of a property when its part before the parameters is. -/
theorem isKey_iff (prop : IcsProperty) (key : List Char) :
    (String.ofList key = prop.name ∨ startsWith (String.ofList key) (prop.name ++ ";")) ↔
    key.takeWhile (· ≠ ';') = prop.name.toList := by
  have hq : ∀ c ∈ prop.name.toList, decide (c ≠ ';') := fun c hc =>
    decide_eq_true (name_ne_semicolon prop c hc)
  constructor
  · rintro (h | h)
    · rw [← h, String.toList_ofList] at hq ⊢
      exact takeWhile_eq_self_iff.mpr hq
    · obtain ⟨t, ht⟩ : prop.name.toList ++ [';'] <+: key := by
        simpa [startsWith] using h
      rw [← ht, append_assoc, takeWhile_append_of_pos hq]
      simp
  · intro h
    have hk := takeWhile_append_dropWhile (p := fun c => decide (c ≠ ';')) (l := key)
    rw [h] at hk
    cases hd : key.dropWhile (· ≠ ';') with
    | nil => exact .inl (by rw [← hk, hd, append_nil, String.ofList_toList])
    | cons c t =>
      have hc : c = ';' := by
        have hh := head_dropWhile_not (p := fun c => decide (c ≠ ';')) (l := key)
          (by rw [hd]; exact cons_ne_nil _ _)
        simp only [hd, head_cons] at hh
        simpa using hh
      rw [hd, hc] at hk
      refine .inr ?_
      rw [startsWith, isPrefixOf_iff_prefix, String.toList_append, String.toList_ofList]
      exact ⟨t, by simpa using hk⟩

namespace ContentLine

theorem text_eq (line : ContentLine) : ∃ d rest, line.text = line.name.toList ++ d :: rest ∧
    (d = ':' ∨ d = ';') := by
  cases hp : line.parameters with
  | nil => exact ⟨':', line.value.toList, by simp [text, key, hp], .inl rfl⟩
  | cons parameter params =>
    exact ⟨';', parameter.text.tail ++ (params.flatMap Parameter.text ++ ':' :: line.value.toList),
      by simp [text, key, hp, Parameter.text], .inr rfl⟩

theorem Folded.key_eq (h : line.Folded) {d : Char} (hd : d = ':' ∨ d = ';') (rest : List Char) :
    ((line.name.toList ++ d :: rest).takeWhile (· ≠ ':')).takeWhile (· ≠ ';') =
      line.name.toList := by
  rw [takeWhile_append_of_pos fun c hc => decide_eq_true (h.named c hc).1,
    takeWhile_append_of_pos fun c hc => decide_eq_true (h.named c hc).2.1]
  rcases hd with rfl | rfl <;> simp

theorem Folded.of_prefix (h : line.Folded) {q : List Char} (hq : q <+: line.text) :
    ':' ∉ q ∨ (q.takeWhile (· ≠ ':')).takeWhile (· ≠ ';') = line.name.toList := by
  obtain ⟨d, rest, ht, hd⟩ := line.text_eq
  have hlong (hl : line.name.toList ++ [d] <+: q) :
      (q.takeWhile (· ≠ ':')).takeWhile (· ≠ ';') = line.name.toList := by
    obtain ⟨rest', rfl⟩ := hl
    rw [append_assoc, singleton_append, h.key_eq hd]
  rcases prefix_or_prefix_of_prefix hq (⟨rest, by simp [ht]⟩ : line.name.toList ++ [d] <+: _)
    with hs | hl
  · rcases prefix_concat_iff.mp hs with rfl | hs
    · exact .inr (hlong (prefix_refl _))
    · exact .inl fun hm => (h.named _ (hs.subset hm)).1 rfl
  · exact .inr (hlong hl)

/-- A prefix of a content line reads as no property but that of its name. -/
theorem Folded.propertyValue_eq_none (h : line.Folded) {q : List Char} {prop : IcsProperty}
    (hq : q <+: line.text) (hn : line.name ≠ prop.name) :
    propertyValue (String.ofList q) prop.name = none := by
  unfold propertyValue
  split
  case h_1 => rfl
  case h_2 c value hd =>
    refine if_neg fun hk => hn ?_
    have he := (isKey_iff prop _).mp hk
    rw [String.toList_ofList] at he hd
    rcases h.of_prefix hq with hc | hc
    · have hnil : q.dropWhile (· ≠ ':') = [] := dropWhile_eq_nil_iff.mpr fun c hm =>
        decide_eq_true fun hcolon => hc (hcolon ▸ hm)
      cases hd.symm.trans hnil
    · exact String.toList_inj.mp (hc.symm.trans he)

theorem Folded.not_marker (h : line.Folded) {q : List Char} (hq : q <+: line.text)
    (hb : line.name ≠ "BEGIN") (he : line.name ≠ "END") :
    String.ofList q ≠ "BEGIN:VEVENT" ∧ String.ofList q ≠ "END:VEVENT" := by
  constructor
  · intro hs
    obtain rfl : q = "BEGIN:VEVENT".toList := by rw [← hs, String.toList_ofList]
    rcases h.of_prefix hq with hc | hc
    · exact hc (by decide)
    · exact hb (String.toList_inj.mp (hc.symm.trans (by decide)))
  · intro hs
    obtain rfl : q = "END:VEVENT".toList := by rw [← hs, String.toList_ofList]
    rcases h.of_prefix hq with hc | hc
    · exact hc (by decide)
    · exact he (String.toList_inj.mp (hc.symm.trans (by decide)))

theorem propertyValue_text (h : line.Folded) (hc : ':' ∉ line.key) (prop : IcsProperty) :
    propertyValue (String.ofList line.text) prop.name =
      if line.name = prop.name then some line.value else none := by
  have hk : ∀ c ∈ line.key, decide (c ≠ ':') := fun c hm =>
    decide_eq_true fun he => hc (he ▸ hm)
  split
  case isTrue hn =>
    have hd : line.text.dropWhile (· ≠ ':') = ':' :: line.value.toList := by
      rw [text, dropWhile_append_of_pos hk]
      simp
    obtain ⟨d, rest, ht, hd'⟩ := line.text_eq
    rw [propertyValue, String.toList_ofList, hd]
    refine (if_pos ((isKey_iff prop _).mpr ?_)).trans (by rw [String.ofList_toList])
    rw [ht, h.key_eq hd', hn]
  case isFalse hn => exact h.propertyValue_eq_none (prefix_refl _) hn

end ContentLine

theorem readLine_own {prop : IcsProperty} (h : line.Folded) (hc : ':' ∉ line.key)
    (hn : line.name = prop.name) :
    ev.readLine (String.ofList line.text) = ev.set line.value prop := by
  simp only [IcsEvent.readLine, IcsProperty.all, findSome?_cons, line.propertyValue_text h hc, hn]
  cases prop <;> simp [IcsProperty.name]

theorem Foreign.readLine {l : String} (h : Foreign l) :
    readLine (evs, some ev) l = (evs, some ev) := by
  simp [Ics.readLine, h.1, h.2.1, IcsEvent.readLine, IcsProperty.all, h.2.2]

theorem readLines_append (st : List IcsEvent × Option IcsEvent) (ls ls' : List (List Char)) :
    readLines st (ls ++ ls') = readLines (readLines st ls) ls' := by
  simp [readLines]

theorem readLines_foreign {ls : List (List Char)} (h : ∀ l ∈ ls, Foreign (trim (String.ofList l))) :
    readLines (evs, some ev) ls = (evs, some ev) := by
  induction ls with
  | nil => rfl
  | cons l ls ih =>
    obtain ⟨hl, hs⟩ := forall_mem_cons.mp h
    simpa [readLines, hl.readLine] using ih hs

theorem ContentLine.Folded.head (h : line.Folded) {q : List Char} (hq : q <+: line.text) :
    ∀ c ∈ q.head?, isWhitespace c = false := by
  intro c hc
  obtain ⟨d, rest, ht, hd⟩ := line.text_eq
  have hc : line.text.head? = some c := by
    obtain ⟨t, ht⟩ := hq
    cases q with
    | nil => cases hc
    | cons c' q => simpa [← ht] using hc
  rw [ht] at hc
  cases hn : line.name.toList with
  | nil =>
    obtain rfl : d = c := by simpa [hn] using hc
    rcases hd with rfl | rfl <;> rfl
  | cons c' n =>
    obtain rfl : c' = c := by simpa [hn] using hc
    exact (h.named c' (hn ▸ mem_cons_self)).2.2

theorem readLines_own {prop : IcsProperty} (hn : line.name = prop.name) (hf : line.Folded)
    (h : (Part.own prop line).Readable) :
    readLines (evs, some ev) line.physical = (evs, some (ev.set line.value prop)) := by
  obtain ⟨hp, hc, hv⟩ := h
  have ht : trim (String.ofList line.text) = String.ofList line.text := by
    rw [trim_ofList (hf.head (prefix_refl _)), rdropWhile_eq_self_iff.mpr]
    intro hne
    have hl : line.text.getLast? = line.value.toList.getLast?.or (some ':') := by
      rw [ContentLine.text, append_cons, getLast?_append]
      simp
    rw [getLast?_eq_some_getLast hne] at hl
    cases hg : line.value.toList.getLast? with
    | none =>
      have hcolon : line.text.getLast hne = ':' := by simpa [hg] using hl
      rw [hcolon]
      decide
    | some c =>
      have hlast : line.text.getLast hne = c := by simpa [hg] using hl
      simpa [hlast] using hv c hg
  obtain ⟨hb, he⟩ := hf.not_marker (prefix_refl _) (by rw [hn]; cases prop <;> decide)
    (by rw [hn]; cases prop <;> decide)
  simp [ContentLine.physical, hp, readLines, ht, readLine, hb, he, readLine_own hf hc hn]

theorem readLines_part (hw : part.WellFormed) (h : part.Readable) :
    readLines (evs, some ev) part.physical = (evs, some (part.apply ev)) := by
  cases part with
  | own prop line => exact readLines_own hw.1 hw.2 h
  | other line =>
    obtain ⟨hn, hb, he, hf⟩ := hw
    refine readLines_foreign fun l hl => ?_
    rcases mem_append.mp hl with hl | hl
    · have hq : l <+: line.text := by
        cases hp : line.pieces with
        | nil => simp [hp] at hl
        | cons q qs =>
          obtain rfl : l = q := by simpa [hp] using hl
          exact ⟨qs.flatten, by rw [← hf.joined, hp, flatten_cons]⟩
      have hq' := (List.rdropWhile_prefix isWhitespace (l := l)).trans hq
      rw [trim_ofList (hf.head hq)]
      exact ⟨(hf.not_marker hq' hb he).1, (hf.not_marker hq' hb he).2, fun prop =>
        hf.propertyValue_eq_none hq' (hn prop)⟩
    · obtain ⟨piece, hp, rfl⟩ := List.mem_map.mp hl
      exact h piece hp
  | alarm ls =>
    refine readLines_foreign fun l hl => ?_
    simp only [Part.physical, cons_append, mem_cons, mem_append, not_mem_nil,
      or_false] at hl
    rcases hl with rfl | hl | rfl
    · exact ⟨by decide, by decide, fun prop => by cases prop <;> decide⟩
    · exact h l hl
    · exact ⟨by decide, by decide, fun prop => by cases prop <;> decide⟩

theorem readLines_parts (hw : ∀ part ∈ parts, part.WellFormed) (h : ∀ part ∈ parts, part.Readable) :
    readLines (evs, some ev) (parts.flatMap Part.physical) =
      (evs, some (parts.foldl Part.apply ev)) := by
  induction parts generalizing ev with
  | nil => rfl
  | cons part parts ih =>
    obtain ⟨hw, hws⟩ := forall_mem_cons.mp hw
    obtain ⟨hr, hrs⟩ := forall_mem_cons.mp h
    rw [flatMap_cons, readLines_append, readLines_part hw hr, ih hws hrs, foldl_cons]

theorem readLines_event (he : Encodable parts) (h : ∀ part ∈ parts, part.Readable)
    (cur : Option IcsEvent) :
    readLines (evs, cur) (physicalEvent parts) = (evs ++ [eventOf parts], none) := by
  obtain ⟨hw, hid, htitle⟩ := he
  have hbegin : readLines (evs, cur) ["BEGIN:VEVENT".toList] = (evs, some .default) := rfl
  have hend : readLines (evs, some (eventOf parts)) ["END:VEVENT".toList] =
      (evs ++ [eventOf parts], none) := by
    have ht : trim "END:VEVENT" = "END:VEVENT" := by decide
    simp [readLines, ht, readLine, hid, htitle]
  rw [physicalEvent, cons_append, ← singleton_append, readLines_append, hbegin,
    readLines_append, readLines_parts hw h]
  exact hend

theorem readLines_events {enc : List (List Part)} (he : ∀ parts ∈ enc, Encodable parts)
    (h : ∀ parts ∈ enc, ∀ part ∈ parts, part.Readable) :
    readLines (evs, none) (enc.flatMap physicalEvent) = (evs ++ enc.map eventOf, none) := by
  induction enc generalizing evs with
  | nil => simp [readLines]
  | cons parts enc ih =>
    obtain ⟨hp, hps⟩ := forall_mem_cons.mp he
    obtain ⟨hr, hrs⟩ := forall_mem_cons.mp h
    rw [flatMap_cons, readLines_append, readLines_event hp hr, ih hps hrs, map_cons,
      append_assoc, singleton_append]

theorem ContentLine.Folded.no_newline (h : line.Folded) {l : List Char} (hl : l ∈ line.physical) :
    '\n' ∉ l := by
  intro hm
  have hp {piece : List Char} (hp : piece ∈ line.pieces) : '\n' ∉ piece := fun hm =>
    (h.within _ (h.joined ▸ mem_flatten.mpr ⟨piece, hp, hm⟩)).2 rfl
  rcases mem_append.mp hl with hl | hl
  · exact hp (mem_of_mem_take hl) hm
  · obtain ⟨piece, hmem, rfl⟩ := List.mem_map.mp hl
    exact hp (mem_of_mem_drop hmem) (by simpa using hm)

theorem Part.WellFormed.no_newline (hw : part.WellFormed) {l : List Char} (hl : l ∈ part.physical) :
    '\n' ∉ l := by
  cases part with
  | own prop line => exact hw.2.no_newline hl
  | other line => exact hw.2.2.2.no_newline hl
  | alarm ls =>
    simp only [Part.physical, cons_append, mem_cons, mem_append, not_mem_nil,
      or_false, mem_flatMap] at hl
    rcases hl with rfl | ⟨line, hm, hl⟩ | rfl
    · decide
    · exact (hw line hm).2.2.no_newline hl
    · decide

/-- A line without parameters that is not folded. -/
def ContentLine.single (name value : String) : ContentLine :=
  { name, parameters := [], value, pieces := [name.toList ++ ':' :: value.toList] }

theorem folded_single {name v : String} (h : (name.toList.all fun c => c ≠ ':' && c ≠ ';' &&
      c ≠ '\r' && c ≠ '\n' && !isWhitespace c))
    (hv : (v.toList.all fun c => c ≠ '\r' && c ≠ '\n')) :
    (ContentLine.single name v).Folded := by
  simp only [all_eq_true, Bool.and_eq_true, decide_eq_true_eq, Bool.not_eq_true'] at h hv
  refine ⟨fun c hc => ⟨(h c hc).1.1.1.1, (h c hc).1.1.1.2, (h c hc).2⟩, ?_, fun c hc => ?_⟩
  · simp [ContentLine.single, ContentLine.text, ContentLine.key]
  · have hc : c ∈ name.toList ∨ c = ':' ∨ c ∈ v.toList := by
      simpa [ContentLine.single, ContentLine.text, ContentLine.key] using hc
    rcases hc with hc | rfl | hc
    · exact ⟨(h c hc).1.1.2, (h c hc).1.2⟩
    · decide
    · exact hv c hc

theorem ends_plain {v : List Char}
    (h : (v.getLast?.all fun c => !isWhitespace c)) :
    ∀ c ∈ v.getLast?, isWhitespace c = false := by
  intro c hc
  rw [Option.mem_def.mp hc] at h
  simpa using h

def remindedMeeting : List Part :=
  [.own .uid (.single "UID" "1"), .own .summary (.single "SUMMARY" "a"),
    .alarm [.single "SUMMARY" "b"]]

theorem encodable_remindedMeeting : Encodable remindedMeeting := by
  refine ⟨?_, by decide, by decide⟩
  intro part hm
  simp only [remindedMeeting, mem_cons, not_mem_nil, or_false] at hm
  rcases hm with rfl | rfl | rfl
  · exact ⟨rfl, folded_single (by decide) (by decide)⟩
  · exact ⟨rfl, folded_single (by decide) (by decide)⟩
  · intro line hl
    obtain rfl := mem_singleton.mp hl
    exact ⟨by decide, by decide, folded_single (by decide) (by decide)⟩

/-- The event without its alarm. -/
def plainMeeting : List Part := remindedMeeting.take 2

end FocalDesk.Ics
