import BinderTracer.App.BinderEvent
import BinderTracer.Lib.Like
import Mathlib.Data.Finset.Card

/-!
# The live filter

`EventFilter` and `EventRepository.emitSnapshot`: which events of the memory window the list shows. The
tables of cases and of white space are those of the Java library, and are parameters.
-/

namespace BinderTracer.App

open BinderTracer.Lib

/-! ### Buckets -/

/-- `CoverageBucket`. -/
inductive CoverageBucket where
  | aidl | hidl | reply | special | unknown
deriving DecidableEq, Repr

def CoverageBucket.of : DecodeSource → CoverageBucket
  | .aidlQ | .aidlP | .aidlO => .aidl
  | .hidlDescriptor => .hidl
  | .reply => .reply
  | .specialCode => .special
  | .targetRef | .rawAscii => .unknown

/-! ### Texts -/

/-- The Java library's tables of characters. -/
structure CharTables where
  toUpperCase : Char → Char
  toLowerCase : Char → Char
  isWhitespace : Char → Bool
  newline_isWhitespace : isWhitespace '\n' = true

namespace CharTables
variable (tables : CharTables)

/-- The test of `String.regionMatches` on two characters, with `ignoreCase`. -/
def same (c d : Char) : Bool :=
  c = d || tables.toUpperCase c = tables.toUpperCase d ||
    tables.toLowerCase (tables.toUpperCase c) = tables.toLowerCase (tables.toUpperCase d)

theorem same_self (c : Char) : tables.same c c = true := by
  simp [same]

def isBlank (text : String) : Bool := text.toList.all tables.isWhitespace

/-- `s.contains(text, ignoreCase = true)`. -/
def contains (s text : String) : Bool := holdsText tables.same text.toList s.toList

variable {tables}

theorem toList_ne_nil_of_not_isBlank {text : String} (h : tables.isBlank text = false) : text.toList ≠ [] := by
  intro hnil
  rw [isBlank, hnil] at h
  exact nomatch h

/-- A text that is not blank is in no empty text. -/
theorem contains_empty {text : String} (h : tables.isBlank text = false) : tables.contains "" text = false := by
  rw [← Bool.not_eq_true]
  intro hc
  have hlen := length_le_of_holdsText _ hc
  exact toList_ne_nil_of_not_isBlank h (List.eq_nil_of_length_eq_zero (Nat.le_zero.1 hlen))

end CharTables

/-- Tables of the ASCII letters alone. -/
def asciiTables : CharTables where
  toUpperCase := Char.toUpper
  toLowerCase := Char.toLower
  isWhitespace := Char.isWhitespace
  newline_isWhitespace := rfl

/-! ### The filter -/

/-- `ALL_BUCKETS`. -/
def allBuckets : Finset CoverageBucket := {.aidl, .hidl, .reply, .special, .unknown}

structure EventFilter where
  interfaceContains : String := ""
  methodContains : String := ""
  bucketsAllowed : Finset CoverageBucket := allBuckets
  stackModuleContains : String := ""
deriving DecidableEq

namespace EventFilter

def bucketOf (e : BinderEvent) : CoverageBucket := (e.decodeSource.map CoverageBucket.of).getD .unknown

/-- The buckets do not take part. -/
def allowsEveryBucket (buckets : Finset CoverageBucket) : Bool :=
  buckets.card = 0 || buckets.card = allBuckets.card

section
variable (tables : CharTables) (filter : EventFilter)

def isEmpty : Bool :=
  tables.isBlank filter.interfaceContains && tables.isBlank filter.methodContains &&
    tables.isBlank filter.stackModuleContains && allowsEveryBucket filter.bucketsAllowed

/-- The test of one text. -/
def textMatch (text s : String) : Bool := tables.isBlank text || tables.contains s text

def bucketMatch (e : BinderEvent) : Bool :=
  allowsEveryBucket filter.bucketsAllowed || decide (bucketOf e ∈ filter.bucketsAllowed)

def stackModuleMatch (text : String) (stackTrace : Option StackTrace) : Bool :=
  tables.isBlank text ||
    match stackTrace with
    | none => false
    | some st =>
      st.uFrames.any (fun f => tables.contains f.module text) ||
        st.kFrames.any (fun f => tables.contains f.module text)

end

/-- Some event passes the test of the buckets. -/
theorem exists_bucketMatch (filter : EventFilter) :
    ∃ source : Option DecodeSource, ∀ e : BinderEvent, e.decodeSource = source → filter.bucketMatch e = true := by
  rcases filter.bucketsAllowed.eq_empty_or_nonempty with hempty | ⟨b, hb⟩
  · refine ⟨none, fun e _ => ?_⟩
    simp [bucketMatch, allowsEveryBucket, hempty]
  · have hsource : ∃ source, CoverageBucket.of source = b := by
      cases b
      · exact ⟨.aidlQ, rfl⟩
      · exact ⟨.hidlDescriptor, rfl⟩
      · exact ⟨.reply, rfl⟩
      · exact ⟨.specialCode, rfl⟩
      · exact ⟨.targetRef, rfl⟩
    obtain ⟨source, hof⟩ := hsource
    refine ⟨some source, fun e he => ?_⟩
    have hbucket : bucketOf e = b := by
      rw [bucketOf, he, Option.map_some, Option.getD_some, hof]
    rw [bucketMatch, hbucket, decide_eq_true hb, Bool.or_true]

end EventFilter

open EventFilter in
def EventFilter.matches (tables : CharTables) (filter : EventFilter) (e : BinderEvent) : Bool :=
  if filter.isEmpty tables then true
  else
    textMatch tables filter.interfaceContains e.interfaceName &&
      textMatch tables filter.methodContains e.methodName &&
      filter.bucketMatch e &&
      stackModuleMatch tables filter.stackModuleContains e.stackTrace

open EventFilter in
/-- The shortcut for the empty filter is one: each test of it is passed. -/
theorem EventFilter.matches_eq (tables : CharTables) (filter : EventFilter) (e : BinderEvent) :
    filter.matches tables e =
      (textMatch tables filter.interfaceContains e.interfaceName &&
        textMatch tables filter.methodContains e.methodName &&
        filter.bucketMatch e &&
        stackModuleMatch tables filter.stackModuleContains e.stackTrace) := by
  rw [EventFilter.matches]
  split
  case isTrue h =>
    simp only [isEmpty, Bool.and_eq_true] at h
    obtain ⟨⟨⟨hi, hm⟩, hs⟩, hb⟩ := h
    simp [textMatch, bucketMatch, stackModuleMatch, hi, hm, hs, hb]
  case isFalse => rfl

/-! ### The list -/

/-- A reply that is paired with its request is not listed. -/
def BinderEvent.visible (e : BinderEvent) : Bool := !e.isReply || e.pairId = 0

/-- `emitSnapshot`: what the list shows of the events of the window. -/
def emitSnapshot (tables : CharTables) (filter : EventFilter) (all : List BinderEvent) : List BinderEvent :=
  let visible := all.filter BinderEvent.visible
  if filter.isEmpty tables then visible else visible.filter (filter.matches tables)

/-- What the list shows is what is visible and accepted by the filter. -/
theorem emitSnapshot_eq (tables : CharTables) (filter : EventFilter) (all : List BinderEvent) :
    emitSnapshot tables filter all = all.filter fun e => e.visible && filter.matches tables e := by
  rw [emitSnapshot]
  split
  case isTrue h => simp [EventFilter.matches, h]
  case isFalse h =>
    rw [List.filter_filter]
    simp only [Bool.and_comm]

end BinderTracer.App
