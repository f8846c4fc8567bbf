import BinderTracer.Lib.Table
import Mathlib.Data.Int.Basic

/-!
# JSON values

What a `JSONObject` can hold: numbers are integers of 64 bits, and the names of an object are distinct. An object is
read by optional members: one that is absent, or of another kind, gives a default. The text of a value is left to a
`JsonCodec`, of which no more is known than that it reads its own texts back.
-/

namespace BinderTracer.Lib

inductive Json where
  | null
  | num (n : Int64)
  | str (s : String)
  | arr (length : Nat) (item : Fin length → Json)
  | obj (names : List String) (distinct : names.Nodup) (value : Fin names.length → Json)

/-- An object under construction: each name has one value. -/
abbrev JsonObject := Table String Json

namespace Json

def ofList (items : List Json) : Json := .arr items.length items.get

def ofStrings (texts : List String) : Json := ofList (texts.map .str)

def ofObject (o : JsonObject) : Json :=
  .obj o.keys o.keys_nodup fun i => (o.entries.get (i.cast (List.length_map _))).2

/-- The members that an object has. -/
def members (names : List String) (value : Fin names.length → Json) : List (Sigma fun _ : String => Json) :=
  List.ofFn fun i => ⟨names.get i, value i⟩

theorem keys_members (names : List String) (value : Fin names.length → Json) : (members names value).keys = names := by
  rw [members, List.keys, List.map_ofFn]
  exact List.ofFn_get names

def asObject : Json → Option JsonObject
  | .obj names distinct value => some ⟨members names value, by rwa [List.NodupKeys, keys_members]⟩
  | _ => none

def asArray : Json → Option (List Json)
  | .arr _ item => some (List.ofFn item)
  | _ => none

def asString : Json → Option String
  | .str s => some s
  | _ => none

def asLong : Json → Option Int64
  | .num n => some n
  | _ => none

@[simp] theorem asObject_ofObject (o : JsonObject) : (ofObject o).asObject = some o := by
  refine congrArg some (AList.ext (List.ext_getElem ?_ fun i _ _ => ?_))
  · exact (List.length_ofFn).trans (List.length_map _)
  · simp [members, AList.keys, List.keys]

/-- An object is given by its members, and an array by its items. -/
theorem ofObject_members {names : List String} {value : Fin names.length → Json}
    (nodupKeys : (members names value).NodupKeys) (distinct : names.Nodup) :
    ofObject ⟨members names value, nodupKeys⟩ = .obj names distinct value := by
  have hsame : ∀ names' (h : names' = names) (distinct' : names'.Nodup) (value' : Fin names'.length → Json),
      (∀ i, value' i = value (i.cast (congrArg _ h))) → obj names' distinct' value' = .obj names distinct value := by
    rintro _ rfl distinct' value' hvalue
    rw [funext hvalue]
    rfl
  exact hsame _ (keys_members names value) _ _ fun _ =>
    congrArg Sigma.snd (List.get_ofFn (fun i => (⟨names.get i, value i⟩ : Sigma fun _ : String => Json)) _)

theorem ofList_ofFn {n : Nat} (item : Fin n → Json) : ofList (List.ofFn item) = .arr n item := by
  have hsame : ∀ m (h : m = n) (item' : Fin m → Json), (∀ i, item' i = item (i.cast h)) → arr m item' = arr n item := by
    rintro _ rfl item' hitem
    rw [funext hitem]
    rfl
  exact hsame _ List.length_ofFn _ fun _ => List.get_ofFn ..

/-- An array of objects is read back object by object. -/
theorem mapM_asObject {α : Type} {write : α → JsonObject} {read : JsonObject → α} (h : ∀ a, read (write a) = a)
    (xs : List α) : ((xs.map fun a => ofObject (write a)).mapM fun j => j.asObject.map read) = some xs := by
  induction xs with
  | nil => rfl
  | cons x xs ih => simp [ih, h]

/-- An array of strings is read back string by string. -/
theorem map_asString (texts : List String) (fallback : String) :
    ((texts.map str).map fun j => j.asString.getD fallback) = texts := by
  rw [List.map_map]
  exact List.map_id texts

theorem filterMap_asString (texts : List String) : (texts.map str).filterMap asString = texts := by
  rw [List.filterMap_map]
  exact List.filterMap_some

@[simp] theorem asArray_ofList (items : List Json) : (ofList items).asArray = some items :=
  congrArg some (List.ofFn_get items)

@[simp] theorem asString_str (s : String) : (str s).asString = some s := rfl

@[simp] theorem asLong_num (n : Int64) : (num n).asLong = some n := rfl

end Json

/-! ### Members -/

namespace JsonObject

def put (o : JsonObject) (name : String) (value : Json) : JsonObject := o.insert name value

/-- Put a value if there is one. -/
def putSome (o : JsonObject) (name : String) (value : Option Json) : JsonObject :=
  match value with
  | some value => o.put name value
  | none => o

def has (o : JsonObject) (name : String) : Bool := (o.lookup name).isSome

/-- Whether a member is absent or null. -/
def isNull (o : JsonObject) (name : String) : Bool :=
  match o.lookup name with
  | none | some .null => true
  | _ => false

def optObject (o : JsonObject) (name : String) : Option JsonObject := (o.lookup name).bind Json.asObject

def optArray (o : JsonObject) (name : String) : Option (List Json) := (o.lookup name).bind Json.asArray

def optString (o : JsonObject) (name : String) (fallback : String := "") : String :=
  ((o.lookup name).bind Json.asString).getD fallback

/-- A number is cut down to 32 bits. -/
def optInt (o : JsonObject) (name : String) (fallback : Int32 := 0) : Int32 :=
  (((o.lookup name).bind Json.asLong).map Int64.toInt32).getD fallback

def optLong (o : JsonObject) (name : String) (fallback : Int64 := 0) : Int64 :=
  ((o.lookup name).bind Json.asLong).getD fallback

@[simp] theorem lookup_put (o : JsonObject) (name other : String) (value : Json) :
    (o.put name value).lookup other = if other = name then some value else o.lookup other := by
  rw [put]
  split
  · next h => rw [h, AList.lookup_insert]
  · next h => rw [AList.lookup_insert_ne h]

@[simp] theorem lookup_putSome (o : JsonObject) (name other : String) (value : Option Json) :
    (o.putSome name value).lookup other = if other = name then value.or (o.lookup other) else o.lookup other := by
  cases value with
  | none => simp [putSome]
  | some value => simp [putSome]

end JsonObject

/-! ### Texts -/

/-- The number of UTF-16 units of a text. -/
def utf16Length (s : String) : Nat := (s.toList.map fun c => if c.toNat < 0x10000 then 1 else 2).sum

/-- A way to write values as texts and to read texts. -/
structure JsonCodec where
  print : Json → String
  parse : String → Option Json
  parse_print : ∀ j, parse (print j) = some j
  parse_empty : parse "" = none
  print_empty : print (.ofObject ∅) = "\x7b\x7d"

namespace JsonCodec

variable (codec : JsonCodec)

/-- The text of an object. -/
def text (o : JsonObject) : String := codec.print (.ofObject o)

/-- The object that a text describes. -/
def object (s : String) : Option JsonObject := (codec.parse s).bind Json.asObject

@[simp] theorem object_text (o : JsonObject) : codec.object (codec.text o) = some o := by
  rw [object, text, codec.parse_print, Option.bind_some, Json.asObject_ofObject]

theorem text_ne_empty (o : JsonObject) : codec.text o ≠ "" := by
  intro h
  have hparse := codec.parse_print (.ofObject o)
  rw [text] at h
  rw [h, codec.parse_empty] at hparse
  cases hparse

theorem length_text_empty : utf16Length (codec.text ∅) = 2 := by
  rw [text, codec.print_empty]
  decide

end JsonCodec

end BinderTracer.Lib
