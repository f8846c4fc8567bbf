import BinderTracer.Lib.Decimal
import BinderTracer.Lib.Json

/-!
# Texts of JSON values

A codec that can be run. Its texts are like those of JSON, but there is a comma before every item, and a number is
written as a word, after a sign and with a quote at its end. The reader goes by recursive descent and is given fuel
for the depth of the calls, of which the length of the text is enough.
-/

namespace BinderTracer.Lib

namespace JsonText

/-! ### Writing -/

/-- The rest of a string, with the closing quote: quotes and backslashes are escaped. -/
def quoted : List Char → List Char
  | [] => ['"']
  | c :: cs => if c = '"' ∨ c = '\\' then '\\' :: c :: quoted cs else c :: quoted cs

def value : Json → List Char
  | .null => ['n']
  | .num n => '#' :: quoted (itoa n.toUInt64.toNat)
  | .str s => '"' :: quoted s.toList
  | .arr _ item => '[' :: (List.ofFn fun i => ',' :: value (item i)).flatten ++ [']']
  | .obj names _ v =>
    '\x7b' :: (List.ofFn fun i => ',' :: (quoted (names.get i).toList ++ value (v i))).flatten ++ ['\x7d']

/-! ### Reading -/

/-- What a reader finds at the start of a text, and the rest of it. -/
abbrev Reader (α : Type) := List Char → Option (α × List Char)

/-- The rest of a string. -/
def readQuoted : Reader (List Char)
  | [] => none
  | '"' :: rest => some ([], rest)
  | '\\' :: c :: rest => (readQuoted rest).map fun p => (c :: p.1, p.2)
  | c :: rest => (readQuoted rest).map fun p => (c :: p.1, p.2)

mutual

def readValue : Nat → Reader Json
  | _ + 1, 'n' :: rest => some (.null, rest)
  | _ + 1, '#' :: rest => do
    let (digits, rest) ← readQuoted rest
    let n ← digitsValue digits
    return (.num (UInt64.ofNat n).toInt64, rest)
  | _ + 1, '"' :: rest => (readQuoted rest).map fun p => (.str (String.ofList p.1), p.2)
  | fuel + 1, '[' :: rest => (readItems fuel rest).map fun p => (.ofList p.1, p.2)
  | fuel + 1, '\x7b' :: rest => (readMembers fuel rest).map fun p => (.ofObject p.1.toAList, p.2)
  | _, _ => none

def readItems : Nat → Reader (List Json)
  | fuel + 1, ',' :: rest => do
    let (item, rest) ← readValue fuel rest
    let (items, rest) ← readItems fuel rest
    return (item :: items, rest)
  | _ + 1, ']' :: rest => some ([], rest)
  | _, _ => none

def readMembers : Nat → Reader (List (Sigma fun _ : String => Json))
  | fuel + 1, ',' :: rest => do
    let (name, rest) ← readQuoted rest
    let (v, rest) ← readValue fuel rest
    let (members, rest) ← readMembers fuel rest
    return (⟨String.ofList name, v⟩ :: members, rest)
  | _ + 1, '\x7d' :: rest => some ([], rest)
  | _, _ => none

end

/-! ### What is written is read back -/

theorem readQuoted_quoted (cs rest : List Char) : readQuoted (quoted cs ++ rest) = some (cs, rest) := by
  induction cs with
  | nil => rfl
  | cons c cs ih =>
    rw [quoted]
    split
    · show ((readQuoted (quoted cs ++ rest)).map fun p => (c :: p.1, p.2)) = _
      rw [ih]
      rfl
    · next hplain =>
      rw [not_or] at hplain
      rw [List.cons_append, readQuoted, ih]
      · rfl
      · exact hplain.1
      · rintro c' rest' rfl
        exact absurd rfl hplain.2

/-- A member after its comma. -/
def member (e : Sigma fun _ : String => Json) : List Char := quoted e.1.toList ++ value e.2

theorem value_arr {n : Nat} (item : Fin n → Json) :
    value (.arr n item) = '[' :: (((List.ofFn item).map fun j => ',' :: value j).flatten ++ [']']) := by
  rw [List.map_ofFn]
  rfl

theorem value_obj {names : List String} (distinct : names.Nodup) (v : Fin names.length → Json) :
    value (.obj names distinct v) =
      '\x7b' :: (((Json.members names v).map fun e => ',' :: member e).flatten ++ ['\x7d']) := by
  rw [Json.members, List.map_ofFn]
  rfl

/-- The value is read from its text, whatever follows; the length of the text is enough fuel. -/
def ReadBack (j : Json) : Prop :=
  ∀ fuel rest, (value j).length ≤ fuel → readValue (fuel + 1) (value j ++ rest) = some (j, rest)

theorem readItems_text {items : List Json} (h : ∀ j ∈ items, ReadBack j) (fuel : Nat) (rest : List Char)
    (hfuel : ((items.map fun j => ',' :: value j).flatten).length ≤ fuel) :
    readItems (fuel + 1) ((items.map fun j => ',' :: value j).flatten ++ ']' :: rest) = some (items, rest) := by
  induction items generalizing fuel with
  | nil => rfl
  | cons j items ih =>
    simp only [List.map_cons, List.flatten_cons, List.length_append, List.length_cons, List.cons_append,
      List.append_assoc] at hfuel ⊢
    obtain ⟨fuel, rfl⟩ := Nat.exists_eq_add_one.2 (show 0 < fuel by omega)
    rw [readItems, h j List.mem_cons_self fuel _ (by omega)]
    show ((readItems (fuel + 1) _).bind fun p => some (j :: p.1, p.2)) = _
    rw [ih (fun k hk => h k (List.mem_cons_of_mem j hk)) fuel (by omega)]
    rfl

theorem readMembers_text {members : List (Sigma fun _ : String => Json)} (h : ∀ e ∈ members, ReadBack e.2) (fuel : Nat)
    (rest : List Char) (hfuel : ((members.map fun e => ',' :: member e).flatten).length ≤ fuel) :
    readMembers (fuel + 1) ((members.map fun e => ',' :: member e).flatten ++ '\x7d' :: rest) =
      some (members, rest) := by
  induction members generalizing fuel with
  | nil => rfl
  | cons e members ih =>
    simp only [List.map_cons, List.flatten_cons, List.length_append, List.length_cons, List.cons_append,
      List.append_assoc, member] at hfuel ih ⊢
    obtain ⟨fuel, rfl⟩ := Nat.exists_eq_add_one.2 (show 0 < fuel by omega)
    rw [readMembers, readQuoted_quoted]
    show ((readValue (fuel + 1) _).bind fun p => (readMembers (fuel + 1) p.2).bind fun q =>
      some (⟨String.ofList e.1.toList, p.1⟩ :: q.1, q.2)) = _
    rw [h e List.mem_cons_self fuel _ (by omega), Option.bind_some,
      ih (fun k hk => h k (List.mem_cons_of_mem e hk)) fuel (by omega), String.ofList_toList]
    rfl

theorem readBack (j : Json) : ReadBack j := by
  induction j with
  | null => exact fun fuel rest _ => rfl
  | num n =>
    intro fuel rest _
    rw [value, List.cons_append, readValue, readQuoted_quoted]
    show ((digitsValue _).bind fun m => some (Json.num (UInt64.ofNat m).toInt64, rest)) = _
    rw [digitsValue_itoa, Option.bind_some, UInt64.ofNat_toNat]
    rfl
  | str s =>
    intro fuel rest _
    rw [value, List.cons_append, readValue, readQuoted_quoted, Option.map_some, String.ofList_toList]
  | arr n item ih =>
    intro fuel rest hfuel
    rw [value_arr, List.length_cons, List.length_append, List.length_singleton] at hfuel
    obtain ⟨fuel, rfl⟩ := Nat.exists_eq_add_one.2 (show 0 < fuel by omega)
    rw [value_arr, List.cons_append, List.append_assoc, readValue, List.singleton_append,
      readItems_text (List.forall_mem_ofFn_iff.2 ih) fuel rest (by omega), Option.map_some, Json.ofList_ofFn]
  | obj names distinct v ih =>
    intro fuel rest hfuel
    rw [value_obj, List.length_cons, List.length_append, List.length_singleton] at hfuel
    obtain ⟨fuel, rfl⟩ := Nat.exists_eq_add_one.2 (show 0 < fuel by omega)
    have hread : ∀ e ∈ Json.members names v, ReadBack e.2 := List.forall_mem_ofFn_iff.2 ih
    have hnodup : (Json.members names v).NodupKeys := by rwa [List.NodupKeys, Json.keys_members]
    have hobject : (Json.members names v).toAList = ⟨_, hnodup⟩ := AList.toAList_entries ⟨_, hnodup⟩
    rw [value_obj, List.cons_append, List.append_assoc, readValue, List.singleton_append,
      readMembers_text hread fuel rest (by omega), Option.map_some, hobject, Json.ofObject_members]

/-- The value that a whole text describes. -/
def readText (text : List Char) : Option Json :=
  match readValue (text.length + 1) text with
  | some (j, []) => some j
  | _ => none

theorem readText_value (j : Json) : readText (value j) = some j := by
  have hread := readBack j (value j).length [] le_rfl
  rw [List.append_nil] at hread
  rw [readText, hread]

end JsonText

def JsonCodec.compact : JsonCodec where
  print j := String.ofList (JsonText.value j)
  parse s := JsonText.readText s.toList
  parse_print j := by rw [String.toList_ofList, JsonText.readText_value]
  parse_empty := rfl
  print_empty := rfl

end BinderTracer.Lib
