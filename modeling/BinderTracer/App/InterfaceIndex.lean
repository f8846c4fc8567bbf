import BinderTracer.Lib.Json
import BinderTracer.App.EventFilter

/-!
# The interface index

`InterfaceIndex` has for each interface the packages that were found to implement it, in the order in which they
were found. It is saved as a JSON text, which lists the packages of an interface in alphabetical order, and is read
back through hash sets, which hand them out in some other order.

`InterfaceIndexBuilder` finds the interfaces of a package by the `$Stub` classes in its APKs. What the APKs hold is
the environment: the names of the classes, whether a class loader can be made of the files, and the constants
`DESCRIPTOR` of the classes.
-/

namespace BinderTracer.App

open BinderTracer.Lib

/-! ### The index -/

/-- The packages of an interface: there is at least one, and each has a name. -/
structure CandidatePackages where
  elems : List String
  nodup : elems.Nodup
  nonempty : elems ≠ []
  named : "" ∉ elems

namespace CandidatePackages

def single (pkg : String) (h : pkg ≠ "") : CandidatePackages where
  elems := [pkg]
  nodup := List.nodup_singleton pkg
  nonempty := List.cons_ne_nil pkg []
  named := fun hmem => h (List.mem_singleton.1 hmem).symm

def addAll (pkgs more : CandidatePackages) : CandidatePackages where
  elems := insertAllLast pkgs.elems more.elems
  nodup := nodup_insertAllLast pkgs.nodup more.elems
  nonempty := by
    obtain ⟨pkg, hpkg⟩ := List.exists_mem_of_ne_nil _ pkgs.nonempty
    exact List.ne_nil_of_mem (mem_insertAllLast.2 (.inl hpkg))
  named := fun hmem => (mem_insertAllLast.1 hmem).elim pkgs.named more.named

/-- The packages with these names, if there are any, as a hash set hands them out. -/
def ofNames (order : SetOrder String) (names : List String) : Option CandidatePackages :=
  if h : order.iterate (names.filter (· ≠ "")).dedup = [] then none
  else
    have hperm := order.perm (names.filter (· ≠ "")).dedup
    some
      { elems := order.iterate (names.filter (· ≠ "")).dedup
        nodup := hperm.nodup_iff.2 (List.nodup_dedup _)
        nonempty := h
        named := fun hmem => by simpa using List.mem_dedup.1 (hperm.subset hmem) }

theorem mem_ofNames {order : SetOrder String} {names : List String} {pkg : String} :
    pkg ∈ ((ofNames order names).map elems).getD [] ↔ pkg ∈ names ∧ pkg ≠ "" := by
  have hperm := order.perm (names.filter (· ≠ "")).dedup
  have hmem : pkg ∈ order.iterate (names.filter (· ≠ "")).dedup ↔ pkg ∈ names ∧ pkg ≠ "" := by
    rw [hperm.mem_iff, List.mem_dedup, List.mem_filter, decide_eq_true_iff]
  rw [← hmem, ofNames]
  split
  · next h => rw [h]; rfl
  · rfl

end CandidatePackages

structure InterfaceIndex where
  table : Table String CandidatePackages := ∅

namespace InterfaceIndex

def lookupOrdered (index : InterfaceIndex) (interfaceName : String) : List String :=
  ((index.table.lookup interfaceName).map CandidatePackages.elems).getD []

/-- `table.getOrPut(interfaceName) { LinkedHashSet() }.addAll(pkgs)`. -/
def put (index : InterfaceIndex) (interfaceName : String) (pkgs : CandidatePackages) : InterfaceIndex where
  table :=
    match index.table.lookup interfaceName with
    | none => index.table.insert interfaceName pkgs
    | some entry => index.table.insert interfaceName (entry.addAll pkgs)

def addEntry (index : InterfaceIndex) (interfaceName packageName : String) : InterfaceIndex :=
  if interfaceName = "" then index
  else if h : packageName = "" then index
  else index.put interfaceName (.single packageName h)

def clear (_ : InterfaceIndex) : InterfaceIndex := {}

/-- The section of `loadFromDisk` under the lock. -/
def load (index parsed : InterfaceIndex) : InterfaceIndex :=
  parsed.table.entries.foldl (fun index e => index.put e.1 e.2) index

section
variable {index : InterfaceIndex} {interfaceName packageName i p : String} {pkgs : CandidatePackages}

theorem mem_lookupOrdered_iff :
    p ∈ index.lookupOrdered i ↔ ∃ pkgs, index.table.lookup i = some pkgs ∧ p ∈ pkgs.elems := by
  rw [lookupOrdered]
  cases index.table.lookup i <;> simp

theorem mem_lookupOrdered_put :
    p ∈ (index.put interfaceName pkgs).lookupOrdered i ↔
      p ∈ index.lookupOrdered i ∨ (interfaceName = i ∧ p ∈ pkgs.elems) := by
  by_cases hi : interfaceName = i
  · subst hi
    rw [lookupOrdered, lookupOrdered, put]
    cases index.table.lookup interfaceName <;> simp [CandidatePackages.addAll]
  · have hsame : (index.put interfaceName pkgs).table.lookup i = index.table.lookup i := by
      rw [put]
      cases index.table.lookup interfaceName <;> exact AList.lookup_insert_ne (Ne.symm hi)
    rw [lookupOrdered, hsame, ← lookupOrdered]
    simp [hi]

theorem mem_lookupOrdered_addEntry :
    p ∈ (index.addEntry interfaceName packageName).lookupOrdered i ↔
      p ∈ index.lookupOrdered i ∨ (interfaceName = i ∧ packageName = p ∧ i ≠ "" ∧ p ≠ "") := by
  rw [addEntry]
  split
  · next h => grind
  · next hi =>
    split
    · next h => grind
    · next hp =>
      rw [mem_lookupOrdered_put, CandidatePackages.single, List.mem_singleton]
      grind

theorem mem_lookupOrdered_load {parsed : InterfaceIndex} :
    p ∈ (index.load parsed).lookupOrdered i ↔ p ∈ index.lookupOrdered i ∨ p ∈ parsed.lookupOrdered i := by
  have hfold : ∀ (entries : List (Sigma fun _ : String => CandidatePackages)) (index : InterfaceIndex),
      p ∈ (entries.foldl (fun index e => index.put e.1 e.2) index).lookupOrdered i ↔
        p ∈ index.lookupOrdered i ∨ ∃ pkgs, ⟨i, pkgs⟩ ∈ entries ∧ p ∈ pkgs.elems := by
    intro entries
    induction entries with
    | nil => simp
    | cons e entries ih =>
      intro index
      rw [List.foldl_cons, ih, mem_lookupOrdered_put, or_assoc]
      refine or_congr_right ⟨?_, ?_⟩
      · rintro (⟨rfl, hp⟩ | ⟨pkgs, hmem, hp⟩)
        · exact ⟨e.2, List.mem_cons_self, hp⟩
        · exact ⟨pkgs, List.mem_cons_of_mem e hmem, hp⟩
      · rintro ⟨pkgs, hmem, hp⟩
        rcases List.mem_cons.1 hmem with rfl | hmem
        · exact .inl ⟨rfl, hp⟩
        · exact .inr ⟨pkgs, hmem, hp⟩
  have hparsed : p ∈ parsed.lookupOrdered i ↔ _ := mem_lookupOrdered_iff
  rw [load, hfold, hparsed]
  simp only [AList.mem_entries_iff]

end

/-! ### The saved text -/

/-- The units in which texts are compared. -/
def utf16Units (s : String) : List Nat :=
  s.toList.flatMap fun c =>
    if c.toNat < 0x10000 then [c.toNat]
    else [0xD800 + (c.toNat - 0x10000) / 0x400, 0xDC00 + (c.toNat - 0x10000) % 0x400]

/-- Whether a text does not come after another, unit by unit. -/
def unitsLe : List Nat → List Nat → Bool
  | [], _ => true
  | _ :: _, [] => false
  | a :: as, b :: bs => a < b || (a == b && unitsLe as bs)

def sorted (names : List String) : List String :=
  names.insertionSort fun a b => unitsLe (utf16Units a) (utf16Units b) = true

section
variable (codec : JsonCodec)

def serialize (index : InterfaceIndex) : String :=
  codec.text (index.table.mapValues fun pkgs => .ofStrings (sorted pkgs.elems))

/-- `JSONArray.getString`: what is not a string is converted to its text. -/
def getString : Json → String
  | .str s => s
  | item => codec.print item

/-- The packages that an array names. -/
def packagesOf (order : SetOrder String) (arr : List Json) : Option CandidatePackages :=
  CandidatePackages.ofNames order (arr.map (getString codec))

def parseJson (order : SetOrder String) (json : String) : InterfaceIndex where
  table :=
    match codec.object json with
    | none => ∅
    | some obj => obj.filterMapValues fun _ value => value.asArray.bind (packagesOf codec order)

/-- A saved index has the same packages under each interface. -/
theorem mem_lookupOrdered_parseJson_serialize (order : SetOrder String) {index : InterfaceIndex} {i p : String} :
    p ∈ (parseJson codec order (serialize codec index)).lookupOrdered i ↔ p ∈ index.lookupOrdered i := by
  have hread : ∀ names : List String, (names.map Json.str).map (getString codec) = names := by
    intro names
    rw [List.map_map]
    exact List.map_id names
  rw [lookupOrdered, lookupOrdered, parseJson, serialize, codec.object_text]
  dsimp only
  rw [AList.lookup_filterMapValues, AList.lookup_mapValues]
  cases index.table.lookup i with
  | none => rfl
  | some pkgs =>
    simp only [Option.map_some, Option.bind_some, Option.getD_some, Json.ofStrings, Json.asArray_ofList, packagesOf,
      hread]
    rw [CandidatePackages.mem_ofNames, sorted, List.mem_insertionSort]
    refine ⟨And.left, fun hp => ⟨hp, ?_⟩⟩
    rintro rfl
    exact pkgs.named hp

/-- What was saved is there again after a cold start. -/
theorem mem_lookupOrdered_coldStart (order : SetOrder String) {index : InterfaceIndex} {i p : String} :
    p ∈ (load {} (parseJson codec order (serialize codec index))).lookupOrdered i ↔ p ∈ index.lookupOrdered i := by
  rw [mem_lookupOrdered_load, mem_lookupOrdered_parseJson_serialize]
  exact or_iff_right List.not_mem_nil

end

end InterfaceIndex

/-! ### The interfaces of a package -/

structure ApplicationInfo where
  sourceDir : Option String
  splitSourceDirs : Option (List (Option String))

def collectApkPaths (tables : CharTables) (sourceDir : Option String)
    (splitSourceDirs : Option (List (Option String))) : List String :=
  let valid (path : Option String) : Option String := path.filter fun p => !tables.isBlank p
  insertAllLast (valid sourceDir).toList ((splitSourceDirs.getD []).filterMap valid)

def joinDexPath (paths : List String) : String := ":".intercalate paths

def stubSuffix : String := "$Stub"

def hasSuffix (ending text : String) : Bool := ending.toList.isSuffixOf text.toList

def extractStubInterfaces (dexClassNames : List String) : List String :=
  dexClassNames.filter fun name => hasSuffix stubSuffix name && decide (stubSuffix.length < name.length)

/-- What is read from the APKs of a package. -/
structure DexReads where
  /-- The classes of a file, as far as it can be read. -/
  entries : String → List String
  /-- Whether a class loader can be made of the files. -/
  loads : String → Bool
  /-- The constant `DESCRIPTOR` of a class, if it can be read and is a string. -/
  descriptor : String → String → Option String

def scanPackage (tables : CharTables) (dex : DexReads) (ai : ApplicationInfo) : List String :=
  let apkPaths := collectApkPaths tables ai.sourceDir ai.splitSourceDirs
  if apkPaths = [] then []
  else
    let classNames := apkPaths.flatMap dex.entries
    if classNames = [] then []
    else
      let stubCandidates := extractStubInterfaces classNames
      if stubCandidates = [] then []
      else
        let dexPath := joinDexPath apkPaths
        if !dex.loads dexPath then []
        else stubCandidates.filterMap fun stubName => (dex.descriptor dexPath stubName).filter (· ≠ "")

/-- A descriptor that is found is not empty. -/
theorem ne_empty_of_mem_scanPackage {tables : CharTables} {dex : DexReads} {ai : ApplicationInfo} {d : String}
    (h : d ∈ scanPackage tables dex ai) : d ≠ "" := by
  rw [scanPackage] at h
  dsimp only at h
  split_ifs at h
  all_goals try cases h
  obtain ⟨stubName, -, hd⟩ := List.mem_filterMap.1 h
  simpa using (Option.filter_eq_some_iff.1 hd).2

/-! ### The packages to scan -/

structure InstalledPackage where
  packageName : String
  /-- The flags of the application, if it has an `ApplicationInfo`. -/
  flags : Option UInt32

def flagSystem : UInt32 := 1

def InstalledPackage.isSystem (p : InstalledPackage) : Bool := p.flags.any fun flags => flags &&& flagSystem ≠ 0

/-- `collectCandidatePackages`; the list of what is installed is missing if it cannot be read. -/
def collectCandidatePackages (order : SetOrder String) (installed : Option (List InstalledPackage))
    (monitoredPackages : List String) : List String :=
  let system := ((installed.getD []).filter InstalledPackage.isSystem).map InstalledPackage.packageName
  order.iterate (system ++ monitoredPackages).dedup

theorem mem_collectCandidatePackages {order : SetOrder String} {installed : Option (List InstalledPackage)}
    {monitoredPackages : List String} {pkg : String} (h : pkg ∈ monitoredPackages) :
    pkg ∈ collectCandidatePackages order installed monitoredPackages :=
  (order.perm _).mem_iff.2 (List.mem_dedup.2 (List.mem_append_right _ h))

end BinderTracer.App
