import BinderTracer.App.SignatureFile

/-!
# Flushing the signature cache

A flush leaves at most as many packages and characters on disk as the limits allow. A package that is left is
the one in memory if it was dirty and not too long, the one that was on disk before if it was not dirty. One is
missing only if a limit was exceeded when it was evicted, and what the limits evict is gone from memory too.
-/

namespace BinderTracer.App

open BinderTracer.Lib

/-! ### Evictions -/

/-- Memory holds nothing of a package. -/
structure HotCopy.Forgot (hot : HotCopy) (pkg : String) : Prop where
  interfaces : hot.interfaces.lookup pkg = none
  packageMeta : hot.packageMeta.lookup pkg = none
  lastAccess : hot.lastAccess.lookup pkg = none

theorem HotCopy.forgot_removePackages (hot : HotCopy) {victims : List String} {pkg : String} (h : pkg ∈ victims) :
    (victims.foldl HotCopy.removePackage hot).Forgot pkg := by
  have hfields : ∀ hot : HotCopy, victims.foldl HotCopy.removePackage hot =
      ⟨hot.interfaces.eraseAll victims, hot.packageMeta.eraseAll victims, hot.lastAccess.eraseAll victims⟩ := by
    clear h
    induction victims with
    | nil => exact fun _ => rfl
    | cons victim victims ih => exact fun hot => ih (hot.removePackage victim)
  rw [hfields]
  constructor <;> rw [AList.lookup_eraseAll, if_pos h]

/-- The loop of the evictions removes the same packages from disk and from memory, one after another as long as there
is too much. -/
theorem CacheConfig.evictWhile_eq {V : Type} {tooMuch : Table String V → Bool} (hempty : tooMuch ∅ = false)
    {keys : List String} {packages : Table String V} (hkeys : ∀ pkg ∈ packages, pkg ∈ keys) (hot : HotCopy) :
    ∃ victims, evictWhile tooMuch keys (packages, hot) =
        (packages.eraseAll victims, victims.foldl HotCopy.removePackage hot) ∧
      tooMuch (packages.eraseAll victims) = false ∧
      ∀ i < victims.length, tooMuch (packages.eraseAll (victims.take i)) = true := by
  induction keys generalizing packages hot with
  | nil =>
    have hnone : packages = ∅ := by
      refine AList.ext (List.eq_nil_iff_forall_not_mem.2 fun e he => ?_)
      exact List.not_mem_nil (hkeys e.1 (List.mem_keys_of_mem he))
    subst hnone
    exact ⟨[], rfl, hempty, fun i hi => absurd hi (Nat.not_lt_zero i)⟩
  | cons victim keys ih =>
    rw [evictWhile]
    split
    · next hmuch =>
      have hrest : ∀ pkg ∈ packages.erase victim, pkg ∈ keys := by
        intro pkg hpkg
        obtain ⟨hne, hmem⟩ := AList.mem_erase.1 hpkg
        exact (List.mem_cons.1 (hkeys pkg hmem)).resolve_left hne
      obtain ⟨victims, heq, hdone, hbefore⟩ := ih hrest (hot.removePackage victim)
      refine ⟨victim :: victims, heq, hdone, fun i hi => ?_⟩
      cases i with
      | zero => exact hmuch
      | succ i => exact hbefore i (Nat.lt_of_succ_lt_succ hi)
    · next hdone =>
      exact ⟨[], rfl, Bool.eq_false_iff.2 hdone, fun i hi => absurd hi (Nat.not_lt_zero i)⟩

/-! ### Flushing -/

namespace SignatureFile

section
variable {codec : JsonCodec} {limits : FileLimits} {order : FlushOrder} {hot : HotCopy}

theorem mem_keysByAccess (order : FlushOrder) (packagesObj : JsonObject) (hot : HotCopy) :
    ∀ pkg ∈ packagesObj, pkg ∈ keysByAccess order packagesObj hot := fun _ h =>
  (List.perm_insertionSort _ _).symm.subset ((order.packageKeys_perm _).symm.subset (AList.mem_keys.1 h))

/-- The text that a flush leaves when it has evicted `victims`. -/
def fileWithout (codec : JsonCodec) (raw : Option String) (merged : JsonObject) (victims : List String) : String :=
  codec.text <| (readDiskJsonForMergeOrEmpty codec raw).put "packages" (.ofObject (merged.eraseAll victims))
    |>.put "schemaVersion" (.num currentSchemaVersion.toInt64)

/-- There are more packages than the limits allow, or they take more characters. -/
def Exceeds (codec : JsonCodec) (limits : FileLimits) (packagesObj : JsonObject) : Prop :=
  limits.maxPackages < packagesObj.size ∨ limits.totalSoftLimitBytes < utf16Length (codec.text packagesObj)

/-- The packages are those of `merged` without some that were evicted one after another, each while there were too
many or too long ones. -/
def Evicted (codec : JsonCodec) (limits : FileLimits) (merged : JsonObject) (victims : List String) : Prop :=
  ¬Exceeds codec limits (merged.eraseAll victims) ∧
    ∀ i < victims.length, Exceeds codec limits (merged.eraseAll (victims.take i))

/-- A flush writes the dirty packages and evicts others down to the limits. -/
theorem flushToDisk_eq (codec : JsonCodec) (order : FlushOrder) (hot : HotCopy)
    (hchars : 2 ≤ limits.totalSoftLimitBytes) (dirty : List String) (raw : Option String) :
    let merged := mergedPackages codec limits order dirty raw hot
    ∃ victims, flushToDisk codec limits order dirty raw hot =
          (fileWithout codec raw merged victims, victims.foldl HotCopy.removePackage hot) ∧
        Evicted codec limits merged victims := by
  intro merged
  obtain ⟨many, hmany, hcount, hmanybefore⟩ : ∃ victims, evictPackagesIfOverflow limits order (merged, hot) =
      (merged.eraseAll victims, victims.foldl HotCopy.removePackage hot) ∧
        decide (limits.maxPackages < (merged.eraseAll victims).size) = false ∧
        ∀ i < victims.length, decide (limits.maxPackages < (merged.eraseAll (victims.take i)).size) = true :=
    CacheConfig.evictWhile_eq (by simp) (mem_keysByAccess order merged hot) hot
  obtain ⟨long, hlong, hlength, hlongbefore⟩ : ∃ victims, evictTotalIfOverflow codec limits order
      (merged.eraseAll many, many.foldl HotCopy.removePackage hot) =
      ((merged.eraseAll many).eraseAll victims,
        victims.foldl HotCopy.removePackage (many.foldl HotCopy.removePackage hot)) ∧
        decide (limits.totalSoftLimitBytes <
          utf16Length (codec.text ((merged.eraseAll many).eraseAll victims))) = false ∧
        ∀ i < victims.length, decide (limits.totalSoftLimitBytes <
          utf16Length (codec.text ((merged.eraseAll many).eraseAll (victims.take i)))) = true := by
    refine CacheConfig.evictWhile_eq ?_ (mem_keysByAccess order _ _) _
    rw [codec.length_text_empty]
    exact decide_eq_false (Nat.not_lt.2 hchars)
  refine ⟨many ++ long, ?_, ?_, fun i hi => ?_⟩
  · rw [flushToDisk, hmany, hlong, fileWithout, AList.eraseAll_append, List.foldl_append]
  · rw [AList.eraseAll_append, Exceeds, not_or]
    refine ⟨?_, of_decide_eq_false hlength⟩
    exact Nat.not_lt.2 ((AList.size_eraseAll_le _ _).trans (Nat.not_lt.1 (of_decide_eq_false hcount)))
  · -- the first victims were evicted by the one limit, the others by the other
    by_cases hfirst : i < many.length
    · rw [List.take_append_of_le_length hfirst.le]
      exact .inl (of_decide_eq_true (hmanybefore i hfirst))
    · rw [List.length_append] at hi
      obtain ⟨k, rfl⟩ := Nat.exists_eq_add_of_le (Nat.not_lt.1 hfirst)
      rw [List.take_length_add_append, AList.eraseAll_append]
      exact .inr (of_decide_eq_true (hlongbefore k (by omega)))

/-- The packages on disk are those that were not evicted. -/
theorem packagesOf_fileWithout (codec : JsonCodec) (raw : Option String) (merged : JsonObject) (victims : List String) :
    (codec.object (fileWithout codec raw merged victims)).bind packagesOf = some (merged.eraseAll victims) := by
  rw [fileWithout, codec.object_text, Option.bind_some, packagesOf]
  simp [JsonObject.optInt, JsonObject.optObject]

theorem lookup_parseJsonString {text : String} {packagesObj : JsonObject}
    (h : (codec.object text).bind packagesOf = some packagesObj) (pkg : String) :
    (parseJsonString codec text).lookup pkg = (packagesObj.lookup pkg).bind parsePackage := by
  rw [parseJsonString, h]
  exact AList.lookup_filterMapValues ..

/-- The packages that a flush finds are those that a load finds. -/
theorem lookup_parseJsonFromDisk (raw : Option String) (pkg : String) :
    (parseJsonFromDisk codec raw).lookup pkg =
      ((((readDiskJsonForMergeOrEmpty codec raw).optObject "packages").getD ∅).lookup pkg).bind parsePackage := by
  cases raw with
  | none =>
    rw [readDiskJsonForMergeOrEmpty, Option.bind_none, optObject_emptyFile]
    rfl
  | some text =>
    rw [parseJsonFromDisk, Option.map_some, Option.getD_some, parseJsonString, readDiskJsonForMergeOrEmpty,
      Option.bind_some]
    cases codec.object text with
    | none =>
      rw [optObject_emptyFile]
      rfl
    | some obj =>
      rw [Option.bind_some, packagesOf]
      dsimp only
      by_cases hschema : obj.optInt "schemaVersion" (-1) ≠ currentSchemaVersion
      · rw [if_pos hschema, if_pos hschema, optObject_emptyFile]
        rfl
      · rw [if_neg hschema, if_neg hschema]
        cases obj.optObject "packages" with
        | none => rfl
        | some packages => exact AList.lookup_filterMapValues ..

theorem readDisk_fileWithout (raw : Option String) (merged : JsonObject) (victims : List String) :
    (readDiskJsonForMergeOrEmpty codec (some (fileWithout codec raw merged victims))).optObject "packages" =
      some (merged.eraseAll victims) := by
  rw [readDiskJsonForMergeOrEmpty, Option.bind_some, fileWithout, codec.object_text]
  simp [JsonObject.optInt, JsonObject.optObject]

/-- What earlier flushes can have left on disk. -/
inductive Written (codec : JsonCodec) : Option String → Prop
  | fresh : Written codec none
  | flushed {raw : Option String} (h : Written codec raw) (limits : FileLimits) (order : FlushOrder)
      (dirty : List String) {hot : HotCopy} (hhot : hot.Keyed) (hchars : 2 ≤ limits.totalSoftLimitBytes) :
      Written codec (some (flushToDisk codec limits order dirty raw hot).1)

/-- Every package that a flush has written can be read. -/
theorem Written.readable {raw : Option String} (h : Written codec raw) {pkg : String} {value : Json}
    (hpkg : (((readDiskJsonForMergeOrEmpty codec raw).optObject "packages").getD ∅).lookup pkg = some value) :
    ∃ d, parsePackage value = some d := by
  induction h with
  | fresh =>
    rw [readDiskJsonForMergeOrEmpty, Option.bind_none, optObject_emptyFile] at hpkg
    cases hpkg
  | @flushed raw _ limits order dirty hot hhot hchars ih =>
    obtain ⟨victims, heq, -⟩ := flushToDisk_eq codec order hot hchars dirty raw
    rw [heq, readDisk_fileWithout, Option.getD_some, AList.lookup_eraseAll] at hpkg
    split at hpkg
    · cases hpkg
    · rw [mergedPackages, lookup_rewritePackages] at hpkg
      split at hpkg
      · obtain ⟨obj, hobj, rfl⟩ := Option.map_eq_some_iff.1 hpkg
        exact parsePackage_memoryObj hhot hobj
      · exact ih hpkg

/-- What a flush should leave: the text, the copy in memory, and the packages in the text. They are the dirty packages
that memory has and the others that were on disk, without those that the limits have evicted. -/
structure Flushed (codec : JsonCodec) (limits : FileLimits) (order : FlushOrder) (dirty : List String)
    (raw : Option String) (hot : HotCopy) (text : String) (hot' : HotCopy) (packagesObj : JsonObject) : Prop where
  onDisk : (codec.object text).bind packagesOf = some packagesObj
  few : packagesObj.size ≤ limits.maxPackages
  short : utf16Length (codec.text packagesObj) ≤ limits.totalSoftLimitBytes
  written : ∀ pkg ∈ dirty, ∀ info ifaceMap, hot.packageMeta.lookup pkg = some info →
    hot.interfaces.lookup pkg = some ifaceMap → ifaceMap.entries ≠ [] →
    pkg ∈ mergedPackages codec limits order dirty raw hot
  carried : ∀ pkg ∉ dirty, ∀ d, (parseJsonFromDisk codec raw).lookup pkg = some d →
    pkg ∈ mergedPackages codec limits order dirty raw hot
  evicted : ∃ victims, packagesObj = (mergedPackages codec limits order dirty raw hot).eraseAll victims ∧
    Evicted codec limits (mergedPackages codec limits order dirty raw hot) victims
  fromMemory : ∀ pkg ∈ dirty, pkg ∈ packagesObj →
    ∃ info ifaceMap, hot.packageMeta.lookup pkg = some info ∧ hot.interfaces.lookup pkg = some ifaceMap ∧
      (¬Truncates codec limits info ifaceMap →
        (parseJsonString codec text).lookup pkg = some ⟨info.versionCode, info.lastUpdateTime, ifaceMap⟩)
  kept : ∀ pkg ∉ dirty, pkg ∈ packagesObj →
    ∃ d, (parseJsonFromDisk codec raw).lookup pkg = some d ∧ (parseJsonString codec text).lookup pkg = some d
  absent : ∀ pkg ∈ dirty, hot.packageMeta.lookup pkg = none ∨
      (∀ ifaceMap, hot.interfaces.lookup pkg = some ifaceMap → ifaceMap.entries = []) → pkg ∉ packagesObj
  forgotten : ∀ pkg ∈ mergedPackages codec limits order dirty raw hot, pkg ∉ packagesObj → hot'.Forgot pkg

/-- What is left of a package after the evictions is what memory, or the disk, had of it. -/
theorem exists_source {dirty victims : List String} {raw : Option String} {pkg : String}
    (h : pkg ∈ (mergedPackages codec limits order dirty raw hot).eraseAll victims) :
    ∃ value, ((mergedPackages codec limits order dirty raw hot).eraseAll victims).lookup pkg = some value ∧
      (if pkg ∈ dirty then (memoryObj codec limits order hot pkg).map .ofObject
        else (((readDiskJsonForMergeOrEmpty codec raw).optObject "packages").getD ∅).lookup pkg) = some value := by
  obtain ⟨value, hvalue⟩ := Option.isSome_iff_exists.1 (AList.lookup_isSome.2 h)
  refine ⟨value, hvalue, ?_⟩
  rw [AList.lookup_eraseAll] at hvalue
  split at hvalue
  · cases hvalue
  · rw [← lookup_rewritePackages]
    exact hvalue

/-- **A flush is correct and bounded**: whatever is in memory, is dirty and was written to disk before. -/
theorem flush_correct {raw : Option String} (hraw : Written codec raw) (hhot : hot.Keyed)
    (hchars : 2 ≤ limits.totalSoftLimitBytes) (dirty : List String) :
    ∃ packagesObj, Flushed codec limits order dirty raw hot (flushToDisk codec limits order dirty raw hot).1
      (flushToDisk codec limits order dirty raw hot).2 packagesObj := by
  obtain ⟨victims, heq, hevicted⟩ := flushToDisk_eq codec order hot hchars dirty raw
  obtain ⟨hfew, hshort⟩ := not_or.1 hevicted.1
  rw [heq]
  have hdisk := packagesOf_fileWithout codec raw (mergedPackages codec limits order dirty raw hot) victims
  refine ⟨_, hdisk, Nat.not_lt.1 hfew, Nat.not_lt.1 hshort, ?_, ?_, ⟨victims, rfl, hevicted⟩, ?_, ?_, ?_, ?_⟩
  · intro pkg hdirty info ifaceMap hinfo hifaces hempty
    refine AList.lookup_isSome.1 ?_
    rw [mergedPackages, lookup_rewritePackages, if_pos hdirty, Option.isSome_map, memoryObj_eq hinfo hifaces,
      if_neg hempty]
    rfl
  · intro pkg hclean d hd
    rw [lookup_parseJsonFromDisk] at hd
    refine AList.lookup_isSome.1 ?_
    obtain ⟨value, hvalue, -⟩ := Option.bind_eq_some_iff.1 hd
    rw [mergedPackages, lookup_rewritePackages, if_neg hclean, hvalue]
    rfl
  · intro pkg hdirty hpkg
    obtain ⟨value, hvalue, hsource⟩ := exists_source hpkg
    rw [if_pos hdirty] at hsource
    obtain ⟨obj, hobj, rfl⟩ := Option.map_eq_some_iff.1 hsource
    obtain ⟨info, ifaceMap, hinfo, hifaces, hempty, rfl⟩ := memoryObj_eq_some hobj
    refine ⟨info, ifaceMap, hinfo, hifaces, fun hwhole => ?_⟩
    rw [lookup_parseJsonString hdisk, hvalue, Option.bind_some, truncate_of_not_truncates hwhole]
    exact parsePackage_pkgObj hempty (hhot pkg ifaceMap hifaces)
  · intro pkg hclean hpkg
    obtain ⟨value, hvalue, hsource⟩ := exists_source hpkg
    rw [if_neg hclean] at hsource
    obtain ⟨d, hd⟩ := hraw.readable hsource
    refine ⟨d, ?_, ?_⟩
    · rw [lookup_parseJsonFromDisk, hsource, Option.bind_some, hd]
    · rw [lookup_parseJsonString hdisk, hvalue, Option.bind_some, hd]
  · intro pkg hdirty hnone hpkg
    obtain ⟨value, -, hsource⟩ := exists_source hpkg
    rw [if_pos hdirty] at hsource
    obtain ⟨obj, hobj, -⟩ := Option.map_eq_some_iff.1 hsource
    obtain ⟨info, ifaceMap, hinfo, hifaces, hempty, -⟩ := memoryObj_eq_some hobj
    rcases hnone with hmeta | hinterfaces
    · rw [hmeta] at hinfo
      cases hinfo
    · exact hempty (hinterfaces ifaceMap hifaces)
  · intro pkg hpkg hgone
    refine HotCopy.forgot_removePackages hot ?_
    by_contra hvictim
    refine hgone (AList.lookup_isSome.1 ?_)
    rw [AList.lookup_eraseAll, if_neg hvictim]
    exact AList.lookup_isSome.2 hpkg

end

/-! ### A flush that evicts -/

/-- A check of all the methods in memory. -/
theorem keyed_of_entries {hot : HotCopy} (h : ∀ p ∈ hot.interfaces.entries, ∀ i ∈ p.2.entries,
    i.2.entries ≠ [] ∧ ∀ m ∈ i.2.entries, m.2.methodName = m.1 ∧ m.2.returnType ≠ some "") : hot.Keyed := by
  intro pkg ifaceMap hpkg iface sigMap hiface
  obtain ⟨hempty, hnamed⟩ := h _ (AList.mem_entries_iff.2 hpkg) _ (AList.mem_entries_iff.2 hiface)
  exact ⟨hempty, fun mname sig hsig => hnamed _ (AList.mem_entries_iff.2 hsig)⟩

/-- The keys in the order of the maps. -/
def mapOrder : FlushOrder := ⟨id, id, fun _ => .rfl, fun _ => .rfl⟩

/-- A table of one method. -/
def oneMethod (mname : String) : Signatures := (∅ : Signatures).insert mname ⟨mname, ["int"], none⟩

/-- Two packages, of which the first was accessed first. -/
def twoPackages : HotCopy :=
  (({} : HotCopy).applyPut "a" "IFirst" 1 10 (oneMethod "f") 100).applyPut "b" "ISecond" 2 20 (oneMethod "g") 200

theorem keyed_twoPackages : twoPackages.Keyed := keyed_of_entries (by decide)

/-- The text of a first flush of both. -/
def bothOnDisk : Option String := some (flushToDisk .compact {} mapOrder ["a", "b"] none twoPackages).1

theorem written_bothOnDisk : Written .compact bothOnDisk :=
  .flushed .fresh {} mapOrder ["a", "b"] keyed_twoPackages (by decide)

theorem flush_correct_evicting :
    ∃ packagesObj, Flushed .compact { maxPackages := 1 } mapOrder ["b"] bothOnDisk twoPackages
      (flushToDisk .compact { maxPackages := 1 } mapOrder ["b"] bothOnDisk twoPackages).1
      (flushToDisk .compact { maxPackages := 1 } mapOrder ["b"] bothOnDisk twoPackages).2 packagesObj :=
  flush_correct written_bothOnDisk keyed_twoPackages (by decide) ["b"]

end SignatureFile

end BinderTracer.App
