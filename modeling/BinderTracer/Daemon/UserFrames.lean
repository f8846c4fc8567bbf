import BinderTracer.Daemon.AddressSearch

/-!
# Which function a user frame is named after

A mapping of a file shows the file from some position on, and a loadable segment says at which virtual
addresses the file is to be found; symbols have virtual addresses. `SymbolizeUser` looks up the position
in the file instead, so its answers are right for a segment whose virtual address is its position
in the file, and for others only where no function can be.

The answer also rests on what is cached. `symbolizeUser_spec` says once what a call makes of its caches and of
what it reads; here it is used for caches that agree with the system about one process and one file.
-/

namespace BinderTracer.Daemon

open BinderTracer.Lib

/-! ### ELF files and address spaces -/

/-- The virtual address of a position in the file. -/
def LoadSegment.virtualAddress (seg : LoadSegment) (f : UInt64) : UInt64 := f - seg.offset + seg.vaddr

/-- A function of the file. A symbol without a value is undefined there, and one without a name names
nothing. -/
def ElfFileSymbol.isFunction (sym : ElfFileSymbol) : Bool :=
  (stType sym.info = sttFunc ∨ stType sym.info = sttGnuIfunc) ∧ sym.value ≠ 0 ∧ sym.name ≠ []

/-- Start, size and name. -/
def ElfFileSymbol.range (sym : ElfFileSymbol) : ElfSymbol :=
  { rva := sym.value, size := sym.size, name := sym.name }

/-- The functions of the file. One that is exported stands in both tables. -/
def ElfFile.functions (file : ElfFile) : List ElfSymbol :=
  ((file.symtab.getD [] ++ file.dynsym.getD []).filter ElfFileSymbol.isFunction).map ElfFileSymbol.range

/-- The ranges of the functions are not empty, and different ones do not overlap. -/
structure ElfFile.DisjointFunctions (file : ElfFile) : Prop where
  nonempty : ∀ f ∈ file.functions, f.size ≠ 0
  disjoint : ∀ f ∈ file.functions, ∀ g ∈ file.functions, f ≠ g →
    f.rva.toNat + f.size.toNat ≤ g.rva.toNat ∨ g.rva.toNat + g.size.toNat ≤ f.rva.toNat

/-- No mapping is empty, and no two overlap. -/
structure AddressSpace (maps : List ProcMapsEntry) : Prop where
  nonempty : ∀ e ∈ maps, e.start < e.endAddr
  disjoint : maps.Pairwise fun d e => d.endAddr ≤ e.start ∨ e.endAddr ≤ d.start

/-- The executable mappings, in order. -/
structure Snapshot (maps entries : List ProcMapsEntry) : Prop where
  perm : entries.Perm (maps.filter ProcMapsEntry.executable)
  ordered : entries.Pairwise fun a b => mapsEntryLess b a = false

/-- The functions of the file, in order. -/
structure TableOf (file : ElfFile) (symbols : List ElfSymbol) : Prop where
  perm : symbols.Perm file.functions
  ordered : symbols.Pairwise fun a b => elfSymbolLess b a = false

/-! ### The symbol table -/

theorem keptSymbol_eq (sym : ElfFileSymbol) :
    keptSymbol sym = if sym.isFunction then some sym.range else none := by
  unfold keptSymbol
  by_cases htype : stType sym.info = sttFunc ∨ stType sym.info = sttGnuIfunc
  · rw [if_neg (by tauto)]
    by_cases hnone : sym.value = 0 ∨ sym.name = []
    · rw [if_pos hnone, if_neg]
      simp only [ElfFileSymbol.isFunction, decide_eq_true_eq]
      tauto
    · rw [if_neg hnone, if_pos]
      · rfl
      · simp only [ElfFileSymbol.isFunction, decide_eq_true_eq]
        tauto
  · rw [if_pos (by tauto), if_neg]
    simp only [ElfFileSymbol.isFunction, decide_eq_true_eq]
    tauto

theorem filterMap_keptSymbol (syms : List ElfFileSymbol) :
    syms.filterMap keptSymbol = (syms.filter ElfFileSymbol.isFunction).map ElfFileSymbol.range := by
  rw [← List.filterMap_eq_map, List.filterMap_filter]
  refine List.filterMap_congr fun sym _ => ?_
  rw [keptSymbol_eq]
  rfl

/-- What is loaded are the functions of the file, unless there are none. -/
theorem loadElfSymbols_functions (sortSymbols : SliceSort elfSymbolLess) (path : Bytes) (file : ElfFile) :
    (loadElfSymbols sortSymbols path file = none → file.functions = []) ∧
      ∀ es, loadElfSymbols sortSymbols path file = some es → TableOf file es.symbols := by
  have hsymbols : appendElfSymbols (appendElfSymbols [] (file.symtab.getD [])) (file.dynsym.getD []) =
      file.functions := by
    rw [appendElfSymbols, appendElfSymbols, List.nil_append, ← List.filterMap_append, filterMap_keptSymbol]
    rfl
  unfold loadElfSymbols
  simp only [hsymbols]
  split
  · next hempty => exact ⟨fun _ => List.isEmpty_iff.1 hempty, by rintro es ⟨⟩⟩
  · refine ⟨by rintro ⟨⟩, ?_⟩
    rintro es ⟨⟩
    exact ⟨sortSymbols.perm _, sortSymbols.ordered _⟩

/-- Functions that do not overlap have no address in common. -/
theorem ElfFile.DisjointFunctions.eq_of_covers {file : ElfFile} (h : file.DisjointFunctions)
    {f g : ElfSymbol} {a : UInt64} (hf : f ∈ file.functions) (hg : g ∈ file.functions)
    (hfa : f.Covers a) (hga : g.Covers a) : g = f := by
  by_contra hne
  obtain ⟨hfstart, hfend⟩ := hfa
  obtain ⟨hgstart, hgend⟩ := hga
  rw [UInt64.le_iff_toNat_le] at hfstart hgstart
  rcases h.disjoint f hf g hg fun heq => hne heq.symm with hbefore | hafter
  · omega
  · omega

/-- Of functions that do not overlap the one that covers an address is found. -/
theorem TableOf.lookup {file : ElfFile} {symbols : List ElfSymbol} (h : TableOf file symbols)
    (hfunctions : file.DisjointFunctions) {f : ElfSymbol} {a : UInt64} (hf : f ∈ file.functions)
    (hcovers : f.Covers a) (hends : ∀ g ∈ file.functions, g.rva.toNat + g.size.toNat < 2 ^ 64) :
    lookupElfSymbol symbols a = some f := by
  -- a function that starts within `f` shares its start with it
  have honly : ∀ g ∈ file.functions, f.rva ≤ g.rva → g.rva ≤ a → g = f := by
    intro g hg hfg hga
    have hsize : 0 < g.size.toNat := Nat.pos_of_ne_zero fun h0 =>
      hfunctions.nonempty g hg (UInt64.toNat_inj.1 h0)
    refine hfunctions.eq_of_covers hf hg ⟨hfg, ?_⟩ ⟨UInt64.le_refl _, by omega⟩
    exact Nat.lt_of_le_of_lt (UInt64.le_iff_toNat_le.1 hga) hcovers.2
  have hnearest : ∀ g, Nearest file.functions a g → g = f := fun g hg =>
    honly g hg.1 (hg.2.2 f hf hcovers.1) hg.2.1
  have hcover : NearestCover file.functions a := by
    refine ⟨?_, ?_, fun g hg _ => hends g hg⟩
    · intro g _ hg
      rw [hnearest g hg]
      exact hcovers
    · intro g _ hg g' _ hg'
      rw [hnearest g hg, hnearest g' hg']
  obtain ⟨sym, hsym, hfound, hsymcovers, -⟩ := lookupElfSymbol_complete h.ordered (hcover.of_perm h.perm)
    ⟨f, h.perm.mem_iff.2 hf, hcovers⟩
  rw [hfound, hfunctions.eq_of_covers hf (h.perm.mem_iff.1 hsym) hcovers hsymcovers]

/-- And none, if none covers it. -/
theorem TableOf.lookup_none {file : ElfFile} {symbols : List ElfSymbol} (h : TableOf file symbols)
    (hfunctions : file.DisjointFunctions) {a : UInt64} (hnone : ∀ f ∈ file.functions, ¬ f.Covers a) :
    lookupElfSymbol symbols a = none := by
  cases hfound : lookupElfSymbol symbols a with
  | none => rfl
  | some sym =>
    obtain ⟨hsym, hcovers⟩ := lookupElfSymbol_sound h.ordered hfound
    have hmem := h.perm.mem_iff.1 hsym
    exact absurd (hcovers (hfunctions.nonempty sym hmem)) (hnone sym hmem)

/-! ### The mappings -/

/-- The mappings of a snapshot are in order, and apart. -/
theorem Snapshot.sortedMappings {maps entries : List ProcMapsEntry} (h : Snapshot maps entries)
    (hspace : AddressSpace maps) : SortedMappings entries where
  nonempty e he := hspace.nonempty e (List.mem_of_mem_filter (h.perm.mem_iff.1 he))
  sorted := h.ordered.imp fun {d e} hde => UInt64.not_lt.1 (of_decide_eq_false hde)
  disjoint := by
    have hdisjoint : entries.Pairwise fun d e => d.endAddr ≤ e.start ∨ e.endAddr ≤ d.start :=
      (h.perm.pairwise_iff fun h => h.symm).2 (hspace.disjoint.sublist List.filter_sublist)
    refine hdisjoint.imp fun {d e} hde pc ⟨hd, he⟩ => ?_
    obtain ⟨hdstart, hdend⟩ := ProcMapsEntry.contains_iff.1 hd
    obtain ⟨hestart, heend⟩ := ProcMapsEntry.contains_iff.1 he
    rcases hde with hbefore | hafter
    · exact absurd hestart (UInt64.not_le.2 (UInt64.lt_of_lt_of_le hdend hbefore))
    · exact absurd hdstart (UInt64.not_le.2 (UInt64.lt_of_lt_of_le heend hafter))

/-- A mapping is found by any address in it. -/
theorem Snapshot.findContaining {maps entries : List ProcMapsEntry} (h : Snapshot maps entries)
    (hspace : AddressSpace maps) {entry : ProcMapsEntry} (hmem : entry ∈ maps) (hexec : entry.executable)
    {pc : UInt64} (hpc : entry.start ≤ pc ∧ pc < entry.endAddr) : findContaining entries pc = some entry := by
  have hentry : entry ∈ entries := h.perm.mem_iff.2 (List.mem_filter.2 ⟨hmem, hexec⟩)
  exact (h.sortedMappings hspace).findContaining_eq_some.2 ⟨hentry, ProcMapsEntry.contains_iff.2 hpc⟩

/-- Something that had to be read was not there. -/
def MapsReads.Unreadable (r : MapsReads) : Prop := r.expiryStarttime = none ∨ r.starttime = none ∨ r.maps = none

namespace Symbolizer

/-! ### What is kept -/

/-- Everything in the caches has this property. -/
structure Caches (M : Int → ProcMaps → Prop) (F : Bytes → ElfSymbols → Prop) (s : Symbolizer) : Prop where
  maps : ∀ pid pm, s.procMapsCache.lookup pid = some pm → M pid pm
  files : ∀ path es, s.elfCache.lookup path = some es → F path es

namespace Caches

variable {M M' : Int → ProcMaps → Prop} {F F' : Bytes → ElfSymbols → Prop} {s : Symbolizer}

theorem start (kallsyms : List KallsymsEntry) : Caches M F { kallsyms := kallsyms } where
  maps := by rintro pid pm ⟨⟩
  files := by rintro path es ⟨⟩

theorem mono (h : s.Caches M F) (hM : ∀ pid pm, M pid pm → M' pid pm) (hF : ∀ path es, F path es → F' path es) :
    s.Caches M' F' where
  maps pid pm hpm := hM pid pm (h.maps pid pm hpm)
  files path es hes := hF path es (h.files path es hes)

theorem get_maps (h : s.Caches M F) (pid : Int) :
    Caches M F { s with procMapsCache := (s.procMapsCache.get pid).2 } where
  maps pid' pm hpm := h.maps pid' pm ((LruMap.lookup_get s.procMapsCache pid pid').symm.trans hpm)
  files := h.files

theorem drop_maps (h : s.Caches M F) (pid : Int) :
    Caches M F { s with procMapsCache := s.procMapsCache.drop pid } where
  maps pid' pm hpm := by
    simp only [LruMap.lookup_drop] at hpm
    split at hpm
    · cases hpm
    · exact h.maps pid' pm hpm
  files := h.files

theorem put_maps (h : s.Caches M F) {pid : Int} {pm : ProcMaps} (hpm : M pid pm) :
    Caches M F { s with procMapsCache := s.procMapsCache.put cacheCapacity pid pm } where
  maps pid' pm' hpm' := by
    rcases LruMap.lookup_of_put hpm' with ⟨rfl, rfl⟩ | hbefore
    · exact hpm
    · exact h.maps pid' pm' hbefore
  files := h.files

theorem get_files (h : s.Caches M F) (path : Bytes) :
    Caches M F { s with elfCache := (s.elfCache.get path).2 } where
  maps := h.maps
  files path' es hes := h.files path' es ((LruMap.lookup_get s.elfCache path path').symm.trans hes)

theorem put_files (h : s.Caches M F) {path : Bytes} {es : ElfSymbols} (hes : F path es)
    (counters : SymbolizerCounters) :
    Caches M F { s with counters, elfCache := s.elfCache.put cacheCapacity path es } where
  maps := h.maps
  files path' es' hes' := by
    rcases LruMap.lookup_of_put hes' with ⟨rfl, rfl⟩ | hbefore
    · exact hes
    · exact h.files path' es' hbefore

theorem returning (h : s.Caches M F) (frame : SymbolFrame) : (s.returning frame).2.Caches M F := ⟨h.maps, h.files⟩

theorem symbolizeKernel (h : s.Caches M F) (pc : UInt64) : (s.symbolizeKernel pc).2.Caches M F := by
  unfold Symbolizer.symbolizeKernel
  simp only
  split
  · exact h.returning _
  · split
    · exact h.returning _
    · split
      · exact h.returning _
      · exact h.returning _

end Caches

/-! ### One call -/

theorem snapshot_readProcMaps (sortMaps : SliceSort mapsEntryLess) (maps : List ProcMapsEntry) :
    Snapshot maps (readProcMaps sortMaps maps) :=
  ⟨sortMaps.perm _, sortMaps.ordered _⟩

section
variable (sortMaps : SliceSort mapsEntryLess) (sortSymbols : SliceSort elfSymbolLess)
variable {M : Int → ProcMaps → Prop} {F : Bytes → ElfSymbols → Prop} {s : Symbolizer}

/-- What a reading that succeeds puts in the cache has the property. -/
def ReadingKeeps (M : Int → ProcMaps → Prop) (pid : Int) (r : MapsReads) : Prop :=
  ∀ maps, r.maps = some maps → ∀ st,
    M pid { pid, pidStartTime := st, loadedNs := r.nowNs, entries := readProcMaps sortMaps maps }

/-- The mappings are those of this reading. -/
def FreshFrom (r : MapsReads) (pm : ProcMaps) : Prop :=
  pm.loadedNs = r.nowNs ∧ ∃ maps, r.maps = some maps ∧ pm.entries = readProcMaps sortMaps maps

theorem loadMaps_spec (h : s.Caches M F) {pid : Int} {r : MapsReads} (hr : ReadingKeeps sortMaps M pid r) :
    (loadMaps sortMaps s pid r).2.Caches M F ∧
      (∀ pm, (loadMaps sortMaps s pid r).1 = some pm → M pid pm ∧ FreshFrom sortMaps r pm) ∧
      ((loadMaps sortMaps s pid r).1 = none → r.Unreadable) := by
  unfold loadMaps
  split
  · next hst => exact ⟨h, by rintro pm ⟨⟩, fun _ => .inr (.inl hst)⟩
  · next st _ =>
    split
    · next hmaps => exact ⟨h, by rintro pm ⟨⟩, fun _ => .inr (.inr hmaps)⟩
    · next maps hmaps =>
      refine ⟨h.put_maps (hr maps hmaps st), ?_, by rintro ⟨⟩⟩
      rintro pm ⟨⟩
      exact ⟨hr maps hmaps st, rfl, maps, hmaps, rfl⟩

/-- What is returned is younger than the TTL; without an entry it is what was read. -/
theorem getOrLoadMaps_spec (h : s.Caches M F) {pid : Int} {r : MapsReads} (hr : ReadingKeeps sortMaps M pid r) :
    (getOrLoadMaps sortMaps s pid r).2.Caches M F ∧
      (∀ pm, (getOrLoadMaps sortMaps s pid r).1 = some pm →
        M pid pm ∧ r.nowNs - pm.loadedNs < procMapsTTL ∧
          (s.procMapsCache.lookup pid = none → FreshFrom sortMaps r pm)) ∧
      ((getOrLoadMaps sortMaps s pid r).1 = none → r.Unreadable) := by
  have hget := h.get_maps pid
  have hcached := LruMap.get_fst s.procMapsCache pid
  -- a reading is of this moment
  have hage : ∀ pm, M pid pm ∧ FreshFrom sortMaps r pm →
      M pid pm ∧ r.nowNs - pm.loadedNs < procMapsTTL ∧
        (s.procMapsCache.lookup pid = none → FreshFrom sortMaps r pm) := by
    rintro pm ⟨hpm, hfresh⟩
    refine ⟨hpm, ?_, fun _ => hfresh⟩
    rw [hfresh.1, Int.sub_self]
    decide
  unfold getOrLoadMaps
  generalize s.procMapsCache.get pid = found at hget hcached ⊢
  obtain ⟨pm | pm, cache⟩ := found
  · obtain ⟨hcaches, hsome, hnone⟩ := loadMaps_spec sortMaps hget hr
    exact ⟨hcaches, fun pm hpm => hage pm (hsome pm hpm), hnone⟩
  · have hpm : M pid pm := h.maps pid pm hcached.symm
    simp only
    split
    · next hyoung =>
      refine ⟨hget, ?_, by rintro ⟨⟩⟩
      rintro pm' ⟨⟩
      refine ⟨hpm, hyoung, fun hnone => ?_⟩
      rw [hnone] at hcached
      cases hcached
    · split
      · next hst => exact ⟨hget.drop_maps pid, by rintro pm' ⟨⟩, fun _ => .inl hst⟩
      · next st _ =>
        split
        · split
          · next hmaps => exact ⟨hget.drop_maps pid, by rintro pm' ⟨⟩, fun _ => .inr (.inr hmaps)⟩
          · next maps hmaps =>
            refine ⟨hget.put_maps (hr maps hmaps _), ?_, by rintro ⟨⟩⟩
            rintro pm' ⟨⟩
            exact hage _ ⟨hr maps hmaps _, rfl, maps, hmaps, rfl⟩
        · obtain ⟨hcaches, hsome, hnone⟩ := loadMaps_spec sortMaps (hget.drop_maps pid) hr
          exact ⟨hcaches, fun pm hpm => hage pm (hsome pm hpm), hnone⟩

/-- There is no symbol table to look into. -/
def Tableless (path : Bytes) (elfFile : Bytes → Option ElfFile) : Prop :=
  (path = [] ∨ path.head? = some 0x5B) ∨ (elfFile path).bind (loadElfSymbols sortSymbols path) = none

theorem getOrLoadElf_spec (h : s.Caches M F) (path : Bytes) {elfFile : Bytes → Option ElfFile}
    (hF : ∀ file es, elfFile path = some file → loadElfSymbols sortSymbols path file = some es → F path es) :
    (getOrLoadElf sortSymbols s path elfFile).2.Caches M F ∧
      (∀ es, (getOrLoadElf sortSymbols s path elfFile).1 = some es → F path es) ∧
      ((getOrLoadElf sortSymbols s path elfFile).1 = none → Tableless sortSymbols path elfFile) := by
  have hget := h.get_files path
  have hcached := LruMap.get_fst s.elfCache path
  unfold getOrLoadElf
  split
  · next hspecial => exact ⟨h, by rintro es ⟨⟩, fun _ => .inl hspecial⟩
  · generalize s.elfCache.get path = found at hget hcached ⊢
    obtain ⟨es | es, cache⟩ := found
    · simp only
      split
      · next hload => exact ⟨hget, by rintro es ⟨⟩, fun _ => .inr hload⟩
      · next es hload =>
        obtain ⟨file, hfile, hes⟩ := Option.bind_eq_some_iff.1 hload
        refine ⟨hget.put_files (hF file es hfile hes) _, ?_, by rintro ⟨⟩⟩
        rintro es' ⟨⟩
        exact hF file es hfile hes
    · refine ⟨hget, ?_, by rintro ⟨⟩⟩
      rintro es' ⟨⟩
      exact h.files path es hcached.symm

/-- The frame is in the module of the mapping; the position is looked up in symbols with the property, if there are
any. -/
def ShowsIn (F : Bytes → ElfSymbols → Prop) (pc : UInt64) (entry : ProcMapsEntry) (elfFile : Bytes → Option ElfFile)
    (frame : SymbolFrame) : Prop :=
  let relPC := entry.offset + (pc - entry.start)
  frame.module = entry.path ∧
    (frame.symbol = [] ∧ Tableless sortSymbols entry.path elfFile ∨
      ∃ es, F entry.path es ∧
        (frame.symbol = [] ∧ lookupElfSymbol es.symbols relPC = none ∨
          ∃ sym, lookupElfSymbol es.symbols relPC = some sym ∧ frame.symbol = sym.name ∧
            frame.offset = relPC - sym.rva))

theorem symbolizeIn_spec (h : s.Caches M F) (pc : UInt64) (entry : ProcMapsEntry)
    {elfFile : Bytes → Option ElfFile}
    (hF : ∀ path file es, elfFile path = some file → loadElfSymbols sortSymbols path file = some es → F path es) :
    (symbolizeIn sortSymbols s pc entry elfFile).2.Caches M F ∧
      ShowsIn sortSymbols F pc entry elfFile (symbolizeIn sortSymbols s pc entry elfFile).1 := by
  obtain ⟨hcaches, hes, hnone⟩ := getOrLoadElf_spec sortSymbols h entry.path (hF entry.path)
  unfold symbolizeIn
  simp only
  generalize getOrLoadElf sortSymbols s entry.path elfFile = loaded at hcaches hes hnone ⊢
  obtain ⟨_ | elfSyms, s'⟩ := loaded
  · exact ⟨hcaches.returning _, rfl, .inl ⟨rfl, hnone rfl⟩⟩
  · simp only
    split
    · next hsym => exact ⟨hcaches.returning _, rfl, .inr ⟨elfSyms, hes elfSyms rfl, .inl ⟨rfl, hsym⟩⟩⟩
    · next sym hsym =>
      exact ⟨hcaches.returning _, rfl, .inr ⟨elfSyms, hes elfSyms rfl, .inr ⟨sym, hsym, rfl, rfl⟩⟩⟩

/-- Where a frame comes from: nothing could be read, the address is in no mapping of the second reading, or it
is in a mapping that is kept and young or is of the second reading. -/
inductive Placed (M : Int → ProcMaps → Prop) (F : Bytes → ElfSymbols → Prop) (pid : Int) (pc : UInt64)
    (r : UserReads) (frame : SymbolFrame) : Prop where
  | failed (hframe : frame = { pc, quality := .failed })
      (hread : pc = 0 ∨ r.first.Unreadable ∨ r.retry.Unreadable)
  | unmapped (hframe : frame = { pc, quality := .degraded }) (pm : ProcMaps) (hfresh : FreshFrom sortMaps r.retry pm)
      (hnone : findContaining pm.entries pc = none)
  | mapped (pm : ProcMaps) (hkept : M pid pm)
      (hage : r.first.nowNs - pm.loadedNs < procMapsTTL ∨ FreshFrom sortMaps r.retry pm)
      (entry : ProcMapsEntry) (hentry : findContaining pm.entries pc = some entry)
      (hshows : ShowsIn sortSymbols F pc entry r.elfFile frame)

theorem symbolizeUser_spec (h : s.Caches M F) {pid : Int} (pc : UInt64) {r : UserReads}
    (hfirst : ReadingKeeps sortMaps M pid r.first) (hretry : ReadingKeeps sortMaps M pid r.retry)
    (hF : ∀ path file es, r.elfFile path = some file → loadElfSymbols sortSymbols path file = some es → F path es) :
    (symbolizeUser sortMaps sortSymbols s pid pc r).2.Caches M F ∧
      Placed sortMaps sortSymbols M F pid pc r (symbolizeUser sortMaps sortSymbols s pid pc r).1 := by
  unfold symbolizeUser
  split
  · next hzero => exact ⟨h.returning _, .failed rfl (.inl hzero)⟩
  · obtain ⟨hcaches, hsome, hnone⟩ := getOrLoadMaps_spec sortMaps h hfirst
    generalize getOrLoadMaps sortMaps s pid r.first = loaded at hcaches hsome hnone ⊢
    obtain ⟨_ | pm, s₁⟩ := loaded
    · exact ⟨hcaches.returning _, .failed rfl (.inr (.inl (hnone rfl)))⟩
    · obtain ⟨hpm, hage, -⟩ := hsome pm rfl
      simp only
      split
      · next entry hentry =>
        obtain ⟨hkept, hshows⟩ := symbolizeIn_spec sortSymbols hcaches pc entry hF
        exact ⟨hkept, .mapped pm hpm (.inl hage) entry hentry hshows⟩
      · obtain ⟨hcaches₂, hsome₂, hnone₂⟩ := getOrLoadMaps_spec sortMaps (hcaches.drop_maps pid) hretry
        have hdropped : (s₁.procMapsCache.drop pid).lookup pid = none := LruMap.lookup_drop_self _ pid
        generalize getOrLoadMaps sortMaps { s₁ with procMapsCache := s₁.procMapsCache.drop pid } pid r.retry = loaded₂
          at hcaches₂ hsome₂ hnone₂ ⊢
        obtain ⟨_ | pm₂, s₂⟩ := loaded₂
        · exact ⟨hcaches₂.returning _, .failed rfl (.inr (.inr (hnone₂ rfl)))⟩
        · obtain ⟨hpm₂, -, hfresh⟩ := hsome₂ pm₂ rfl
          simp only
          split
          · next entry hentry =>
            obtain ⟨hkept, hshows⟩ := symbolizeIn_spec sortSymbols hcaches₂ pc entry hF
            exact ⟨hkept, .mapped pm₂ hpm₂ (.inr (hfresh hdropped)) entry hentry hshows⟩
          · next hentry => exact ⟨hcaches₂.returning _, .unmapped rfl pm₂ (hfresh hdropped) hentry⟩

end

end Symbolizer

/-! ### One process and one file -/

/-- A function can lie at the address: none has the value 0, and none ends at the end of the address space. -/
def Nameable (address : UInt64) : Prop := address ≠ 0 ∧ address.toNat + 1 < 2 ^ 64

/-- The frame is named after the function of the file that covers the address, if there is one. -/
def NamesFunction (file : ElfFile) (address : UInt64) (frame : SymbolFrame) : Prop :=
  (∀ f ∈ file.functions, f.Covers address → frame.symbol = f.name ∧ frame.offset = address - f.rva) ∧
    ((∀ f ∈ file.functions, ¬ f.Covers address) → frame.symbol = [])

/-- This reading succeeds, and says what the process has mapped. -/
structure MapsReads.Of (r : MapsReads) (maps : List ProcMapsEntry) : Prop where
  expiry : r.expiryStarttime.isSome
  starttime : r.starttime.isSome
  maps : r.maps = some maps

/-- A process has mapped a segment of the file: what is read says so, and what is cached about the two agrees. The
functions of the file do not overlap and end inside the address space. -/
structure MappedFile (entry : ProcMapsEntry) (seg : LoadSegment) (maps : List ProcMapsEntry) (file : ElfFile)
    (pid : Int) (r : UserReads) (s : Symbolizer) : Prop where
  space : AddressSpace maps
  mapped : entry ∈ maps
  first : r.first.Of maps
  retry : r.retry.Of maps
  elfFile : r.elfFile entry.path = some file
  segment : seg ∈ file.loadSegments
  functions : file.DisjointFunctions
  ends : ∀ f ∈ file.functions, f.rva.toNat + f.size.toNat < 2 ^ 64
  cachedMaps : ∀ pm, s.procMapsCache.lookup pid = some pm → Snapshot maps pm.entries
  cachedFile : ∀ es, s.elfCache.lookup entry.path = some es → TableOf file es.symbols

theorem MapsReads.Of.not_unreadable {r : MapsReads} {maps : List ProcMapsEntry} (h : r.Of maps) : ¬r.Unreadable := by
  rintro (hnone | hnone | hnone)
  · exact absurd h.expiry (by simp [hnone])
  · exact absurd h.starttime (by simp [hnone])
  · exact absurd h.maps (by simp [hnone])

theorem MapsReads.Of.readingKeeps {r : MapsReads} {maps : List ProcMapsEntry} (h : r.Of maps)
    (sortMaps : SliceSort mapsEntryLess) (pid : Int) :
    Symbolizer.ReadingKeeps sortMaps (fun pid' pm => pid' = pid → Snapshot maps pm.entries) pid r := by
  rintro maps' hmaps st -
  rw [h.maps] at hmaps
  cases hmaps
  exact Symbolizer.snapshot_readProcMaps sortMaps maps

/-- No function is where none can be. -/
theorem ElfFile.nameable_of_covers {file : ElfFile} {f : ElfSymbol} (hf : f ∈ file.functions)
    (hends : f.rva.toNat + f.size.toNat < 2 ^ 64) {address : UInt64} (hcovers : f.Covers address) :
    Nameable address := by
  obtain ⟨hle, hlt⟩ := hcovers
  refine ⟨?_, by omega⟩
  rintro rfl
  obtain ⟨sym, hsym, rfl⟩ := List.mem_map.1 hf
  have hfunction := (List.mem_filter.1 hsym).2
  simp only [ElfFileSymbol.isFunction, decide_eq_true_eq] at hfunction
  exact hfunction.2.1 (UInt64.le_antisymm hle UInt64.zero_le)

section
variable {entry : ProcMapsEntry} {seg : LoadSegment} {maps : List ProcMapsEntry} {file : ElfFile} {pid : Int}
  {r : UserReads} {s : Symbolizer}

theorem MappedFile.loaded (h : MappedFile entry seg maps file pid r s) (sortSymbols : SliceSort elfSymbolLess)
    (path : Bytes) (file' : ElfFile) (es : ElfSymbols) (hfile : r.elfFile path = some file')
    (hes : loadElfSymbols sortSymbols path file' = some es) (hpath : path = entry.path) :
    TableOf file es.symbols := by
  rw [hpath, h.elfFile] at hfile
  cases hfile
  exact (loadElfSymbols_functions sortSymbols path file).2 es hes

/-- The frame is in the mapping. -/
theorem MappedFile.showsIn (h : MappedFile entry seg maps file pid r s) (sortMaps : SliceSort mapsEntryLess)
    (sortSymbols : SliceSort elfSymbolLess) (hexec : entry.executable) {pc : UInt64}
    (hpc : entry.start ≤ pc ∧ pc < entry.endAddr) (hzero : pc ≠ 0) :
    Symbolizer.ShowsIn sortSymbols (fun path es => path = entry.path → TableOf file es.symbols) pc entry r.elfFile
      (s.symbolizeUser sortMaps sortSymbols pid pc r).1 := by
  have hcaches : s.Caches (fun pid' pm => pid' = pid → Snapshot maps pm.entries)
      (fun path es => path = entry.path → TableOf file es.symbols) := by
    refine ⟨?_, ?_⟩
    · rintro _ pm hpm rfl
      exact h.cachedMaps pm hpm
    · rintro _ es hes rfl
      exact h.cachedFile es hes
  have hfound : ∀ entries, Snapshot maps entries → findContaining entries pc = some entry := fun entries hentries =>
    hentries.findContaining h.space h.mapped hexec hpc
  rcases (Symbolizer.symbolizeUser_spec sortMaps sortSymbols hcaches pc (h.first.readingKeeps sortMaps pid)
    (h.retry.readingKeeps sortMaps pid) (h.loaded sortSymbols)).2 with
    ⟨-, hpczero | hfirst | hretry⟩ | ⟨-, pm, ⟨-, maps', hmaps, hentries⟩, hnone⟩ | ⟨pm, hkept, -, e, he, hshows⟩
  · exact absurd hpczero hzero
  · exact absurd hfirst h.first.not_unreadable
  · exact absurd hretry h.retry.not_unreadable
  · rw [h.retry.maps] at hmaps
    cases hmaps
    rw [hentries, hfound _ (Symbolizer.snapshot_readProcMaps sortMaps maps)] at hnone
    cases hnone
  · rw [hfound pm.entries (hkept rfl)] at he
    cases he
    exact hshows

/-- The frame is named after the function at the position in the file. -/
theorem MappedFile.namesFunction (h : MappedFile entry seg maps file pid r s) (sortMaps : SliceSort mapsEntryLess)
    (sortSymbols : SliceSort elfSymbolLess) (hexec : entry.executable) (hpath : entry.path.head? = some 0x2F)
    {pc : UInt64} (hpc : entry.start ≤ pc ∧ pc < entry.endAddr) (hzero : pc ≠ 0) :
    NamesFunction file (entry.offset + (pc - entry.start))
      (s.symbolizeUser sortMaps sortSymbols pid pc r).1 := by
  rcases (h.showsIn sortMaps sortSymbols hexec hpc hzero).2 with ⟨hnosymbol, htableless⟩ | ⟨es, htable, hlookup⟩
  · -- without a table the file has no functions
    have hempty : file.functions = [] := by
      rcases htableless with (hnil | hbracket) | hload
      · rw [hnil] at hpath
        cases hpath
      · rw [hbracket] at hpath
        exact absurd hpath (by decide)
      · rw [h.elfFile, Option.bind_some] at hload
        exact (loadElfSymbols_functions sortSymbols entry.path file).1 hload
    refine ⟨fun f hf => ?_, fun _ => hnosymbol⟩
    rw [hempty] at hf
    exact absurd hf List.not_mem_nil
  · refine ⟨fun f hf hcovers => ?_, fun hnone => ?_⟩
    · rcases hlookup with ⟨-, hmissed⟩ | ⟨sym, hsym, hname, hoffset⟩
      · rw [(htable rfl).lookup h.functions hf hcovers h.ends] at hmissed
        cases hmissed
      · rw [(htable rfl).lookup h.functions hf hcovers h.ends] at hsym
        cases hsym
        exact ⟨hname, hoffset⟩
    · rcases hlookup with ⟨hnosymbol, -⟩ | ⟨sym, hsym, -⟩
      · exact hnosymbol
      · rw [(htable rfl).lookup_none h.functions hnone] at hsym
        cases hsym

end

/-- A file with this segment and one function. -/
def placedFunction (seg : LoadSegment) (f : ElfSymbol) : ElfFile :=
  { loadSegments := [seg], symtab := some [⟨f.name, sttFunc, f.rva, f.size⟩], dynsym := none }

/-- Reading a process with one mapping, and this file. -/
def oneMappingReads (entry : ProcMapsEntry) (file : ElfFile) : UserReads :=
  let reads : MapsReads := { nowNs := 0, expiryStarttime := some 7, starttime := some 7, maps := some [entry] }
  { first := reads, retry := reads, elfFile := fun _ => some file }

theorem functions_placedFunction (seg : LoadSegment) {f : ElfSymbol} (hrva : f.rva ≠ 0) (hname : f.name ≠ []) :
    (placedFunction seg f).functions = [f] := by
  have hfunction : ElfFileSymbol.isFunction ⟨f.name, sttFunc, f.rva, f.size⟩ = true := by
    exact decide_eq_true ⟨.inl (show stType sttFunc = sttFunc by decide), hrva, hname⟩
  simp [ElfFile.functions, placedFunction, hfunction, ElfFileSymbol.range]

theorem mappedFile_placedFunction {entry : ProcMapsEntry} (hnonempty : entry.start < entry.endAddr) (seg : LoadSegment)
    {f : ElfSymbol} (hrva : f.rva ≠ 0) (hsize : f.size ≠ 0) (hname : f.name ≠ [])
    (hends : f.rva.toNat + f.size.toNat < 2 ^ 64) (pid : Int) :
    MappedFile entry seg [entry] (placedFunction seg f) pid (oneMappingReads entry (placedFunction seg f)) {} := by
  have hfunctions := functions_placedFunction seg hrva hname
  refine ⟨⟨by simpa using hnonempty, by simp⟩, by simp, ⟨rfl, rfl, rfl⟩, ⟨rfl, rfl, rfl⟩, rfl, by simp [placedFunction],
    ⟨?_, ?_⟩, ?_, by rintro pm ⟨⟩, by rintro es ⟨⟩⟩
  · simp [hfunctions, hsize]
  · simp [hfunctions]
  · rw [hfunctions]
    intro g hg
    rw [List.mem_singleton.1 hg]
    exact hends

/-- A function of one byte. -/
def smallFunction (place : UInt64) : ElfSymbol := ⟨place, 1, [0x66]⟩

theorem covers_one {place a : UInt64} : (smallFunction place).Covers a ↔ a = place := by
  change place ≤ a ∧ a.toNat < place.toNat + 1 ↔ a = place
  rw [UInt64.le_iff_toNat_le, ← UInt64.toNat_inj]
  omega

section
variable {seg : LoadSegment} {place a : UInt64} {frame : SymbolFrame}

theorem NamesFunction.symbol_of_covers (h : NamesFunction (placedFunction seg (smallFunction place)) place frame)
    (hplace : Nameable place) : frame.symbol = [0x66] := by
  refine (h.1 (smallFunction place) ?_ (covers_one.2 rfl)).1
  rw [functions_placedFunction seg hplace.1 (List.cons_ne_nil _ _)]
  exact List.mem_singleton_self _

theorem NamesFunction.symbol_of_not_covers (h : NamesFunction (placedFunction seg (smallFunction place)) a frame)
    (hplace : Nameable place) (hne : a ≠ place) : frame.symbol = [] := by
  refine h.2 fun f hf hcovers => hne ?_
  rw [functions_placedFunction seg hplace.1 (List.cons_ne_nil _ _)] at hf
  rw [List.mem_singleton.1 hf] at hcovers
  exact covers_one.1 hcovers

end

/-- **User frames are named after the function that contains them** in every system, whatever the functions of the
file and whatever is cached of other processes and files, exactly if the segment has its virtual address for its
position in the file and the address is not 0, or no function can be where the frame is and where it is looked for. -/
theorem user_frames_named_iff (sortMaps : SliceSort mapsEntryLess) (sortSymbols : SliceSort elfSymbolLess)
    (entry : ProcMapsEntry) (hexec : entry.executable) (hpath : entry.path.head? = some 0x2F) (pc : UInt64)
    (hpc : entry.start ≤ pc ∧ pc < entry.endAddr) (seg : LoadSegment) :
    let position := entry.offset + (pc - entry.start)
    let address := seg.virtualAddress position
    (∀ maps file pid r s, MappedFile entry seg maps file pid r s →
        NamesFunction file address (s.symbolizeUser sortMaps sortSymbols pid pc r).1) ↔
      pc ≠ 0 ∧ seg.vaddr = seg.offset ∨ ¬Nameable address ∧ (pc = 0 ∨ ¬Nameable position) := by
  intro position address
  have hnonempty : entry.start < entry.endAddr := UInt64.lt_of_le_of_lt hpc.1 hpc.2
  -- a file whose one function is at a place of our choice
  have hone : ∀ place, Nameable place → MappedFile entry seg [entry] (placedFunction seg (smallFunction place)) 0
      (oneMappingReads entry (placedFunction seg (smallFunction place))) {} := fun place hplace =>
    mappedFile_placedFunction hnonempty seg hplace.1 (by decide : (1 : UInt64) ≠ 0) (List.cons_ne_nil _ _) hplace.2 0
  constructor
  · intro hnamed
    by_cases hzero : pc = 0
    · refine .inr ⟨fun hplace => ?_, .inl hzero⟩
      have hname := (hnamed _ _ _ _ _ (hone address hplace)).symbol_of_covers hplace
      rw [Symbolizer.symbolizeUser, if_pos hzero] at hname
      cases hname
    by_cases haddress : address = position
    · refine .inl ⟨hzero, ?_⟩
      have hsame : position - seg.offset + seg.vaddr = position - seg.offset + seg.offset := by
        rw [UInt64.sub_add_cancel]
        exact haddress
      exact (UInt64.add_right_inj _).1 hsame
    · refine .inr ⟨fun hplace => ?_, .inr fun hplace => ?_⟩
      · have hname := (hnamed _ _ _ _ _ (hone address hplace)).symbol_of_covers hplace
        have hnone := ((hone address hplace).namesFunction sortMaps sortSymbols hexec hpath hpc
          hzero).symbol_of_not_covers hplace fun h => haddress h.symm
        rw [hname] at hnone
        cases hnone
      · have hname := ((hone position hplace).namesFunction sortMaps sortSymbols hexec hpath hpc
          hzero).symbol_of_covers hplace
        have hnone := (hnamed _ _ _ _ _ (hone position hplace)).symbol_of_not_covers hplace haddress
        rw [hname] at hnone
        cases hnone
  · rintro (⟨hzero, hplace⟩ | ⟨hnone, hnone'⟩) maps file pid r s h
    · have haddress : address = position := by
        show position - seg.offset + seg.vaddr = position
        rw [hplace, UInt64.sub_add_cancel]
      rw [haddress]
      exact h.namesFunction sortMaps sortSymbols hexec hpath hpc hzero
    · refine ⟨fun f hf hcovers => ?_, fun _ => ?_⟩
      · exact absurd (ElfFile.nameable_of_covers hf (h.ends f hf) hcovers) hnone
      · by_cases hzero : pc = 0
        · rw [Symbolizer.symbolizeUser, if_pos hzero]
          rfl
        · refine (h.namesFunction sortMaps sortSymbols hexec hpath hpc hzero).2 fun f hf hcovers => ?_
          exact hnone'.resolve_left hzero (ElfFile.nameable_of_covers hf (h.ends f hf) hcovers)

/-- The second page of `/a`, mapped at `0x7000`. -/
def secondPage : ProcMapsEntry := ⟨0x7000, 0x8000, [0x72, 0x78], 0x1000, [0x2F, 0x61]⟩

/-- Functions at `0x1010` and `0x2010`; what is at `0x1000` in the file is to be found at `vaddr`. -/
def twoFunctions (vaddr : UInt64) : ElfFile :=
  { loadSegments := [⟨0x1000, vaddr⟩], symtab := some [⟨[0x66], 2, 0x1010, 0x10⟩, ⟨[0x67], 2, 0x2010, 0x10⟩]
    dynsym := some [⟨[0x67], 2, 0x2010, 0x10⟩] }

/-- The text is where it is in the file. -/
theorem user_frames_named_in_place :
    let frame := (({} : Symbolizer).symbolizeUser sortEntries sortSymbols 100 0x7018
      (oneMappingReads secondPage (twoFunctions 0x1000))).1
    frame.symbol = [0x66] ∧ frame.offset = 8 := by
  have hmapped : MappedFile secondPage ⟨0x1000, 0x1000⟩ [secondPage] (twoFunctions 0x1000) 100
      (oneMappingReads secondPage (twoFunctions 0x1000)) {} :=
    ⟨⟨by decide, by decide⟩, by decide, ⟨rfl, rfl, rfl⟩, ⟨rfl, rfl, rfl⟩, rfl, by decide, ⟨by decide, by decide⟩,
      by decide, by rintro pm ⟨⟩, by rintro es ⟨⟩⟩
  exact ((user_frames_named_iff sortEntries sortSymbols secondPage (by decide) rfl 0x7018 (by decide)
    ⟨0x1000, 0x1000⟩).2 (.inl ⟨by decide, rfl⟩) _ _ _ _ _ hmapped).1 ⟨0x1010, 0x10, [0x66]⟩ (by decide) (by decide)

/-- The text is a page higher than in the file: the frame in `g` is named `f`. -/
theorem user_frame_misnamed :
    let f : ElfSymbol := ⟨0x1010, 0x10, [0x66]⟩
    let g : ElfSymbol := ⟨0x2010, 0x10, [0x67]⟩
    let seg : LoadSegment := ⟨0x1000, 0x2000⟩
    let frame := (({} : Symbolizer).symbolizeUser sortEntries sortSymbols 100 0x7018
      (oneMappingReads secondPage (twoFunctions 0x2000))).1
    seg ∈ (twoFunctions 0x2000).loadSegments ∧ (twoFunctions 0x2000).functions = [f, g, g] ∧
      g.Covers (seg.virtualAddress (secondPage.offset + (0x7018 - secondPage.start))) ∧
      frame.symbol = f.name := by
  decide +kernel

end BinderTracer.Daemon
