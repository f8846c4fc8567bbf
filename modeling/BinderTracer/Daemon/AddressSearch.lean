import BinderTracer.Daemon.Symbolizer

/-!
# Searches by address

`findContaining` searches the mappings for the first that ends above the address, `SymbolizeKernel` the symbols for the
last that does not start above it. Both are binary searches, and rest on the order of what they search: mappings that
are sorted by their starts and do not overlap are also sorted by their ends. Then each finds what a scan would find,
between mappings with gaps and among symbols of the same address.
-/

namespace BinderTracer.Daemon

open BinderTracer.Lib

/-! ### Mappings -/

/-- The address is in the mapping. -/
def ProcMapsEntry.contains (e : ProcMapsEntry) (pc : UInt64) : Bool := e.start ≤ pc && pc < e.endAddr

theorem ProcMapsEntry.contains_iff {e : ProcMapsEntry} {pc : UInt64} :
    e.contains pc = true ↔ e.start ≤ pc ∧ pc < e.endAddr := by
  simp [contains]

/-- Mappings that are not empty, are sorted by their starts, and have no address in common. -/
structure SortedMappings (entries : List ProcMapsEntry) : Prop where
  nonempty : ∀ e ∈ entries, e.start < e.endAddr
  sorted : entries.Pairwise fun d e => d.start ≤ e.start
  disjoint : entries.Pairwise fun d e => ∀ pc, ¬ (d.contains pc = true ∧ e.contains pc = true)

namespace SortedMappings

variable {entries : List ProcMapsEntry}

/-- Each mapping ends where the next starts, or before. -/
theorem apart (h : SortedMappings entries) : entries.Pairwise fun d e => d.endAddr ≤ e.start := by
  refine (h.sorted.and h.disjoint).imp_of_mem fun {d e} _ he hde => ?_
  obtain ⟨hsorted, hdisjoint⟩ := hde
  -- otherwise both would contain the start of the second
  by_contra hoverlap
  refine hdisjoint e.start ⟨?_, ?_⟩
  · exact ProcMapsEntry.contains_iff.2 ⟨hsorted, UInt64.not_le.1 hoverlap⟩
  · exact ProcMapsEntry.contains_iff.2 ⟨UInt64.le_refl _, h.nonempty e he⟩

/-- A mapping that ends above an address is followed by others that do. -/
theorem keepsHolding (h : SortedMappings entries) (pc : UInt64) :
    KeepsHolding (fun e : ProcMapsEntry => pc < e.endAddr) entries := by
  refine h.apart.imp_of_mem fun {d e} _ he hde hpc => ?_
  rw [decide_eq_true_eq] at hpc ⊢
  exact UInt64.lt_trans (UInt64.lt_of_lt_of_le hpc hde) (h.nonempty e he)

/-- The only mapping that can contain the address is the first that ends above it. -/
theorem contains_iff_find? (h : SortedMappings entries) {pc : UInt64} {e : ProcMapsEntry} :
    e ∈ entries ∧ e.contains pc = true ↔
      entries.find? (fun e => pc < e.endAddr) = some e ∧ e.contains pc = true := by
  constructor
  · rintro ⟨hmem, hcontains⟩
    refine ⟨?_, hcontains⟩
    obtain ⟨hstart, hend⟩ := ProcMapsEntry.contains_iff.1 hcontains
    obtain ⟨before, after, rfl⟩ := List.append_of_mem hmem
    refine List.find?_eq_some_iff_append.2 ⟨decide_eq_true hend, before, after, rfl, fun d hd => ?_⟩
    have happart := (List.pairwise_append.1 h.apart).2.2 d hd e List.mem_cons_self
    rw [Bool.not_eq_true', decide_eq_false_iff_not, UInt64.not_lt]
    exact UInt64.le_trans happart hstart
  · rintro ⟨hfound, hcontains⟩
    exact ⟨List.mem_of_find?_eq_some hfound, hcontains⟩

/-- The mapping that is found is the one that contains the address. -/
theorem findContaining_eq_some (h : SortedMappings entries) {pc : UInt64} {e : ProcMapsEntry} :
    findContaining entries pc = some e ↔ e ∈ entries ∧ e.contains pc = true := by
  rw [h.contains_iff_find?, findContaining, getElem?_searchIn (h.keepsHolding pc)]
  cases entries.find? fun e => pc < e.endAddr with
  | none => simp
  | some d =>
    dsimp only
    split
    · next hcontains =>
      constructor
      · rintro ⟨⟩
        exact ⟨rfl, ProcMapsEntry.contains_iff.2 hcontains⟩
      · exact And.left
    · next hnot =>
      constructor
      · intro hnone
        cases hnone
      · rintro ⟨⟨⟩, hcontains⟩
        exact absurd (ProcMapsEntry.contains_iff.1 hcontains) hnot

theorem findContaining_eq_none (h : SortedMappings entries) {pc : UInt64} :
    findContaining entries pc = none ↔ ∀ e ∈ entries, e.contains pc = false := by
  rw [Option.eq_none_iff_forall_ne_some]
  constructor
  · intro hnone e he
    by_contra hcontains
    exact hnone e (h.findContaining_eq_some.2 ⟨he, Bool.not_eq_false _ ▸ hcontains⟩)
  · intro hnone e hfound
    obtain ⟨he, hcontains⟩ := h.findContaining_eq_some.1 hfound
    rw [hnone e he] at hcontains
    cases hcontains

end SortedMappings

/-! ### Symbols of the kernel -/

/-- A symbol with the greatest address that is not above `pc`. -/
structure NearestSymbol (kallsyms : List KallsymsEntry) (pc : UInt64) (ent : KallsymsEntry) : Prop where
  mem : ent ∈ kallsyms
  le : ent.addr ≤ pc
  greatest : ∀ other ∈ kallsyms, other.addr ≤ pc → other.addr ≤ ent.addr

namespace Symbolizer

variable {s : Symbolizer}

theorem keepsHolding_kallsyms (h : s.kallsyms.Pairwise fun a b => a.addr ≤ b.addr) (pc : UInt64) :
    KeepsHolding (fun e : KallsymsEntry => pc < e.addr) s.kallsyms := by
  refine h.imp fun {a b} hab hpc => ?_
  rw [decide_eq_true_eq] at hpc ⊢
  exact UInt64.lt_of_lt_of_le hpc hab

/-- The frame has the nearest symbol, or there is none at or below the address. -/
theorem symbolizeKernel_cases (h : s.kallsyms.Pairwise fun a b => a.addr ≤ b.addr) {pc : UInt64} (hpc : pc ≠ 0) :
    (∃ ent, NearestSymbol s.kallsyms pc ent ∧
      (s.symbolizeKernel pc).1 =
        { pc, module := kernelModule, symbol := ent.name, offset := pc - ent.addr, quality := .full }) ∨
    ((∀ e ∈ s.kallsyms, pc < e.addr) ∧ (s.symbolizeKernel pc).1.quality = .failed) := by
  have hkeeps := keepsHolding_kallsyms h pc
  unfold symbolizeKernel
  by_cases hempty : s.kallsyms = []
  · rw [if_pos (.inl hempty)]
    refine .inr ⟨?_, rfl⟩
    simp [hempty]
  rw [if_neg (by simp [hempty, hpc])]
  dsimp only
  by_cases hfirst : searchIn (fun e : KallsymsEntry => pc < e.addr) s.kallsyms = 0
  · rw [if_pos hfirst]
    refine .inr ⟨fun e he => ?_, rfl⟩
    obtain ⟨i, hi⟩ := List.getElem?_of_mem he
    exact of_decide_eq_true (searchIn_after hkeeps (hfirst ▸ Nat.zero_le i) hi)
  · rw [if_neg hfirst]
    obtain ⟨ent, hat, hbelow⟩ := searchIn_pred _ _ hfirst
    rw [hat]
    have hle : ent.addr ≤ pc := UInt64.not_lt.1 (of_decide_eq_false hbelow)
    refine .inl ⟨ent, ⟨List.mem_of_getElem? hat, hle, fun other hother hother' => ?_⟩, rfl⟩
    rcases eq_or_rel_pred h hkeeps hat hother (decide_eq_false (UInt64.not_lt.2 hother')) with rfl | hbefore
    · exact UInt64.le_refl _
    · exact hbefore

/-- The symbols of a file are sorted when they have been loaded. -/
theorem sorted_loadKallsyms (sort : SliceSort kallsymsLess) (s : Symbolizer) (lines : List Bytes) :
    (s.loadKallsyms sort (some lines)).kallsyms.Pairwise fun a b => a.addr ≤ b.addr := by
  refine (sort.ordered (lines.filterMap parseKallsymsLine)).imp fun {a b} hab => ?_
  exact UInt64.not_lt.1 (of_decide_eq_false hab)

/-- So a frame is named after the nearest symbol of the file. -/
theorem symbolizeKernel_loadKallsyms (sort : SliceSort kallsymsLess) (s : Symbolizer) (lines : List Bytes) {pc : UInt64}
    (hpc : pc ≠ 0) {e : KallsymsEntry} (he : e ∈ lines.filterMap parseKallsymsLine) (hbelow : e.addr ≤ pc) :
    ∃ ent, NearestSymbol (lines.filterMap parseKallsymsLine) pc ent ∧
      ((s.loadKallsyms sort (some lines)).symbolizeKernel pc).1 =
        { pc, module := kernelModule, symbol := ent.name, offset := pc - ent.addr, quality := .full } := by
  have hperm : (s.loadKallsyms sort (some lines)).kallsyms.Perm (lines.filterMap parseKallsymsLine) := sort.perm _
  rcases symbolizeKernel_cases (sorted_loadKallsyms sort s lines) hpc with ⟨ent, hent, hframe⟩ | ⟨hnone, -⟩
  · refine ⟨ent, ⟨hperm.mem_iff.1 hent.mem, hent.le, fun other hother => ?_⟩, hframe⟩
    exact hent.greatest other (hperm.mem_iff.2 hother)
  · exact absurd hbelow (UInt64.not_le.2 (hnone e (hperm.mem_iff.2 he)))

end Symbolizer

/-- **Both searches are exact.** -/
theorem address_searches_exact (pc : UInt64) :
    (∀ entries, SortedMappings entries →
      (∀ e, findContaining entries pc = some e ↔ e ∈ entries ∧ e.contains pc = true) ∧
      (findContaining entries pc = none ↔ ∀ e ∈ entries, e.contains pc = false)) ∧
    (∀ s : Symbolizer, s.kallsyms.Pairwise (fun a b => a.addr ≤ b.addr) → pc ≠ 0 →
      ((s.symbolizeKernel pc).1.quality = .failed ↔ ∀ e ∈ s.kallsyms, ¬ e.addr ≤ pc) ∧
      ((s.symbolizeKernel pc).1.quality ≠ .failed →
        ∃ ent, NearestSymbol s.kallsyms pc ent ∧
          (s.symbolizeKernel pc).1 = { pc, module := Symbolizer.kernelModule, symbol := ent.name,
                                       offset := pc - ent.addr, quality := .full })) := by
  refine ⟨fun entries h => ⟨fun e => h.findContaining_eq_some, h.findContaining_eq_none⟩, fun s h hpc => ?_⟩
  rcases Symbolizer.symbolizeKernel_cases h hpc with ⟨ent, hent, hframe⟩ | ⟨hnone, hfailed⟩
  · have hfull : (s.symbolizeKernel pc).1.quality ≠ .failed := by
      rw [hframe]
      exact StackQuality.noConfusion
    exact ⟨iff_of_false hfull fun hall => hall ent hent.mem hent.le, fun _ => ⟨ent, hent, hframe⟩⟩
  · exact ⟨iff_of_true hfailed fun e he => UInt64.not_le.2 (hnone e he), fun hfull => absurd hfailed hfull⟩

/-- Two mappings with a gap between them. -/
def gappedMappings : List ProcMapsEntry :=
  [⟨0x1000, 0x2000, [0x78], 0, []⟩, ⟨0x3000, 0x4000, [0x78], 0, []⟩]

theorem sortedMappings_gapped : SortedMappings gappedMappings where
  nonempty := by decide
  sorted := by decide
  disjoint := by
    refine List.pairwise_pair.2 fun pc ⟨hfirst, hsecond⟩ => ?_
    have hbelow := (ProcMapsEntry.contains_iff.1 hfirst).2
    have habove := (ProcMapsEntry.contains_iff.1 hsecond).1
    exact absurd (UInt64.lt_of_le_of_lt habove hbelow) (by decide)

/-- Two symbols of the same address, and one above. -/
def aliasedSymbols : List KallsymsEntry := [⟨0x1000, [0x61]⟩, ⟨0x1000, [0x62]⟩, ⟨0x5000, [0x63]⟩]

theorem address_searches_exact_between :
    (findContaining gappedMappings 0x2800 = none ↔ ∀ e ∈ gappedMappings, e.contains 0x2800 = false) ∧
      ((({ kallsyms := aliasedSymbols } : Symbolizer).symbolizeKernel 0x2800).1.quality = .failed ↔
        ∀ e ∈ aliasedSymbols, ¬ e.addr ≤ 0x2800) :=
  ⟨((address_searches_exact 0x2800).1 gappedMappings sortedMappings_gapped).2,
    ((address_searches_exact 0x2800).2 { kallsyms := aliasedSymbols } (by decide) (by decide)).1⟩

end BinderTracer.Daemon
