import BinderTracer.Lib.SortedLookup
import BinderTracer.Daemon.Payload

/-!
# Symbol tables of ELF files

`loadElfSymbols`, `appendElfSymbols` and `lookupElfSymbol` of `symbolizer.go`. The symbols of `.symtab`
and `.dynsym` are put together and sorted; the lookup is one binary search, and looks at one symbol only:
of those with the greatest start not above the address, a smallest one (`lookupElfSymbol_cases`). So
it finds a covering symbol, if there is one, exactly if those all cover the address and have the same size.
-/

namespace BinderTracer.Daemon

open BinderTracer.Lib

/-- `elf.Symbol`: an entry of a symbol table. -/
structure ElfFileSymbol where
  name : Bytes
  info : UInt8
  value : UInt64
  size : UInt64
deriving DecidableEq, Repr

/-- A `PT_LOAD` program header. -/
structure LoadSegment where
  offset : UInt64
  vaddr : UInt64
deriving DecidableEq, Repr

/-- An ELF file as far as it matters here; a table that cannot be read is `none`. -/
structure ElfFile where
  loadSegments : List LoadSegment
  symtab : Option (List ElfFileSymbol)
  dynsym : Option (List ElfFileSymbol)
deriving DecidableEq, Repr

/-- `elfSymbol`. -/
structure ElfSymbol where
  rva : UInt64
  size : UInt64
  name : Bytes
deriving DecidableEq, Repr

/-- `elfSymbols`: the function symbols of a file. -/
structure ElfSymbols where
  path : Bytes
  symtabAvailable : Bool
  symbols : List ElfSymbol
deriving DecidableEq, Repr

def sttFunc : UInt8 := 2

def sttGnuIfunc : UInt8 := 0xa

/-- `elf.ST_TYPE`. -/
def stType (info : UInt8) : UInt8 := info &&& 0xf

/-- What `appendElfSymbols` makes of one entry: functions with a value and a name are kept. -/
def keptSymbol (sym : ElfFileSymbol) : Option ElfSymbol :=
  if stType sym.info ≠ sttFunc ∧ stType sym.info ≠ sttGnuIfunc then none
  else if sym.value = 0 ∨ sym.name = [] then none
  else some { rva := sym.value, size := sym.size, name := sym.name }

def appendElfSymbols (dst : List ElfSymbol) (src : List ElfFileSymbol) : List ElfSymbol :=
  dst ++ src.filterMap keptSymbol

/-- The order of the symbols: by start, the larger first. -/
def elfSymbolLess (a b : ElfSymbol) : Bool := if a.rva = b.rva then b.size < a.size else a.rva < b.rva

/-- `loadElfSymbols` of an opened file. A table that cannot be read or is empty adds nothing. -/
def loadElfSymbols (sort : SliceSort elfSymbolLess) (path : Bytes) (file : ElfFile) : Option ElfSymbols :=
  let syms := file.symtab.getD []
  let dyn := file.dynsym.getD []
  let symbols := appendElfSymbols (appendElfSymbols [] syms) dyn
  if symbols.isEmpty then none
  else some { path, symtabAvailable := !syms.isEmpty, symbols := sort.sort symbols }

/-- `lookupElfSymbol`. A symbol without a size is returned as the nearest one. -/
def lookupElfSymbol (symbols : List ElfSymbol) (rva : UInt64) : Option ElfSymbol :=
  let idx := searchIn (fun sym : ElfSymbol => rva < sym.rva) symbols
  if idx = 0 then none
  else
    match symbols[idx - 1]? with
    | none => none
    | some cand =>
      if cand.size = 0 then some cand
      else if rva < cand.rva + cand.size then some cand
      else none

/-! ### Covering symbols -/

/-- The address is in the range of the symbol. -/
def ElfSymbol.Covers (sym : ElfSymbol) (a : UInt64) : Prop :=
  sym.rva ≤ a ∧ a.toNat < sym.rva.toNat + sym.size.toNat

instance (sym : ElfSymbol) (a : UInt64) : Decidable (sym.Covers a) := inferInstanceAs (Decidable (_ ∧ _))

/-- No symbol starts nearer to the address, at or below it. -/
def Nearest (symbols : List ElfSymbol) (a : UInt64) (sym : ElfSymbol) : Prop :=
  sym ∈ symbols ∧ sym.rva ≤ a ∧ ∀ other ∈ symbols, other.rva ≤ a → other.rva ≤ sym.rva

instance (symbols : List ElfSymbol) (a : UInt64) (sym : ElfSymbol) : Decidable (Nearest symbols a sym) :=
  inferInstanceAs (Decidable (_ ∧ _ ∧ _))

theorem elfSymbolLess_eq_false {a b : ElfSymbol} :
    elfSymbolLess b a = false ↔ a.rva < b.rva ∨ a.rva = b.rva ∧ b.size ≤ a.size := by
  unfold elfSymbolLess
  split
  · next heq => simp [heq]
  · next hne =>
    have hne' : a.rva ≠ b.rva := fun h => hne h.symm
    simp only [decide_eq_false_iff_not, UInt64.not_lt]
    constructor
    · intro hle
      exact .inl (UInt64.lt_of_le_of_ne hle hne')
    · rintro (hlt | ⟨heq, -⟩)
      · exact UInt64.le_of_lt hlt
      · exact absurd heq hne'

/-- A symbol before another in the order does not start after it. -/
theorem rva_le_of_ordered {a b : ElfSymbol} (h : elfSymbolLess b a = false) : a.rva ≤ b.rva := by
  rcases elfSymbolLess_eq_false.1 h with hlt | ⟨heq, -⟩
  · exact UInt64.le_of_lt hlt
  · exact heq ▸ UInt64.le_refl _

/-- The symbols sorted by insertion. -/
def sortSymbols : SliceSort elfSymbolLess :=
  .insertion
    (by
      intro a b
      rw [elfSymbolLess_eq_false, elfSymbolLess_eq_false]
      simp only [UInt64.lt_iff_toNat_lt, UInt64.le_iff_toNat_le, ← UInt64.toNat_inj]
      omega)
    (by
      intro a b c
      rw [elfSymbolLess_eq_false, elfSymbolLess_eq_false, elfSymbolLess_eq_false]
      simp only [UInt64.lt_iff_toNat_lt, UInt64.le_iff_toNat_le, ← UInt64.toNat_inj]
      omega)

/-- What the one symbol is that the lookup looks at: a smallest of the nearest ones. -/
theorem lookupElfSymbol_cases {symbols : List ElfSymbol} (a : UInt64)
    (hordered : symbols.Pairwise fun x y => elfSymbolLess y x = false) :
    (lookupElfSymbol symbols a = none ∧ ∀ sym ∈ symbols, a < sym.rva) ∨
      ∃ cand, Nearest symbols a cand ∧ (∀ sym ∈ symbols, sym.rva = cand.rva → cand.size ≤ sym.size) ∧
        lookupElfSymbol symbols a =
          if cand.size = 0 ∨ a < cand.rva + cand.size then some cand else none := by
  generalize hsorted : (fun sym : ElfSymbol => decide (a < sym.rva)) = above
  have hkeeps : KeepsHolding above symbols := by
    refine hordered.imp fun {x y} hxy hx => ?_
    subst hsorted
    exact decide_eq_true (UInt64.lt_of_lt_of_le (of_decide_eq_true hx) (rva_le_of_ordered hxy))
  by_cases hzero : searchIn above symbols = 0
  · refine .inl ⟨?_, ?_⟩
    · rw [lookupElfSymbol, hsorted]
      exact if_pos hzero
    · intro sym hsym
      obtain ⟨i, hi⟩ := List.getElem?_of_mem hsym
      have habove := searchIn_after hkeeps (by omega) hi
      subst hsorted
      exact of_decide_eq_true habove
  · obtain ⟨cand, hcand, hbelow⟩ := searchIn_pred above symbols hzero
    have hle : cand.rva ≤ a := by
      subst hsorted
      exact UInt64.not_lt.1 (of_decide_eq_false hbelow)
    -- every symbol that starts at or below the address stands before the candidate
    have hbefore : ∀ sym ∈ symbols, sym.rva ≤ a → sym = cand ∨ elfSymbolLess cand sym = false := by
      intro sym hsym hsymle
      refine eq_or_rel_pred hordered hkeeps hcand hsym ?_
      subst hsorted
      exact decide_eq_false (UInt64.not_lt.2 hsymle)
    refine .inr ⟨cand, ⟨List.mem_of_getElem? hcand, hle, ?_⟩, ?_, ?_⟩
    · intro sym hsym hsymle
      rcases hbefore sym hsym hsymle with rfl | hord
      · exact UInt64.le_refl _
      · exact rva_le_of_ordered hord
    · intro sym hsym hsame
      rcases hbefore sym hsym (hsame ▸ hle) with rfl | hord
      · exact UInt64.le_refl _
      · rcases elfSymbolLess_eq_false.1 hord with hlt | ⟨-, hsize⟩
        · exact absurd (hsame ▸ hlt) (UInt64.lt_irrefl _)
        · exact hsize
    · rw [lookupElfSymbol, hsorted]
      simp only [if_neg hzero, hcand]
      by_cases hsize : cand.size = 0
      · simp [hsize]
      · simp [hsize]

/-- An address below the end of a symbol as the code computes it is below its end. -/
theorem covers_of_lt_end {sym : ElfSymbol} {a : UInt64} (hle : sym.rva ≤ a) (hlt : a < sym.rva + sym.size) :
    sym.Covers a := by
  refine ⟨hle, ?_⟩
  rw [UInt64.lt_iff_toNat_lt, UInt64.toNat_add] at hlt
  have hmod := Nat.mod_le (sym.rva.toNat + sym.size.toNat) (2 ^ 64)
  omega

/-- The converse needs an end inside the address space. -/
theorem lt_end_of_covers {sym : ElfSymbol} {a : UInt64} (hcovers : sym.Covers a)
    (hend : sym.rva.toNat + sym.size.toNat < 2 ^ 64) : a < sym.rva + sym.size := by
  rw [UInt64.lt_iff_toNat_lt, UInt64.toNat_add, Nat.mod_eq_of_lt hend]
  exact hcovers.2

/-- The nearest symbols all cover the address, have the same size and end inside the address space. -/
structure NearestCover (symbols : List ElfSymbol) (a : UInt64) : Prop where
  covers : ∀ sym ∈ symbols, Nearest symbols a sym → sym.Covers a
  sameSize : ∀ sym ∈ symbols, Nearest symbols a sym →
    ∀ other ∈ symbols, Nearest symbols a other → other.size = sym.size
  inSpace : ∀ sym ∈ symbols, Nearest symbols a sym → sym.rva.toNat + sym.size.toNat < 2 ^ 64

theorem NearestCover.of_perm {symbols sorted : List ElfSymbol} {a : UInt64} (hperm : sorted.Perm symbols)
    (h : NearestCover symbols a) : NearestCover sorted a := by
  have hnear : ∀ sym, Nearest sorted a sym → Nearest symbols a sym := fun sym hsym =>
    ⟨hperm.mem_iff.1 hsym.1, hsym.2.1, fun other hother => hsym.2.2 other (hperm.mem_iff.2 hother)⟩
  refine ⟨?_, ?_, ?_⟩
  · intro sym hsym hsymnear
    exact h.covers sym (hperm.mem_iff.1 hsym) (hnear sym hsymnear)
  · intro sym hsym hsymnear other hother hothernear
    exact h.sameSize sym (hperm.mem_iff.1 hsym) (hnear sym hsymnear) other (hperm.mem_iff.1 hother)
      (hnear other hothernear)
  · intro sym hsym hsymnear
    exact h.inSpace sym (hperm.mem_iff.1 hsym) (hnear sym hsymnear)

section
variable {symbols : List ElfSymbol} {a : UInt64}

/-- A symbol with a size is only returned if it covers the address. -/
theorem lookupElfSymbol_sound (hordered : symbols.Pairwise fun x y => elfSymbolLess y x = false)
    {sym : ElfSymbol} (h : lookupElfSymbol symbols a = some sym) :
    sym ∈ symbols ∧ (sym.size ≠ 0 → sym.Covers a) := by
  rcases lookupElfSymbol_cases a hordered with ⟨hnone, -⟩ | ⟨cand, hnear, -, hlookup⟩
  · rw [hnone] at h
    cases h
  · rw [hlookup] at h
    split at h
    · next hend =>
      cases h
      exact ⟨hnear.1, fun hsize => covers_of_lt_end hnear.2.1 (hend.resolve_left hsize)⟩
    · cases h

/-- If the nearest symbols cover the address, one of them is returned. -/
theorem lookupElfSymbol_complete (hordered : symbols.Pairwise fun x y => elfSymbolLess y x = false)
    (hcover : NearestCover symbols a) (hsome : ∃ sym ∈ symbols, sym.Covers a) :
    ∃ sym ∈ symbols, lookupElfSymbol symbols a = some sym ∧ sym.Covers a ∧
      ∀ other ∈ symbols, other.rva = sym.rva → other.size ≤ sym.size := by
  rcases lookupElfSymbol_cases a hordered with ⟨-, habove⟩ | ⟨cand, hnear, -, hlookup⟩
  · obtain ⟨sym, hsym, hle, -⟩ := hsome
    exact absurd hle (UInt64.not_le.2 (habove sym hsym))
  · have hcovers := hcover.covers cand hnear.1 hnear
    refine ⟨cand, hnear.1, ?_, hcovers, ?_⟩
    · rw [hlookup, if_pos (.inr (lt_end_of_covers hcovers (hcover.inSpace cand hnear.1 hnear)))]
    · intro other hother hsame
      have hothernear : Nearest symbols a other := by
        refine ⟨hother, hsame ▸ hnear.2.1, ?_⟩
        rw [hsame]
        exact hnear.2.2
      exact hcover.sameSize cand hnear.1 hnear other hother hothernear ▸ UInt64.le_refl _

/-- The returned symbol is a smallest of the nearest ones; if it is also a largest, they all have its size. -/
theorem nearestCover_of_found (hordered : symbols.Pairwise fun x y => elfSymbolLess y x = false) {sym : ElfSymbol}
    (hfound : lookupElfSymbol symbols a = some sym) (hcovers : sym.Covers a)
    (hlargest : ∀ other ∈ symbols, other.rva = sym.rva → other.size ≤ sym.size) : NearestCover symbols a := by
  rcases lookupElfSymbol_cases a hordered with ⟨hnone, -⟩ | ⟨cand, hnear, hsmallest, hlookup⟩
  · rw [hnone] at hfound
    cases hfound
  rw [hlookup] at hfound
  split at hfound
  · next hend =>
    cases hfound
    have hsame : ∀ other, Nearest symbols a other → other.rva = sym.rva ∧ other.size = sym.size := by
      intro other hother
      have hrva : other.rva = sym.rva :=
        UInt64.le_antisymm (hnear.2.2 other hother.1 hother.2.1) (hother.2.2 sym hnear.1 hnear.2.1)
      exact ⟨hrva, UInt64.le_antisymm (hlargest other hother.1 hrva) (hsmallest other hother.1 hrva)⟩
    have hinSpace : sym.rva.toNat + sym.size.toNat < 2 ^ 64 := by
      have hsize := hcovers.2
      have hle := hcovers.1
      rw [← UInt64.toNat_inj, UInt64.lt_iff_toNat_lt, UInt64.toNat_add] at hend
      rw [UInt64.le_iff_toNat_le] at hle
      have hlt := sym.size.toNat_lt
      change sym.size.toNat = 0 ∨ _ at hend
      omega
    refine ⟨fun other _ hother => ?_, fun one _ hone other _ hother => ?_, fun other _ hother => ?_⟩
    · obtain ⟨hrva, hsize⟩ := hsame other hother
      unfold ElfSymbol.Covers
      rw [hrva, hsize]
      exact hcovers
    · rw [(hsame one hone).2, (hsame other hother).2]
    · obtain ⟨hrva, hsize⟩ := hsame other hother
      rw [hrva, hsize]
      exact hinSpace
  · cases hfound

end

/-- The lookup finds a covering symbol, if there is one, and of those with one start the largest. -/
def FindsCovering (symbols : List ElfSymbol) (found : Option ElfSymbol) (a : UInt64) : Prop :=
  (∃ sym ∈ symbols, sym.Covers a) → ∃ sym ∈ symbols, found = some sym ∧ sym.Covers a ∧
    ∀ other ∈ symbols, other.rva = sym.rva → other.size ≤ sym.size

/-- **Symbol lookup**: a symbol of nonzero size that is returned covers the address; and a covering symbol is found
exactly if there is none or the nearest symbols cover the address with one size. -/
theorem lookup_finds_covering_iff (sort : SliceSort elfSymbolLess) (symbols : List ElfSymbol) (a : UInt64) :
    (∀ sym, lookupElfSymbol (sort.sort symbols) a = some sym → sym.size ≠ 0 → sym.Covers a) ∧
    (FindsCovering symbols (lookupElfSymbol (sort.sort symbols) a) a ↔
      (∀ sym ∈ symbols, ¬sym.Covers a) ∨ NearestCover symbols a) := by
  have hperm := sort.perm symbols
  have hordered := sort.ordered symbols
  refine ⟨?_, ?_, ?_⟩
  · intro sym hsym hsize
    exact (lookupElfSymbol_sound hordered hsym).2 hsize
  · intro hfinds
    by_cases hsome : ∃ sym ∈ symbols, sym.Covers a
    · obtain ⟨sym, -, hfound, hcovers, hlargest⟩ := hfinds hsome
      refine .inr (NearestCover.of_perm hperm.symm (nearestCover_of_found hordered hfound hcovers ?_))
      intro other hother
      exact hlargest other (hperm.mem_iff.1 hother)
    · exact .inl fun sym hsym hcovers => hsome ⟨sym, hsym, hcovers⟩
  · rintro (hnone | hcover) ⟨covering, hmem, hcovers⟩
    · exact absurd hcovers (hnone covering hmem)
    · obtain ⟨sym, hsym, hfound, hsymcovers, hlargest⟩ := lookupElfSymbol_complete hordered
        (hcover.of_perm hperm) ⟨covering, hperm.mem_iff.2 hmem, hcovers⟩
      refine ⟨sym, hperm.mem_iff.1 hsym, hfound, hsymcovers, ?_⟩
      intro other hother
      exact hlargest other (hperm.mem_iff.2 hother)

/-- A function in which another one lies, known by two names. -/
theorem lookup_finds_nested :
    let outer : ElfSymbol := ⟨0x100, 0x100, [0x6F]⟩
    let inner : ElfSymbol := ⟨0x140, 0x20, [0x69]⟩
    let twin : ElfSymbol := ⟨0x140, 0x20, [0x61]⟩
    FindsCovering [inner, outer, twin] (lookupElfSymbol (sortSymbols.sort [inner, outer, twin]) 0x150) 0x150 := by
  intro outer inner twin
  exact (lookup_finds_covering_iff sortSymbols [inner, outer, twin] 0x150).2.2
    (.inr ⟨by decide, by decide, by decide⟩)

/-- After the end of an inner function, or of a shorter one with the same start, the one that still covers
the address is not found. -/
theorem lookup_misses_outer :
    let outer : ElfSymbol := ⟨0x100, 0x100, [0x6F]⟩
    let inner : ElfSymbol := ⟨0x110, 0x10, [0x69]⟩
    let shorter : ElfSymbol := ⟨0x100, 0x10, [0x73]⟩
    outer.Covers 0x150 ∧ lookupElfSymbol (sortSymbols.sort [outer, inner]) 0x150 = none ∧
      lookupElfSymbol (sortSymbols.sort [outer, shorter]) 0x150 = none := by
  decide +kernel

end BinderTracer.Daemon
