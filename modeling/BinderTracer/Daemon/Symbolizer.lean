import BinderTracer.Lib.Decimal
import BinderTracer.Lib.LruMap
import BinderTracer.Lib.TextFields
import BinderTracer.Daemon.ElfSymbols

/-!
# The symbolizer

`symbolizer.go`: kernel frames are looked up in the table of `kallsyms`, user frames by way of the
process's mappings and the symbols of the mapped file. Both the mappings of a process and the symbols of
a file are cached. What the symbolizer reads of the system, the clock included, is a parameter of each
call and may be different at every reading.
-/

namespace BinderTracer.Daemon

open BinderTracer.Lib

/-- How well a frame or a stack was resolved. -/
inductive StackQuality where
  | full
  | fpOnly
  | degraded
  | failed
deriving DecidableEq, Repr

/-- The byte that is sent. -/
def StackQuality.code : StackQuality → UInt8
  | .full => 0
  | .fpOnly => 1
  | .degraded => 2
  | .failed => 3

/-- One resolved frame. -/
structure SymbolFrame where
  pc : UInt64
  module : Bytes := []
  symbol : Bytes := []
  offset : UInt64 := 0
  quality : StackQuality
deriving DecidableEq, Repr

structure KallsymsEntry where
  addr : UInt64
  name : Bytes
deriving DecidableEq, Repr

/-- A line of `/proc/<pid>/maps`. -/
structure ProcMapsEntry where
  start : UInt64
  endAddr : UInt64
  perms : Bytes
  offset : UInt64
  path : Bytes
deriving DecidableEq, Repr

/-- The executable mappings of a process as they were read. -/
structure ProcMaps where
  pid : Int
  pidStartTime : UInt64
  loadedNs : Int
  entries : List ProcMapsEntry
deriving DecidableEq, Repr

structure SymbolizerCounters where
  full : UInt64 := 0
  fpOnly : UInt64 := 0
  degraded : UInt64 := 0
  failed : UInt64 := 0
  symtabUnavailableSo : UInt64 := 0
  kallsymsLoadedCount : UInt64 := 0
deriving DecidableEq, Repr

structure Symbolizer where
  kallsyms : List KallsymsEntry := []
  procMapsCache : LruMap Int ProcMaps := {}
  elfCache : LruMap Bytes ElfSymbols := {}
  counters : SymbolizerCounters := {}

/-- What one call of `getOrLoadMaps` reads: the clock, the start time of the process once when a cached
entry has expired and once when there is none, and the lines of the maps. -/
structure MapsReads where
  nowNs : Int
  expiryStarttime : Option UInt64
  starttime : Option UInt64
  maps : Option (List ProcMapsEntry)

/-- What one call of `SymbolizeUser` reads. -/
structure UserReads where
  first : MapsReads
  retry : MapsReads
  elfFile : Bytes → Option ElfFile

/-- 100 ms. -/
def procMapsTTL : Int := 100000000

def cacheCapacity : Nat := 128

/-- The mapping has the permission `x`. -/
def ProcMapsEntry.executable (e : ProcMapsEntry) : Bool := e.perms.contains 0x78

def mapsEntryLess (a b : ProcMapsEntry) : Bool := a.start < b.start

/-- The mappings sorted by insertion. -/
def sortEntries : SliceSort mapsEntryLess :=
  .insertion
    (by
      intro a b
      simp only [mapsEntryLess, decide_eq_false_iff_not, UInt64.lt_iff_toNat_lt]
      omega)
    (by
      intro a b c
      simp only [mapsEntryLess, decide_eq_false_iff_not, UInt64.lt_iff_toNat_lt]
      omega)

/-- `findContaining`: the first mapping that ends above the address. -/
def findContaining (entries : List ProcMapsEntry) (pc : UInt64) : Option ProcMapsEntry :=
  match entries[searchIn (fun e : ProcMapsEntry => pc < e.endAddr) entries]? with
  | none => none
  | some e => if e.start ≤ pc ∧ pc < e.endAddr then some e else none

/-- The counters, with one more frame of this quality. -/
def SymbolizerCounters.count (c : SymbolizerCounters) : StackQuality → SymbolizerCounters
  | .full => { c with full := c.full + 1 }
  | .fpOnly => { c with fpOnly := c.fpOnly + 1 }
  | .degraded => { c with degraded := c.degraded + 1 }
  | .failed => { c with failed := c.failed + 1 }

/-! ### The symbols of the kernel -/

/-- White space in UTF-8. The first byte of a character is not found inside another one, so what
`strings.Fields` does character by character can be done with the bytes, valid or not. -/
def spaces : Separators UInt8 where
  texts := whiteSpace.map fun c => String.utf8EncodeChar (Char.ofNat c)
  ne_nil := by decide +kernel
  eq_of_isPrefix := by decide +kernel
  apart := by decide +kernel

/-- `strings.Fields`. -/
def fields (line : Bytes) : List Bytes := words spaces line

def hexDigit (b : UInt8) : Option Nat :=
  if 0x30 ≤ b ∧ b ≤ 0x39 then some (b.toNat - 0x30)
  else if 0x61 ≤ b ∧ b ≤ 0x66 then some (b.toNat - 0x61 + 10)
  else if 0x41 ≤ b ∧ b ≤ 0x46 then some (b.toNat - 0x41 + 10)
  else none

/-- `strconv.ParseUint(s, 16, 64)`. -/
def parseHex (s : Bytes) : Option UInt64 := (readNumeral hexDigit 16 (2 ^ 64) s).map UInt64.ofNat

/-- The entry of a line `<addr> <type> <name> [module]`. -/
def parseKallsymsLine (line : Bytes) : Option KallsymsEntry :=
  match fields line with
  | addrField :: _ :: name :: _ =>
    match parseHex addrField with
    | none => none
    | some addr => if addr = 0 then none else some { addr, name }
  | _ => none

def kallsymsLess (a b : KallsymsEntry) : Bool := a.addr < b.addr

namespace Symbolizer

/-- `LoadKallsyms`, with the lines of the file unless it could not be read to its end. -/
def loadKallsyms (sort : SliceSort kallsymsLess) (s : Symbolizer) (lines : Option (List Bytes)) : Symbolizer :=
  match lines with
  | none => s
  | some lines =>
    let entries := lines.filterMap parseKallsymsLine
    { s with
      kallsyms := sort.sort entries
      counters := { s.counters with kallsymsLoadedCount := UInt64.ofNat entries.length } }

/-- Count the frame and return it. -/
def returning (s : Symbolizer) (frame : SymbolFrame) : SymbolFrame × Symbolizer :=
  (frame, { s with counters := s.counters.count frame.quality })

/-- The module of kernel frames, `kernel`. -/
def kernelModule : Bytes := [0x6B, 0x65, 0x72, 0x6E, 0x65, 0x6C]

/-- `SymbolizeKernel`: the last symbol that does not start above the address. -/
def symbolizeKernel (s : Symbolizer) (pc : UInt64) : SymbolFrame × Symbolizer :=
  if s.kallsyms = [] ∨ pc = 0 then s.returning { pc, quality := .failed }
  else
    let idx := searchIn (fun e : KallsymsEntry => pc < e.addr) s.kallsyms
    if idx = 0 then s.returning { pc, module := kernelModule, quality := .failed }
    else
      match s.kallsyms[idx - 1]? with
      | none => s.returning { pc, module := kernelModule, quality := .failed }
      | some ent =>
        s.returning
          { pc, module := kernelModule, symbol := ent.name, offset := pc - ent.addr, quality := .full }

variable (sortMaps : SliceSort mapsEntryLess) (sortSymbols : SliceSort elfSymbolLess)

/-- `readProcMaps`: the executable mappings in order. -/
def readProcMaps (maps : List ProcMapsEntry) : List ProcMapsEntry :=
  sortMaps.sort (maps.filter ProcMapsEntry.executable)

/-- The end of `getOrLoadMaps`, when there is nothing in the cache. -/
def loadMaps (s : Symbolizer) (pid : Int) (r : MapsReads) : Option ProcMaps × Symbolizer :=
  match r.starttime with
  | none => (none, s)
  | some st =>
    match r.maps with
    | none => (none, s)
    | some maps =>
      let pm : ProcMaps :=
        { pid, pidStartTime := st, loadedNs := r.nowNs, entries := readProcMaps sortMaps maps }
      (some pm, { s with procMapsCache := s.procMapsCache.put cacheCapacity pid pm })

/-- `getOrLoadMaps`. An entry younger than the TTL is used as it is; an older one is read again, and
dropped if the process is gone or the pid has another owner. -/
def getOrLoadMaps (s : Symbolizer) (pid : Int) (r : MapsReads) : Option ProcMaps × Symbolizer :=
  match s.procMapsCache.get pid with
  | (none, cache) => loadMaps sortMaps { s with procMapsCache := cache } pid r
  | (some pm, cache) =>
    let s := { s with procMapsCache := cache }
    if r.nowNs - pm.loadedNs < procMapsTTL then (some pm, s)
    else
      match r.expiryStarttime with
      | none => (none, { s with procMapsCache := s.procMapsCache.drop pid })
      | some st =>
        if st = pm.pidStartTime then
          match r.maps with
          | none => (none, { s with procMapsCache := s.procMapsCache.drop pid })
          | some maps =>
            let refreshed := { pm with pid, loadedNs := r.nowNs, entries := readProcMaps sortMaps maps }
            (some refreshed, { s with procMapsCache := s.procMapsCache.put cacheCapacity pid refreshed })
        else loadMaps sortMaps { s with procMapsCache := s.procMapsCache.drop pid } pid r

/-- `getOrLoadElf`. -/
def getOrLoadElf (s : Symbolizer) (path : Bytes) (elfFile : Bytes → Option ElfFile) :
    Option ElfSymbols × Symbolizer :=
  if path = [] ∨ path.head? = some 0x5B then (none, s)
  else
    match s.elfCache.get path with
    | (some es, cache) => (some es, { s with elfCache := cache })
    | (none, cache) =>
      let s := { s with elfCache := cache }
      match (elfFile path).bind (loadElfSymbols sortSymbols path) with
      | none => (none, s)
      | some es =>
        let missing : UInt64 := if es.symtabAvailable then 0 else 1
        (some es,
          { s with
            counters := { s.counters with symtabUnavailableSo := s.counters.symtabUnavailableSo + missing }
            elfCache := s.elfCache.put cacheCapacity path es })

/-- `SymbolizeUser` from the mapping on. The position in the file is looked up as an address. -/
def symbolizeIn (s : Symbolizer) (pc : UInt64) (entry : ProcMapsEntry) (elfFile : Bytes → Option ElfFile) :
    SymbolFrame × Symbolizer :=
  let relPC := entry.offset + (pc - entry.start)
  match getOrLoadElf sortSymbols s entry.path elfFile with
  | (none, s) =>
    s.returning { pc, module := entry.path, offset := pc - entry.start, quality := .degraded }
  | (some elfSyms, s) =>
    match lookupElfSymbol elfSyms.symbols relPC with
    | none =>
      s.returning { pc, module := entry.path, offset := pc - entry.start, quality := .fpOnly }
    | some sym =>
      s.returning
        { pc, module := entry.path, symbol := sym.name, offset := relPC - sym.rva
          quality := if elfSyms.symtabAvailable then .full else .degraded }

/-- `SymbolizeUser`. An address in no mapping makes the symbolizer read the mappings again, once. -/
def symbolizeUser (s : Symbolizer) (pid : Int) (pc : UInt64) (r : UserReads) : SymbolFrame × Symbolizer :=
  if pc = 0 then s.returning { pc, quality := .failed }
  else
    match getOrLoadMaps sortMaps s pid r.first with
    | (none, s) => s.returning { pc, quality := .failed }
    | (some maps, s) =>
      match findContaining maps.entries pc with
      | some entry => symbolizeIn sortSymbols s pc entry r.elfFile
      | none =>
        let s := { s with procMapsCache := s.procMapsCache.drop pid }
        match getOrLoadMaps sortMaps s pid r.retry with
        | (none, s) => s.returning { pc, quality := .failed }
        | (some maps2, s) =>
          match findContaining maps2.entries pc with
          | some entry => symbolizeIn sortSymbols s pc entry r.elfFile
          | none => s.returning { pc, quality := .degraded }

end Symbolizer

end BinderTracer.Daemon
