import BinderTracer.Daemon.ProcFiles
import BinderTracer.Daemon.UserFrames

/-!
# How old the answer of the symbolizer is

Processes come and go and map new files while stacks are resolved, and the symbolizer answers from what it
has read before. Whatever was resolved so far and whatever `/proc` and the files said at each reading, a user
frame is placed in a mapping that was read for the same pid less than 100 ms before, by the clock; an address
that this reading does not cover is looked up in a reading of its own. The symbols of a file are kept for as
long as there is room.
-/

namespace BinderTracer.Daemon

open BinderTracer.Lib

/-- What one call of `getOrLoadMaps` finds in `/proc`. -/
structure ProcReading where
  nowNs : Int
  expiryStat : Option Bytes
  stat : Option Bytes
  maps : Option Bytes

def ProcReading.reads (r : ProcReading) : MapsReads where
  nowNs := r.nowNs
  expiryStarttime := readProcStarttime r.expiryStat
  starttime := readProcStarttime r.stat
  maps := readMapsFile r.maps

/-- A call of `SymbolizeUser`, with the files as they are at the time. -/
structure UserCall where
  pid : Int
  pc : UInt64
  first : ProcReading
  retry : ProcReading
  elfFile : Bytes → Option ElfFile

def UserCall.reads (call : UserCall) : UserReads where
  first := call.first.reads
  retry := call.retry.reads
  elfFile := call.elfFile

inductive FrameRequest where
  | kernel (pc : UInt64)
  | user (call : UserCall)

namespace Symbolizer

/-! ### Runs -/

/-- The symbolizer after a request. -/
def answer (sortMaps : SliceSort mapsEntryLess) (sortSymbols : SliceSort elfSymbolLess) (s : Symbolizer) :
    FrameRequest → Symbolizer
  | .kernel pc => (s.symbolizeKernel pc).2
  | .user call => (symbolizeUser sortMaps sortSymbols s call.pid call.pc call.reads).2

def answers (sortMaps : SliceSort mapsEntryLess) (sortSymbols : SliceSort elfSymbolLess) (s : Symbolizer)
    (history : List FrameRequest) : Symbolizer :=
  history.foldl (answer sortMaps sortSymbols) s

/-- One of the two readings of a request for this pid. -/
def ReadFor (history : List FrameRequest) (pid : Int) (r : ProcReading) : Prop :=
  ∃ call, .user call ∈ history ∧ call.pid = pid ∧ (r = call.first ∨ r = call.retry)

/-- The functions of the file as it was at some request. -/
def LoadedFrom (history : List FrameRequest) (path : Bytes) (es : ElfSymbols) : Prop :=
  ∃ call file, .user call ∈ history ∧ call.elfFile path = some file ∧ TableOf file es.symbols

section
variable (sortMaps : SliceSort mapsEntryLess) (sortSymbols : SliceSort elfSymbolLess)

/-- The mappings of a reading for this pid. -/
def MapsRead (history : List FrameRequest) (pid : Int) (pm : ProcMaps) : Prop :=
  ∃ r, ReadFor history pid r ∧ FreshFrom sortMaps r.reads pm

theorem readingKeeps_of_readFor {history : List FrameRequest} {pid : Int} {r : ProcReading}
    (hr : ReadFor history pid r) : ReadingKeeps sortMaps (MapsRead sortMaps history) pid r.reads :=
  fun maps hmaps _ => ⟨r, hr, rfl, maps, hmaps, rfl⟩

theorem loadedFrom_of_mem {history : List FrameRequest} {call : UserCall} (hcall : .user call ∈ history)
    (path : Bytes) (file : ElfFile) (es : ElfSymbols) (hfile : call.elfFile path = some file)
    (hes : loadElfSymbols sortSymbols path file = some es) : LoadedFrom history path es :=
  ⟨call, file, hcall, hfile, (loadElfSymbols_functions sortSymbols path file).2 es hes⟩

theorem Caches.extend {s : Symbolizer} {history : List FrameRequest}
    (h : s.Caches (MapsRead sortMaps history) (LoadedFrom history)) (request : FrameRequest) :
    s.Caches (MapsRead sortMaps (history ++ [request])) (LoadedFrom (history ++ [request])) := by
  refine h.mono ?_ ?_
  · rintro pid pm ⟨r, ⟨call, hcall, hpid, hr⟩, hfresh⟩
    exact ⟨r, ⟨call, List.mem_append_left _ hcall, hpid, hr⟩, hfresh⟩
  · rintro path es ⟨call, file, hcall, hfile, htable⟩
    exact ⟨call, file, List.mem_append_left _ hcall, hfile, htable⟩

/-- A request for a user frame, whatever came before. -/
theorem symbolizeUser_placed {s : Symbolizer} {history : List FrameRequest}
    (h : s.Caches (MapsRead sortMaps history) (LoadedFrom history)) (call : UserCall) :
    (symbolizeUser sortMaps sortSymbols s call.pid call.pc call.reads).2.Caches
        (MapsRead sortMaps (history ++ [.user call])) (LoadedFrom (history ++ [.user call])) ∧
      Placed sortMaps sortSymbols (MapsRead sortMaps (history ++ [.user call])) (LoadedFrom (history ++ [.user call]))
        call.pid call.pc call.reads (symbolizeUser sortMaps sortSymbols s call.pid call.pc call.reads).1 := by
  have hcall : .user call ∈ history ++ [.user call] := List.mem_append_right _ List.mem_cons_self
  exact symbolizeUser_spec sortMaps sortSymbols (h.extend sortMaps (.user call)) call.pc
    (readingKeeps_of_readFor sortMaps ⟨call, hcall, rfl, .inl rfl⟩)
    (readingKeeps_of_readFor sortMaps ⟨call, hcall, rfl, .inr rfl⟩)
    (loadedFrom_of_mem sortSymbols hcall)

/-- What is cached was read, whatever was resolved. -/
theorem caches_answers (kallsyms : List KallsymsEntry) (history : List FrameRequest) :
    (answers sortMaps sortSymbols { kallsyms := kallsyms } history).Caches (MapsRead sortMaps history)
      (LoadedFrom history) := by
  induction history using List.reverseRecOn with
  | nil => exact Caches.start kallsyms
  | append_singleton history request ih =>
    rw [answers, List.foldl_append]
    cases request with
    | kernel pc => exact (ih.extend sortMaps (.kernel pc)).symbolizeKernel pc
    | user call => exact (symbolizeUser_placed sortMaps sortSymbols ih call).1

end

end Symbolizer

/-- What a user frame says about the process and the file it is in. -/
inductive FrameOrigin (history : List FrameRequest) (call : UserCall) (frame : SymbolFrame) : Prop where
  | failed (hframe : frame = { pc := call.pc, quality := .failed })
      (hread : call.pc = 0 ∨ call.first.reads.Unreadable ∨ call.retry.reads.Unreadable)
  | unmapped (hframe : frame = { pc := call.pc, quality := .degraded }) (maps : List ProcMapsEntry)
      (hread : readMapsFile call.retry.maps = some maps)
      (hnone : AddressSpace maps → ∀ e ∈ maps, e.executable → ¬(e.start ≤ call.pc ∧ call.pc < e.endAddr))
  | mapped (r : ProcReading) (hfor : Symbolizer.ReadFor history call.pid r)
      (hage : call.first.nowNs - r.nowNs < procMapsTTL ∨ r = call.retry) (maps : List ProcMapsEntry)
      (hread : readMapsFile r.maps = some maps) (entry : ProcMapsEntry) (hentry : entry ∈ maps)
      (hexec : entry.executable) (hpc : entry.start ≤ call.pc ∧ call.pc < entry.endAddr)
      (hmodule : frame.module = entry.path)
      (hsymbol : frame.symbol = [] ∨
        ∃ earlier file, .user earlier ∈ history ∧ earlier.elfFile entry.path = some file ∧
          ∃ f ∈ file.functions, frame.symbol = f.name ∧
            frame.offset = entry.offset + (call.pc - entry.start) - f.rva ∧
            (f.size ≠ 0 → f.Covers (entry.offset + (call.pc - entry.start))))

theorem mem_of_findContaining {entries : List ProcMapsEntry} {pc : UInt64} {entry : ProcMapsEntry}
    (h : findContaining entries pc = some entry) : entry ∈ entries ∧ entry.start ≤ pc ∧ pc < entry.endAddr := by
  unfold findContaining at h
  split at h
  · cases h
  · next e he =>
    split at h
    · next hpc =>
      cases h
      exact ⟨List.mem_of_getElem? he, hpc⟩
    · cases h

/-- What is placed in a reading has its origin there. -/
theorem FrameOrigin.of_mapped {sortMaps : SliceSort mapsEntryLess} {sortSymbols : SliceSort elfSymbolLess}
    {history : List FrameRequest} {call : UserCall}
    {frame : SymbolFrame} {r : ProcReading} {pm : ProcMaps} {entry : ProcMapsEntry}
    (hfor : Symbolizer.ReadFor history call.pid r) (hfresh : Symbolizer.FreshFrom sortMaps r.reads pm)
    (hage : call.first.nowNs - r.nowNs < procMapsTTL ∨ r = call.retry)
    (hentry : findContaining pm.entries call.pc = some entry)
    (hshows : Symbolizer.ShowsIn sortSymbols (Symbolizer.LoadedFrom history) call.pc entry call.elfFile frame) :
    FrameOrigin history call frame := by
  obtain ⟨-, maps, hmaps, hentries⟩ := hfresh
  obtain ⟨hmem, hpc⟩ := mem_of_findContaining hentry
  rw [hentries] at hmem
  obtain ⟨hin, hexec⟩ := List.mem_filter.1 ((Symbolizer.snapshot_readProcMaps sortMaps maps).perm.mem_iff.1 hmem)
  obtain ⟨hmodule, hsymbol⟩ := hshows
  refine .mapped r hfor hage maps hmaps entry hin hexec hpc hmodule ?_
  rcases hsymbol with ⟨hnone, -⟩ |
    ⟨es, ⟨earlier, file, hearlier, hfile, htable⟩, ⟨hnone, -⟩ | ⟨sym, hlookup, hname, hoffset⟩⟩
  · exact .inl hnone
  · exact .inl hnone
  · obtain ⟨hsym, hcovers⟩ := lookupElfSymbol_sound htable.ordered hlookup
    exact .inr ⟨earlier, file, hearlier, hfile, sym, htable.perm.mem_iff.1 hsym, hname, hoffset, hcovers⟩

/-- **A user frame is placed by a reading that is younger than 100 ms**, of the same pid, and named after a function
of the file of that mapping as it was at some request; an address is in no mapping only if a reading made for it
says so, whose mappings do not overlap; and it fails only at 0 or where something could not be read. -/
theorem user_frame_origin (sortMaps : SliceSort mapsEntryLess) (sortSymbols : SliceSort elfSymbolLess)
    (kallsyms : List KallsymsEntry) (history : List FrameRequest) (call : UserCall) :
    FrameOrigin (history ++ [.user call]) call
      (Symbolizer.symbolizeUser sortMaps sortSymbols
        (Symbolizer.answers sortMaps sortSymbols { kallsyms := kallsyms } history) call.pid call.pc call.reads).1 := by
  have hcaches := Symbolizer.caches_answers sortMaps sortSymbols kallsyms history
  rcases (Symbolizer.symbolizeUser_placed sortMaps sortSymbols hcaches call).2 with
    ⟨hframe, hread⟩ | ⟨hframe, pm, ⟨-, maps, hmaps, hentries⟩, hnone⟩ |
      ⟨pm, ⟨r, hfor, hfresh⟩, hage | hretry, entry, hentry, hshows⟩
  · exact .failed hframe hread
  · refine .unmapped hframe maps hmaps ?_
    intro hspace e he hexec hpc
    have hfound := (Symbolizer.snapshot_readProcMaps sortMaps maps).findContaining hspace he hexec hpc
    rw [← hentries, hnone] at hfound
    cases hfound
  · refine .of_mapped hfor hfresh (.inl ?_) hentry hshows
    rw [hfresh.1] at hage
    exact hage
  · exact .of_mapped ⟨call, List.mem_append_right _ List.mem_cons_self, rfl, .inr rfl⟩ hretry (.inr rfl) hentry hshows

end BinderTracer.Daemon
