import BinderTracer.Kernel.Records
import BinderTracer.Daemon.Symbolizer

/-!
# The quality of a whole stack

`symbolizeStackEvent` and `aggregateQuality` of `event_collector.go`. The frames of a stack are resolved
one after another, and their qualities are dropped; the quality of the stack is computed from which
names are empty. A frame without a module makes it DEGRADED, even if all of them have failed, and a
frame that was named by `.dynsym` only leaves it FULL.
-/

namespace BinderTracer.Daemon

open BinderTracer.Lib BinderTracer.Kernel

/-- A frame as it is sent, without its quality. -/
def SymbolFrame.toStackFrame (frame : SymbolFrame) : StackFrame :=
  { pc := frame.pc, module := frame.module, symbol := frame.symbol, offset := frame.offset }

/-- The loop over the addresses of one stack; a zero address is left out. Without a symbolizer every frame
has failed. -/
def symbolizeFrames (symbolize : Nat → UInt64 → Symbolizer → SymbolFrame × Symbolizer) :
    Option Symbolizer → Nat → List UInt64 → List SymbolFrame × Option Symbolizer
  | s, _, [] => ([], s)
  | s, i, pc :: pcs =>
    if pc = 0 then symbolizeFrames symbolize s (i + 1) pcs
    else
      match s with
      | none =>
        let (frames, s) := symbolizeFrames symbolize none (i + 1) pcs
        ({ pc, quality := .failed } :: frames, s)
      | some s =>
        let (frame, s) := symbolize i pc s
        let (frames, s) := symbolizeFrames symbolize (some s) (i + 1) pcs
        (frame :: frames, s)

/-- The addresses of a stack that were captured. -/
def captured (depth : Int16) (stack : List.Vector UInt64 32) : List UInt64 :=
  if 0 ≤ depth then stack.toList.take depth.toInt.toNat else []

/-- `aggregateQuality`. -/
def aggregateQuality (kf uf : List StackFrame) (symbolizer : Option Symbolizer) : StackQuality :=
  if symbolizer.isNone then .degraded
  else if kf = [] ∧ uf = [] then .failed
  else if (kf ++ uf).any fun f => f.module = [] then .degraded
  else if (kf ++ uf).any fun f => f.symbol = [] ∧ f.module ≠ [] then .fpOnly
  else .full

/-- "bpf_get_stack returned -1 for both kernel and user" -/
def captureFailure : Bytes :=
  "bpf_get_stack returned -1 for both kernel and user".toList.map fun c => c.toNat.toUInt8

section
variable (sortMaps : SliceSort mapsEntryLess) (sortSymbols : SliceSort elfSymbolLess)

/-- The frames of a stack as they are resolved, those of the kernel first. What is read for a user frame may
differ from frame to frame. -/
def resolvedFrames (symbolizer : Option Symbolizer) (st : StackTraceEvent) (reads : Nat → UserReads) :
    List SymbolFrame × List SymbolFrame × Option Symbolizer :=
  let (kframes, symbolizer) :=
    symbolizeFrames (fun _ pc s => s.symbolizeKernel pc) symbolizer 0 (captured st.kstackDepth st.kstack)
  let (uframes, symbolizer) :=
    symbolizeFrames (fun i pc s => s.symbolizeUser sortMaps sortSymbols st.pid.toNat pc (reads i)) symbolizer 0
      (captured st.ustackDepth st.ustack)
  (kframes, uframes, symbolizer)

/-- `symbolizeStackEvent`. -/
def symbolizeStackEvent (symbolizer : Option Symbolizer) (st : StackTraceEvent) (reads : Nat → UserReads) :
    StackTrace × Option Symbolizer :=
  if st.kstackDepth < 0 ∧ st.ustackDepth < 0 then
    ({ quality := StackQuality.failed.code, truncated := 0, kFrames := [], uFrames := [],
       failureReason := captureFailure }, symbolizer)
  else
    let (kframes, uframes, symbolizer) := resolvedFrames sortMaps sortSymbols symbolizer st reads
    let kFrames := kframes.map SymbolFrame.toStackFrame
    let uFrames := uframes.map SymbolFrame.toStackFrame
    let kFull : UInt8 := if 32 ≤ st.kstackDepth then 0x01 else 0
    let uFull : UInt8 := if 32 ≤ st.ustackDepth then 0x02 else 0
    ({ quality := (aggregateQuality kFrames uFrames symbolizer).code, truncated := kFull ||| uFull,
       kFrames, uFrames, failureReason := [] }, symbolizer)

end

/-! ### Frames -/

/-- A symbolizer that is there stays there. -/
theorem symbolizeFrames_isSome (symbolize : Nat → UInt64 → Symbolizer → SymbolFrame × Symbolizer) (s : Symbolizer)
    (i : Nat) (pcs : List UInt64) : (symbolizeFrames symbolize (some s) i pcs).2.isSome := by
  induction pcs generalizing s i with
  | nil => rfl
  | cons pc pcs ih =>
    unfold symbolizeFrames
    split
    · exact ih s (i + 1)
    · exact ih (symbolize i pc s).2 (i + 1)

/-- With a symbolizer, a stack fails exactly if it has no frames, and it is of full quality exactly if it has some
and all of them have a module and a symbol. -/
theorem aggregateQuality_cases (kf uf : List StackFrame) {symbolizer : Option Symbolizer}
    (hsome : symbolizer.isSome) :
    (aggregateQuality kf uf symbolizer = .failed ↔ kf ++ uf = []) ∧
      (aggregateQuality kf uf symbolizer = .full ↔
        kf ++ uf ≠ [] ∧ ∀ f ∈ kf ++ uf, ¬(f.module = [] ∨ f.symbol = [])) := by
  unfold aggregateQuality
  rw [if_neg (by simpa [Option.isSome_iff_ne_none] using hsome)]
  simp only [← List.append_eq_nil_iff, List.any_eq_true, decide_eq_true_eq]
  generalize kf ++ uf = frames
  split_ifs with hempty hmodule hsymbol
  · exact ⟨iff_of_true rfl hempty, iff_of_false (by decide) fun h => h.1 hempty⟩
  · obtain ⟨f, hf, hnone⟩ := hmodule
    exact ⟨iff_of_false (by decide) hempty, iff_of_false (by decide) fun h => h.2 f hf (.inl hnone)⟩
  · obtain ⟨f, hf, hnone, -⟩ := hsymbol
    exact ⟨iff_of_false (by decide) hempty, iff_of_false (by decide) fun h => h.2 f hf (.inr hnone)⟩
  · refine ⟨iff_of_false (by decide) hempty, iff_of_true rfl ⟨hempty, ?_⟩⟩
    rintro f hf (hnone | hnone)
    · exact hmodule ⟨f, hf, hnone⟩
    · exact hsymbol ⟨f, hf, hnone, fun h => hmodule ⟨f, hf, h⟩⟩

theorem StackQuality.code_inj {p q : StackQuality} : p.code = q.code ↔ p = q := by
  cases p <;> cases q <;> decide

section
variable (sortMaps : SliceSort mapsEntryLess) (sortSymbols : SliceSort elfSymbolLess) (s : Symbolizer)
  (st : StackTraceEvent) (reads : Nat → UserReads)

theorem resolvedFrames_isSome : (resolvedFrames sortMaps sortSymbols (some s) st reads).2.2.isSome := by
  obtain ⟨s₁, hs₁⟩ := Option.isSome_iff_exists.1 (symbolizeFrames_isSome (fun _ pc s => s.symbolizeKernel pc) s 0
    (captured st.kstackDepth st.kstack))
  simp only [resolvedFrames, hs₁]
  exact symbolizeFrames_isSome _ s₁ 0 _

/-- A stack that was not captured has no frames, and its aggregate is the quality it gets. -/
theorem symbolizeStackEvent_quality :
    let resolved := resolvedFrames sortMaps sortSymbols (some s) st reads
    (symbolizeStackEvent sortMaps sortSymbols (some s) st reads).1.quality =
      (aggregateQuality (resolved.1.map SymbolFrame.toStackFrame) (resolved.2.1.map SymbolFrame.toStackFrame)
        resolved.2.2).code := by
  unfold symbolizeStackEvent
  split
  · next hnone =>
    have hkernel : captured st.kstackDepth st.kstack = [] := if_neg (Int16.not_le.2 hnone.1)
    have huser : captured st.ustackDepth st.ustack = [] := if_neg (Int16.not_le.2 hnone.2)
    simp only [resolvedFrames, hkernel, huser]
    rfl
  · rfl

end

/-- **Whole-stack quality**: the quality of a stack reflects its frames as it should exactly if not all of its frames
have failed and, if all of them have a module and a symbol, all are of full quality. -/
theorem stack_quality_reflects_frames_iff (sortMaps : SliceSort mapsEntryLess)
    (sortSymbols : SliceSort elfSymbolLess) (s : Symbolizer) (st : StackTraceEvent) (reads : Nat → UserReads) :
    let resolved := resolvedFrames sortMaps sortSymbols (some s) st reads
    let frames := resolved.1 ++ resolved.2.1
    let trace := (symbolizeStackEvent sortMaps sortSymbols (some s) st reads).1
    ((trace.quality = StackQuality.failed.code ↔ frames = [] ∨ ∀ frame ∈ frames, frame.quality = .failed) ∧
        (trace.quality = StackQuality.full.code → ∀ frame ∈ frames, frame.quality = .full)) ↔
      (frames = [] ∨ ∃ frame ∈ frames, frame.quality ≠ .failed) ∧
        ((∃ frame ∈ frames, frame.module = [] ∨ frame.symbol = []) ∨ ∀ frame ∈ frames, frame.quality = .full) := by
  intro resolved frames trace
  have hquality : trace.quality = _ := symbolizeStackEvent_quality sortMaps sortSymbols s st reads
  obtain ⟨hfailed, hfull⟩ := aggregateQuality_cases (resolved.1.map SymbolFrame.toStackFrame)
    (resolved.2.1.map SymbolFrame.toStackFrame) (resolvedFrames_isSome sortMaps sortSymbols s st reads)
  rw [← List.map_append, List.map_eq_nil_iff] at hfailed
  change _ ↔ frames = [] at hfailed
  rw [← List.map_append, ne_eq, List.map_eq_nil_iff, List.forall_mem_map] at hfull
  rw [hquality, StackQuality.code_inj, StackQuality.code_inj, hfailed, hfull]
  refine and_congr ?_ ?_
  · by_cases hempty : frames = []
    · exact iff_of_true ⟨.inl, fun _ => hempty⟩ (.inl hempty)
    · simp only [hempty, false_or, false_iff, not_forall, exists_prop]
  · rw [or_iff_not_imp_left]
    constructor
    · intro himp hnone frame hframe
      exact himp ⟨List.ne_nil_of_mem hframe, fun f hf h => hnone ⟨f, hf, h⟩⟩ frame hframe
    · rintro himp ⟨-, hall⟩
      exact himp fun ⟨f, hf, h⟩ => hall f hf h

/-- A stack of one frame in the kernel and one in user space. -/
def twoFrames (kpc upc : UInt64) : StackTraceEvent :=
  { transactionId := 1, pid := 100, tid := 100, kstackDepth := 1, ustackDepth := 1
    kstack := List.Vector.cons kpc (List.Vector.replicate 31 0)
    ustack := List.Vector.cons upc (List.Vector.replicate 31 0) }

/-- What is read of a process with one mapping, of this file. -/
def oneMapping (file : ElfFile) : UserReads :=
  let reads : MapsReads :=
    { nowNs := 0, expiryStarttime := some 7, starttime := some 7
      maps := some [⟨0x7000, 0x8000, [0x72, 0x78], 0, [0x2F, 0x61]⟩] }
  { first := reads, retry := reads, elfFile := fun _ => some file }

/-- A process that is gone. -/
def noProcess : UserReads :=
  let reads : MapsReads := { nowNs := 0, expiryStarttime := none, starttime := none, maps := none }
  { first := reads, retry := reads, elfFile := fun _ => none }

/-- Both frames have a symbol. -/
theorem stack_quality_two_symbols :
    let s : Symbolizer := { kallsyms := [⟨0x1000, [0x6B]⟩] }
    let reads := oneMapping ⟨[⟨0, 0⟩], some [⟨[0x66], 2, 0x10, 0x10⟩], none⟩
    let resolved := resolvedFrames sortEntries sortSymbols (some s) (twoFrames 0x1004 0x7018) fun _ => reads
    let trace := (symbolizeStackEvent sortEntries sortSymbols (some s) (twoFrames 0x1004 0x7018) fun _ => reads).1
    trace.quality = StackQuality.full.code ∧
      ∀ frame ∈ resolved.1 ++ resolved.2.1, frame.quality = .full := by
  intro s reads resolved trace
  have hfull : trace.quality = StackQuality.full.code := by decide +kernel
  exact ⟨hfull, ((stack_quality_reflects_frames_iff sortEntries sortSymbols s (twoFrames 0x1004 0x7018)
    (fun _ => reads)).2 ⟨by decide +kernel, by decide +kernel⟩).2 hfull⟩

/-- A stack of which both frames have failed is DEGRADED, and FP_ONLY without the user frame; one whose user
frame is DEGRADED is FULL. -/
theorem stack_quality_misleads :
    let failing : Symbolizer := { kallsyms := [⟨0x2000, [0x6B]⟩] }
    let working : Symbolizer := { kallsyms := [⟨0x1000, [0x6B]⟩] }
    let stripped := oneMapping ⟨[⟨0, 0⟩], none, some [⟨[0x66], 2, 0x10, 0x10⟩]⟩
    let qualities := fun s upc reads =>
      let resolved := resolvedFrames sortEntries sortSymbols (some s) (twoFrames 0x1004 upc) fun _ => reads
      (resolved.1 ++ resolved.2.1).map SymbolFrame.quality
    let quality := fun s upc reads =>
      (symbolizeStackEvent sortEntries sortSymbols (some s) (twoFrames 0x1004 upc) fun _ => reads).1.quality
    (qualities failing 0x7018 noProcess = [.failed, .failed] ∧
      quality failing 0x7018 noProcess = StackQuality.degraded.code) ∧
    (qualities failing 0 noProcess = [.failed] ∧ quality failing 0 noProcess = StackQuality.fpOnly.code) ∧
    (qualities working 0x7018 stripped = [.full, .degraded] ∧
      quality working 0x7018 stripped = StackQuality.full.code) := by
  decide +kernel

end BinderTracer.Daemon
