import BinderTracer.Daemon.HandleEvent
import BinderTracer.Kernel.RingLayout

/-!
# Reading the ring

`readLoop` of the collector: a sample of the ring is recognized by its first eight bytes or by its first byte,
decoded and handed to the method for its kind; a sample that is too short or of no known kind is skipped. The
samples that are decoded are exactly those that begin with the bytes of a record, and then it is that record
(`readSample_eq_some_iff`), so a run over samples is a run over the calls of the records in them.
-/

namespace BinderTracer.Daemon

open BinderTracer.Kernel BinderTracer.Lib

/-- `StackRecordMagic`, compared with the first eight bytes as a number. -/
def hasStackMagic (raw : Bytes) : Bool :=
  decide (8 ≤ raw.length ∧ leNat (raw.take 8) = stackRecordMagic.toNat)

/-- `unsafeSizeofStackEvent`. -/
def unsafeSizeofStackEvent : Nat := stackTraceEvent.size

/-- The body of `readLoop` up to the call, for one sample; `binary.Read` ignores what follows the struct. -/
def readSample (raw : Bytes) : Option RingRecord :=
  if raw.length < 1 then none
  else if hasStackMagic raw then
    if raw.length < unsafeSizeofStackEvent then none
    else (stackTraceEvent.readFront raw).map fun st => .stack st.2.1
  else
    let kind := byteAt raw 0
    if kind = evtKindMain then (binderTraceEvent.readFront raw).map fun event => .main event.2.1
    else if kind = evtKindSideband then (binderSidebandEvent.readFront raw).map fun sb => .sideband sb.2.1
    else if kind = evtKindCookie then (binderCookieSideband.readFront raw).map fun cs => .cookie cs.2.1
    else none

/-! ### The kinds are told apart -/

theorem hasStackMagic_cons {kind : UInt8} (rest : Bytes) (h : kind.toNat ≠ 0xEF) :
    hasStackMagic (kind :: rest) = false := by
  refine decide_eq_false fun ⟨_, hmagic⟩ => h ?_
  have hlow : leNat ((kind :: rest).take 8) = kind.toNat + 256 * leNat (rest.take 7) := rfl
  have hvalue : stackRecordMagic.toNat = 0xDEADBEEFDEADBEEF := rfl
  have hlt := kind.toNat_lt
  omega

/-- A sample whose first byte is not that of the magic number goes by its kind. -/
theorem readSample_kind {kind : UInt8} (rest : Bytes) (h : kind.toNat ≠ 0xEF) :
    readSample (kind :: rest) =
      if kind = evtKindMain then (binderTraceEvent.readFront (kind :: rest)).map fun event => .main event.2.1
      else if kind = evtKindSideband then
        (binderSidebandEvent.readFront (kind :: rest)).map fun sb => .sideband sb.2.1
      else if kind = evtKindCookie then
        (binderCookieSideband.readFront (kind :: rest)).map fun cs => .cookie cs.2.1
      else none := by
  rw [readSample, if_neg (by simp), hasStackMagic_cons rest h, if_neg Bool.false_ne_true]
  rfl

/-- A struct that begins with its kind. -/
theorem readFront_kind {α : Type} {layout : Layout (UInt8 × α)}
    (hkind : ∀ kind a, ∃ rest, layout.write (kind, a) = kind :: rest) {raw : Bytes} {kind : UInt8} {a : α}
    (h : layout.readFront raw = some (kind, a)) : byteAt raw 0 = kind := by
  obtain ⟨more, rfl⟩ := layout.readFront_eq_some_iff.1 h
  obtain ⟨rest, hrest⟩ := hkind kind a
  rw [hrest]
  rfl

/-- A sample that begins with the struct of kind `kind`, whose first byte is its kind. -/
theorem map_readFront_eq_some_iff {α β : Type} {layout : Layout (UInt8 × α)}
    (hkind : ∀ kind a, ∃ rest, layout.write (kind, a) = kind :: rest) {raw : Bytes} {kind : UInt8} (h : byteAt raw 0 = kind)
    (f : α → β) {b : β} :
    (layout.readFront raw).map (fun a => f a.2) = some b ↔
      ∃ a rest, raw = layout.write (kind, a) ++ rest ∧ f a = b := by
  rw [Option.map_eq_some_iff]
  constructor
  · rintro ⟨⟨kind', a⟩, hread, rfl⟩
    obtain rfl : kind' = kind := (readFront_kind hkind hread).symm.trans h
    obtain ⟨rest, hraw⟩ := layout.readFront_eq_some_iff.1 hread
    exact ⟨a, rest, hraw, rfl⟩
  · rintro ⟨a, rest, rfl, rfl⟩
    exact ⟨(kind, a), layout.readFront_write _ _, rfl⟩

theorem write_binderTraceEvent (kind : UInt8) (a : BinderTraceEvent × MainPadding) :
    ∃ rest, binderTraceEvent.write (kind, a) = kind :: rest :=
  ⟨_, rfl⟩

theorem write_binderSidebandEvent (kind : UInt8) (a : BinderSidebandEvent × SidebandPadding) :
    ∃ rest, binderSidebandEvent.write (kind, a) = kind :: rest :=
  ⟨_, rfl⟩

theorem write_binderCookieSideband (kind : UInt8) (a : BinderCookieSideband × CookiePadding) :
    ∃ rest, binderCookieSideband.write (kind, a) = kind :: rest :=
  ⟨_, rfl⟩

/-- The struct of a stack record begins with the magic number. -/
theorem hasStackMagic_write (magic : UInt64) (a : StackTraceEvent × UInt32) (rest : Bytes) :
    hasStackMagic (stackTraceEvent.write (magic, a) ++ rest) = decide (magic = stackRecordMagic) := by
  obtain ⟨more, hmore⟩ : ∃ more, stackTraceEvent.write (magic, a) ++ rest = leBytes 8 magic.toNat ++ more :=
    ⟨_, List.append_assoc _ _ _⟩
  have hlt : magic.toNat < 256 ^ 8 := magic.toNat_lt
  have hlong : 8 ≤ (leBytes 8 magic.toNat ++ more).length := by
    rw [List.length_append, length_leBytes]
    omega
  rw [hasStackMagic, hmore, List.take_left' (length_leBytes 8 _), leNat_leBytes, Nat.mod_eq_of_lt hlt,
    decide_eq_decide]
  exact ⟨fun h => UInt64.toNat_inj.1 h.2, fun h => ⟨hlong, congrArg UInt64.toNat h⟩⟩

/-- **What is decoded is what stands at the front**: a sample gives a record exactly when it begins with the
bytes that a program may have left for that record. -/
theorem readSample_eq_some_iff {raw : Bytes} {record : RingRecord} :
    readSample raw = some record ↔ ∃ image rest, record.Image image ∧ raw = image ++ rest := by
  constructor
  · intro h
    unfold readSample at h
    split at h
    · cases h
    split at h
    · next hmagic =>
      split at h
      · cases h
      obtain ⟨⟨magic, st, reserved⟩, hread, rfl⟩ := Option.map_eq_some_iff.1 h
      obtain ⟨rest, rfl⟩ := stackTraceEvent.readFront_eq_some_iff.1 hread
      rw [hasStackMagic_write] at hmagic
      obtain rfl : magic = stackRecordMagic := of_decide_eq_true hmagic
      exact ⟨_, rest, .stack st reserved, rfl⟩
    simp only at h
    split at h
    · next hkind =>
      obtain ⟨⟨event, padding⟩, rest, rfl, rfl⟩ :=
        (map_readFront_eq_some_iff write_binderTraceEvent hkind fun a => RingRecord.main a.1).1 h
      exact ⟨_, rest, .main event padding, rfl⟩
    split at h
    · next hkind =>
      obtain ⟨⟨event, padding⟩, rest, rfl, rfl⟩ :=
        (map_readFront_eq_some_iff write_binderSidebandEvent hkind fun a => RingRecord.sideband a.1).1 h
      exact ⟨_, rest, .sideband event padding, rfl⟩
    split at h
    · next hkind =>
      obtain ⟨⟨event, padding⟩, rest, rfl, rfl⟩ :=
        (map_readFront_eq_some_iff write_binderCookieSideband hkind fun a => RingRecord.cookie a.1).1 h
      exact ⟨_, rest, .cookie event padding, rfl⟩
    · cases h
  · rintro ⟨image, rest, himage, rfl⟩
    cases himage with
    | main event padding =>
      obtain ⟨tail, htail⟩ := write_binderTraceEvent evtKindMain (event, padding)
      have hread := binderTraceEvent.readFront_write (evtKindMain, event, padding) rest
      rw [htail, List.cons_append] at hread ⊢
      rw [readSample_kind _ (by decide), if_pos rfl, hread]
      rfl
    | sideband event padding =>
      obtain ⟨tail, htail⟩ := write_binderSidebandEvent evtKindSideband (event, padding)
      have hread := binderSidebandEvent.readFront_write (evtKindSideband, event, padding) rest
      rw [htail, List.cons_append] at hread ⊢
      rw [readSample_kind _ (by decide), if_neg (by decide), if_pos rfl, hread]
      rfl
    | cookie event padding =>
      obtain ⟨tail, htail⟩ := write_binderCookieSideband evtKindCookie (event, padding)
      have hread := binderCookieSideband.readFront_write (evtKindCookie, event, padding) rest
      rw [htail, List.cons_append] at hread ⊢
      rw [readSample_kind _ (by decide), if_neg (by decide), if_neg (by decide), if_pos rfl, hread]
      rfl
    | stack event reserved =>
      have hread := stackTraceEvent.readFront_write (stackRecordMagic, event, reserved) rest
      have hlong : ¬ (stackTraceEvent.write (stackRecordMagic, event, reserved) ++ rest).length <
          stackTraceEvent.size := by
        rw [List.length_append, stackTraceEvent.length_write]
        omega
      have hsome : ¬ (stackTraceEvent.write (stackRecordMagic, event, reserved) ++ rest).length < 1 := by
        rw [size_stackTraceEvent] at hlong
        omega
      rw [readSample, if_neg hsome, hasStackMagic_write, if_pos (by decide), unsafeSizeofStackEvent,
        if_neg hlong, hread]
      rfl

/-! ### Runs over samples -/

/-- The clock readings, and the symbolizer, of the call that a sample leads to. -/
structure SampleEnv where
  env : EventEnv
  receivedNs : Int
  staleNs : Int

/-- The call that `readLoop` makes for a record. -/
def callFor (e : SampleEnv) : RingRecord → Call
  | .main event => .handleEvent e.env event
  | .sideband sb => .handleSideband e.receivedNs sb
  | .cookie cs => .handleCookieSideband e.receivedNs e.staleNs cs
  | .stack st => .handleStackRecord e.receivedNs e.staleNs st

/-- What the two goroutines of the collector do: `readLoop` reads a sample, `sweepLoop` runs a tick. -/
inductive Activity where
  | sample (e : SampleEnv) (raw : Bytes)
  | runSweep (now : Int) (mainOrder txidOrder : RangeOrder MainEvent)
  | evictStale (stackNs cookieNs : Int)

def perform (c : EventCollector) : Activity → Except GoPanic EventCollector
  | .sample e raw =>
    match readSample raw with
    | none => .ok c
    | some record => step c (callFor e record)
  | .runSweep now mainOrder txidOrder => step c (.runSweep now mainOrder txidOrder)
  | .evictStale stackNs cookieNs => step c (.evictStale stackNs cookieNs)

/-- The call that an activity makes, if it makes one. -/
def Activity.call : Activity → Option Call
  | .sample e raw => (readSample raw).map (callFor e)
  | .runSweep now mainOrder txidOrder => some (.runSweep now mainOrder txidOrder)
  | .evictStale stackNs cookieNs => some (.evictStale stackNs cookieNs)

/-- A run over samples is the run over the calls of the records in them. -/
theorem run_perform (c : EventCollector) (activities : List Activity) :
    run perform c activities = run step c (activities.filterMap Activity.call) := by
  refine run_filterMap step (fun c a hskip => ?_) (fun c a call hcall => ?_) c activities
  · cases a with
    | sample e raw => rw [perform, Option.map_eq_none_iff.1 hskip]
    | _ => cases hskip
  · cases a with
    | sample e raw =>
      obtain ⟨record, hread, rfl⟩ := Option.map_eq_some_iff.1 hcall
      rw [perform, hread]
    | _ =>
      cases hcall
      rfl

/-- **The ring is read exactly**: a sample is taken for a record if and only if it begins with bytes that a
program may have left for that record, whatever its padding holds and whatever follows; and from any state, reading
the samples of a sequence of records has the effect of making the calls for those records. -/
theorem ring_read_exactly :
    (∀ (raw : Bytes) (record : RingRecord),
      readSample raw = some record ↔ ∃ image rest, record.Image image ∧ raw = image ++ rest) ∧
    ∀ (c : EventCollector) (samples : List (SampleEnv × RingRecord × Bytes)),
      (∀ s ∈ samples, ∃ image rest, s.2.1.Image image ∧ s.2.2 = image ++ rest) →
      run perform c (samples.map fun s => .sample s.1 s.2.2) =
        run step c (samples.map fun s => callFor s.1 s.2.1) := by
  refine ⟨fun raw record => readSample_eq_some_iff, fun c samples himages => ?_⟩
  have hcalls : (samples.map fun s => Activity.sample s.1 s.2.2).filterMap Activity.call =
      samples.map fun s => callFor s.1 s.2.1 := by
    rw [List.filterMap_map, ← List.filterMap_eq_map]
    refine List.filterMap_congr fun s hs => ?_
    have hread : readSample s.2.2 = some s.2.1 := readSample_eq_some_iff.2 (himages s hs)
    simp only [Function.comp_apply, Activity.call, hread, Option.map_some]
  rw [run_perform, hcalls]

/-- A cookie record with garbage in its padding and a byte after it. -/
theorem ring_read_exactly_cookie :
    run perform newEventCollector
        [.sample ⟨idleEnv, 5, 6⟩ (binderCookieSideband.write (evtKindCookie, ⟨7, 8, 9⟩, 1, 2, 3, 4, 5) ++ [6])] =
      run step newEventCollector [.handleCookieSideband 5 6 ⟨7, 8, 9⟩] := by
  refine ring_read_exactly.2 newEventCollector [(⟨idleEnv, 5, 6⟩, .cookie ⟨7, 8, 9⟩, _)] fun s hs => ?_
  rw [List.mem_singleton.1 hs]
  exact ⟨_, [6], .cookie _ (1, 2, 3, 4, 5), rfl⟩

end BinderTracer.Daemon
