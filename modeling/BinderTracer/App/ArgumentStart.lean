import BinderTracer.App.ParcelArguments
import BinderTracer.Lib.SignedWords

/-!
# Where the arguments start

The decoders of the three AIDL headers return the offset after the interface token. The two functions
that read the arguments compute it again, for the longest of the headers only. So they agree with the
pipeline on the parcels that have the magic word of that header, and on no others.
-/

namespace BinderTracer.App

open BinderTracer.Lib

/-! ### Tokens -/

theorem isNameUnit_bounds {c : UInt16} (h : isNameUnit c = true) : 0x24 ≤ c.toNat ∧ c.toNat ≤ 0x7A := by
  simp only [isNameUnit, decide_eq_true_eq, UInt16.le_iff_toNat_le, ← UInt16.toNat_inj,
    UInt16.reduceToNat] at h
  omega

/-- A positive length is that of the unsigned word. -/
theorem toInt_of_pos {u : UInt32} (h : 0 < u.toInt32) : u.toInt32.toInt = u.toNat ∧ 1 ≤ u.toNat := by
  have hu := u.toNat_lt
  rw [Int32.lt_iff_toInt_lt, Int32.toInt_zero, toInt_toInt32] at h
  rw [toInt_toInt32]
  split at h
  · next hsmall => exact ⟨if_pos hsmall, by omega⟩
  · omega

/-- A token of `n` characters whose length stands at `off`, and after whose padding comes `start`. -/
structure Token (data : List UInt8) (off n start : Nat) : Prop where
  fits : off + 4 + (n + 1) * 2 ≤ data.length
  word : (leUInt32 data off).toNat = n
  pos : 1 ≤ n
  le : n ≤ 4096
  units : ∀ i < n, isNameUnit (leUInt16 data (off + 4 + 2 * i)) = true
  start_eq : start = off + 4 + padTo4 ((n + 1) * 2)

/-- Both checks of a name look at every character. -/
theorem all_isNameUnit {requireDot : Bool} {chars : List UInt16}
    (h : (if requireDot = true then isLikelyInterfaceName chars else isLikelyInterfaceNameRelaxed chars) = true) :
    chars.all isNameUnit = true := by
  cases requireDot with
  | true =>
    simp only [if_true, isLikelyInterfaceName, isLikelyInterfaceNameRelaxed, decide_eq_true_eq] at h
    exact h.1.2
  | false =>
    simp only [Bool.false_eq_true, if_false, isLikelyInterfaceNameRelaxed, decide_eq_true_eq] at h
    exact h.2

/-- The name reader accepts tokens only. -/
theorem readUtf16NameAt_token {data : List UInt8} {off : Nat} {requireDot : Bool} {name : String} {start : Nat}
    (h : readUtf16NameAt data off requireDot = some (name, start)) : ∃ n, Token data off n start := by
  simp only [readUtf16NameAt] at h
  split at h
  · exact nomatch h
  · split at h
    · exact nomatch h
    · next hrange =>
      rw [not_or] at hrange
      have hpos : 0 < (leUInt32 data off).toInt32 := by
        have h1 := hrange.1
        rw [Int32.lt_iff_toInt_lt] at h1 ⊢
        change ¬_ < (1 : Int) at h1
        change (0 : Int) < _
        omega
      obtain ⟨hword, hn⟩ := toInt_of_pos hpos
      have hle : (leUInt32 data off).toNat ≤ 4096 := by
        have h2 := hrange.2
        rw [gt_iff_lt, Int32.lt_iff_toInt_lt, hword] at h2
        change ¬(4096 : Int) < _ at h2
        omega
      simp only [hword, Int.toNat_natCast] at h
      split at h
      · exact nomatch h
      · next hfits =>
        generalize hok : (if requireDot = true then isLikelyInterfaceName _ else _) = ok at h
        cases ok with
        | false => exact nomatch h
        | true =>
          cases h
          refine ⟨_, Nat.not_lt.1 hfits, rfl, hn, hle, ?_, rfl⟩
          intro i hi
          exact List.all_eq_true.1 (all_isNameUnit hok) _ (List.mem_map.2 ⟨i, List.mem_range.2 hi, rfl⟩)

/-- What the readers of arguments compute, on a token after the longest header. -/
theorem tokenEnd_of_token {data : List UInt8} {n start : Nat} (h : Token data 12 n start)
    (hinside : start < data.length) : tokenEnd 12 4096 data = some start := by
  have hword : (leUInt32 data 12).toInt32.toInt = n := by
    rw [toInt_toInt32, h.word, if_pos (by have := h.le; omega)]
  have hrange : ¬((leUInt32 data 12).toInt32 ≤ 0 ∨ (leUInt32 data 12).toInt32 > 4096) := by
    rw [gt_iff_lt, lt_iff_of_toInt (m := 4096) rfl hword, Int32.le_iff_toInt_le, hword, Int32.toInt_zero]
    have := h.pos
    have := h.le
    omega
  have hfits := h.fits
  rw [tokenEnd, if_neg (by omega), if_neg hrange, hword, Int.toNat_natCast, ← h.start_eq, if_pos hinside]

/-- What they find is never before offset 20, and the word at offset 12 is small. -/
theorem tokenEnd_bounds {data : List UInt8} {start : Nat} (h : tokenEnd 12 4096 data = some start) :
    20 ≤ start ∧ (leUInt32 data 12).toNat ≤ 4096 := by
  simp only [tokenEnd] at h
  split at h
  · exact nomatch h
  · split at h
    · exact nomatch h
    · next hrange =>
      rw [not_or, Int32.not_le] at hrange
      obtain ⟨hword, hn⟩ := toInt_of_pos hrange.1
      have hle := hrange.2
      rw [gt_iff_lt, lt_iff_of_toInt (m := 4096) rfl hword] at hle
      split at h
      · cases h
        rw [hword, padTo4]
        omega
      · exact nomatch h

/-- After a shorter header they find something else: the word at offset 12 would hold two characters. -/
theorem tokenEnd_ne {data : List UInt8} {off n start : Nat} (hoff : off = 4 ∨ off = 8)
    (h : Token data off n start) : tokenEnd 12 4096 data ≠ some start := by
  intro hend
  obtain ⟨hstart, hword⟩ := tokenEnd_bounds hend
  have hfits := h.fits
  have hpad := h.start_eq
  rw [padTo4] at hpad
  have hword' : (leUInt32 data 12).toNat = (leUInt16 data 12).toNat + 65536 * (leUInt16 data 14).toNat :=
    leUInt32_eq_units (by omega)
  have hunit : isNameUnit (leUInt16 data 14) = true := by
    have hi := h.units ((14 - (off + 4)) / 2) (by omega)
    rcases hoff with rfl | rfl <;> exact hi
  have hbounds := isNameUnit_bounds hunit
  omega

/-- Nor is there such a token in a parcel with the magic word: its length would be too large, or its first
character would not be one of a name. -/
theorem not_token_of_magic {data : List UInt8} {off n start : Nat} (hoff : off = 4 ∨ off = 8)
    (h : Token data off n start) : leUInt32 data 8 ≠ systMagic := by
  intro hmagic
  have hfits := h.fits
  have hn := h.pos
  rcases hoff with rfl | rfl
  · have hword : (leUInt32 data 8).toNat = (leUInt16 data 8).toNat + 65536 * (leUInt16 data 10).toNat :=
      leUInt32_eq_units (by omega)
    have hunit : isNameUnit (leUInt16 data 8) = true := h.units 0 hn
    have hbounds := isNameUnit_bounds hunit
    rw [hmagic] at hword
    change 0x53595354 = _ at hword
    have hlow := (leUInt16 data 8).toNat_lt
    omega
  · have hword := h.word
    have hle := h.le
    rw [hmagic] at hword
    change 0x53595354 = n at hword
    omega

/-! ### The pipeline -/

/-- A decoder of the family that recognises a parcel has found a token. -/
theorem aidlDecoder_token {off : Nat} {requireDot : Bool} {source : DecodeSource} {confidence : Confidence}
    {event : BinderEvent} {r : DecodeResult} (h : aidlDecoder off requireDot source confidence event = some r) :
    r.source = source ∧ ∃ n start, Token event.rawParcel off n start ∧ r.payloadStart = start := by
  rw [aidlDecoder] at h
  split at h
  · exact nomatch h
  · obtain ⟨⟨name, start⟩, hname, rfl⟩ := Option.map_eq_some_iff.1 h
    obtain ⟨n, htoken⟩ := readUtf16NameAt_token hname
    exact ⟨rfl, n, start, htoken, rfl⟩

/-- The sources of the AIDL decoders. -/
def DecodeSource.IsAidl (source : DecodeSource) : Prop :=
  source = .aidlQ ∨ source = .aidlP ∨ source = .aidlO

instance : DecidablePred DecodeSource.IsAidl := fun source =>
  inferInstanceAs (Decidable (source = _ ∨ source = _ ∨ source = _))

/-- The decoder of replies says so. -/
theorem replyDecoder_source {env : ParserEnv} {event : BinderEvent} {d : Decoded}
    (h : ReplyDecoder.tryDecode env event = some d) : d.result.source = .reply := by
  have hinherited : ∀ found, (ReplyDecoder.decodeWithInheritance env event found).1.source = .reply := by
    intro found
    rw [ReplyDecoder.decodeWithInheritance]
    split <;> rfl
  rw [ReplyDecoder.tryDecode] at h
  split at h
  · exact nomatch h
  · dsimp only at h
    split at h
    · cases h
      exact hinherited _
    · cases h
      rfl

theorem specialCodeDecoder_source {event : BinderEvent} {r : DecodeResult}
    (h : specialCodeDecoder event = some r) : r.source = .specialCode := by
  obtain ⟨name, -, rfl⟩ := Option.map_eq_some_iff.1 h
  rfl

theorem hidlDescriptorDecoder_source {event : BinderEvent} {r : DecodeResult}
    (h : hidlDescriptorDecoder event = some r) : r.source = .hidlDescriptor := by
  simp only [hidlDescriptorDecoder] at h
  split at h
  · exact nomatch h
  · split at h
    · exact nomatch h
    · split at h
      · exact nomatch h
      · cases h
        rfl

theorem rawAsciiHeuristicDecoder_source {event : BinderEvent} {r : DecodeResult}
    (h : rawAsciiHeuristicDecoder event = some r) : r.source = .rawAscii := by
  simp only [rawAsciiHeuristicDecoder] at h
  split at h
  · exact nomatch h
  · split at h
    · exact nomatch h
    · split at h
      · exact nomatch h
      · cases h
        rfl

/-- What the pipeline calls AIDL was recognised by the decoder of that header. -/
theorem decodePipeline_aidl {env : ParserEnv} {event : BinderEvent}
    (h : (decodePipeline env event).result.source.IsAidl) :
    aidlQDecoder event = some (decodePipeline env event).result ∨
      aidlPDecoder event = some (decodePipeline env event).result ∨
      aidlODecoder event = some (decodePipeline env event).result := by
  rw [decodePipeline] at h ⊢
  cases hreply : ReplyDecoder.tryDecode env event with
  | some d =>
    simp only [hreply, DecodeSource.IsAidl, replyDecoder_source hreply] at h
    exact absurd h (by decide)
  | none =>
    simp only [hreply] at h ⊢
    cases hfound : requestDecoders.findSome? (· event) with
    | none =>
      rw [hfound] at h
      exact absurd h (show ¬DecodeSource.IsAidl .targetRef by decide)
    | some r =>
      rw [hfound, Option.getD_some] at h
      rw [Option.getD_some]
      obtain ⟨decoder, hmem, hr⟩ := List.exists_of_findSome?_eq_some hfound
      simp only [requestDecoders, List.mem_cons, List.not_mem_nil, or_false] at hmem
      rcases hmem with rfl | rfl | rfl | rfl | rfl | rfl
      · exact absurd (specialCodeDecoder_source hr ▸ h) (by decide)
      · exact .inl hr
      · exact .inr (.inl hr)
      · exact .inr (.inr hr)
      · exact absurd (hidlDescriptorDecoder_source hr ▸ h) (by decide)
      · exact absurd (rawAsciiHeuristicDecoder_source hr ▸ h) (by decide)

/-! ### The arguments -/

/-- The arguments are read from `start` on: by `decode`, whatever they are, and by `sniffArgumentTypes`. -/
structure ArgumentsStartAt (rawParcel : List UInt8) (start : Nat) : Prop where
  decode : ∀ (decodeValue : ValueDecoder) (paramTypes : List String), paramTypes ≠ [] →
    decode decodeValue rawParcel paramTypes =
      decodeFromParcel decodeValue { data := rawParcel, dataPosition := start } paramTypes rawParcel.length
  sniff : sniffStart rawParcel = some start

theorem argumentsStartAt_iff {rawParcel : List UInt8} {start : Nat} :
    ArgumentsStartAt rawParcel start ↔ tokenEnd 12 4096 rawParcel = some start := by
  refine ⟨fun h => h.sniff, fun h => ⟨fun decodeValue paramTypes htypes => ?_, h⟩⟩
  have hparcel : rawParcel ≠ [] := by
    rintro rfl
    exact nomatch h
  rw [App.decode, if_neg (not_or.2 ⟨hparcel, htypes⟩), computeArgStart, h]

/-- **The arguments are read from where the interface token ends exactly in the parcels with the magic
word.** -/
theorem arguments_start_iff (env : ParserEnv) (event : BinderEvent) (start : Nat)
    (haidl : (decodePipeline env event).result.source.IsAidl)
    (hstart : (decodePipeline env event).result.payloadStart = start)
    (hinside : start < event.rawParcel.length) :
    ArgumentsStartAt event.rawParcel start ↔ leUInt32 event.rawParcel 8 = systMagic := by
  rw [argumentsStartAt_iff]
  rcases decodePipeline_aidl haidl with hq | hp | ho
  · rw [aidlQDecoder] at hq
    split at hq
    · exact nomatch hq
    · split at hq
      · exact nomatch hq
      · next hmagic =>
        obtain ⟨-, n, start', htoken, hstart'⟩ := aidlDecoder_token hq
        rw [hstart, Int.ofNat_inj] at hstart'
        subst hstart'
        exact iff_of_true (tokenEnd_of_token htoken hinside) (not_not.1 hmagic)
  · obtain ⟨-, n, start', htoken, hstart'⟩ := aidlDecoder_token hp
    rw [hstart, Int.ofNat_inj] at hstart'
    subst hstart'
    exact iff_of_false (tokenEnd_ne (.inr rfl) htoken) (not_token_of_magic (.inr rfl) htoken)
  · obtain ⟨-, n, start', htoken, hstart'⟩ := aidlDecoder_token ho
    rw [hstart, Int.ofNat_inj] at hstart'
    subst hstart'
    exact iff_of_false (tokenEnd_ne (.inl rfl) htoken) (not_token_of_magic (.inl rfl) htoken)

/-- A parser that has nothing to ask. -/
def idleParserEnv : ParserEnv where
  transactionPairer := {}
  currentTargetUid := 0
  now := 0
  getMethodSignature := none
  decodeJavaAidlReply := fun _ _ => { exception := none, value := none, rawHexHint := none }
  lookupHandle := fun _ _ => none

/-- A call of the interface `a.b` with one word as its argument, after the given header. -/
def sampleCall (header : List UInt8) : BinderEvent :=
  { id := 0, timestamp := 0, pid := 0, uid := 0, code := 1, flags := 0
    rawParcel := header ++ [3, 0, 0, 0, 0x61, 0, 0x2E, 0, 0x62, 0, 0, 0] ++ [7, 0, 0, 0] }

theorem magic_header_agrees :
    let event := sampleCall [0, 0, 0, 0, 0, 0, 0, 0, 0x54, 0x53, 0x59, 0x53]
    (decodePipeline idleParserEnv event).result.source = .aidlQ ∧ ArgumentsStartAt event.rawParcel 24 := by
  intro event
  refine ⟨by decide +kernel, ?_⟩
  exact (arguments_start_iff idleParserEnv event 24 (by decide +kernel) (by decide +kernel) (by decide)).2
    (by decide +kernel)

/-- After the shorter header of Android P the token ends at offset 20, and both readers give up. -/
theorem short_header_gives_up :
    let event := sampleCall [0, 0, 0, 0, 0, 0, 0, 0]
    (decodePipeline idleParserEnv event).result.source = .aidlP ∧
      (decodePipeline idleParserEnv event).result.payloadStart = 20 ∧ 20 < event.rawParcel.length ∧
      computeArgStart event.rawParcel = none ∧ sniffStart event.rawParcel = none ∧
      ¬ArgumentsStartAt event.rawParcel 20 := by
  intro event
  have hsniff : sniffStart event.rawParcel = none := by decide +kernel
  refine ⟨by decide +kernel, by decide +kernel, by decide, by decide +kernel, hsniff, fun h => ?_⟩
  exact nomatch hsniff.symm.trans h.sniff

end BinderTracer.App
