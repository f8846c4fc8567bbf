import BinderTracer.App.ArgumentStart
import BinderTracer.App.ParcelString

/-!
# The formats of interface tokens

Three headers may precede an interface token, and HIDL writes its descriptor as plain text. The decoders are
tried one after another on the same bytes, so what is to be shown for each format is that the decoders
before its own reject it: they take a length, or a magic word, from bytes that are characters of a name or
of a descriptor, or the length of another token.
-/

namespace BinderTracer.App

open BinderTracer.Lib

/-- A character of `[A-Za-z0-9._$]`. -/
def IsNameChar (c : Char) : Prop :=
  ('A' ≤ c ∧ c ≤ 'Z') ∨ ('a' ≤ c ∧ c ≤ 'z') ∨ ('0' ≤ c ∧ c ≤ '9') ∨ c = '.' ∨ c = '_' ∨ c = '$'

instance : DecidablePred IsNameChar := fun _ => inferInstanceAs (Decidable (_ ∨ _))

/-- The units of a text. -/
def textUnits (s : String) : List UInt16 := s.toList.map fun c => UInt16.ofNat c.toNat

/-- A word of a header. -/
def headerWord (w : UInt32) : List UInt8 := leBytes 4 w.toNat

/-- The bytes of an ASCII text. -/
def asciiBytes (s : String) : List UInt8 := s.toList.map fun c => UInt8.ofNat c.toNat

/-- The three layouts of a request of the interface `name` with the arguments `args`, and that of HIDL. -/
def aidlQParcel (policy workSource : UInt32) (name : String) (args : List UInt8) : List UInt8 :=
  headerWord policy ++ headerWord workSource ++ headerWord systMagic ++ (string16 (textUnits name) ++ args)

def aidlPParcel (policy workSource : UInt32) (name : String) (args : List UInt8) : List UInt8 :=
  headerWord policy ++ headerWord workSource ++ (string16 (textUnits name) ++ args)

def aidlOParcel (policy : UInt32) (name : String) (args : List UInt8) : List UInt8 :=
  headerWord policy ++ (string16 (textUnits name) ++ args)

def hidlParcel (descriptor : String) (args : List UInt8) : List UInt8 := asciiBytes descriptor ++ 0 :: args

/-! ### Names -/

theorem isNameChar_iff (c : Char) :
    IsNameChar c ↔ (0x41 ≤ c.toNat ∧ c.toNat ≤ 0x5A) ∨ (0x61 ≤ c.toNat ∧ c.toNat ≤ 0x7A) ∨
      (0x30 ≤ c.toNat ∧ c.toNat ≤ 0x39) ∨ c.toNat = 0x2E ∨ c.toNat = 0x5F ∨ c.toNat = 0x24 := by
  simp only [IsNameChar, Char.le_def, UInt32.le_iff_toNat_le, ← Char.toNat_inj]
  rfl

/-- The unit of a character of a name is the character. -/
theorem toNat_unit {c : Char} (h : IsNameChar c) : (UInt16.ofNat c.toNat).toNat = c.toNat := by
  rw [isNameChar_iff] at h
  rw [UInt16.toNat_ofNat']
  omega

theorem isNameUnit_of_isNameChar {c : Char} (h : IsNameChar c) : isNameUnit (UInt16.ofNat c.toNat) = true := by
  have hunit := toNat_unit h
  rw [isNameChar_iff] at h
  simp only [isNameUnit, decide_eq_true_eq, UInt16.le_iff_toNat_le, ← UInt16.toNat_inj, hunit,
    UInt16.reduceToNat]
  omega

@[simp] theorem length_textUnits (s : String) : (textUnits s).length = s.length := by
  rw [textUnits, List.length_map, String.length_toList]

/-- A name is made of its units again. -/
theorem nameText_textUnits {name : String} (h : ∀ c ∈ name.toList, IsNameChar c) :
    nameText (textUnits name) = name := by
  have hid : name.toList.map (fun c => Char.ofNat (UInt16.ofNat c.toNat).toNat) = name.toList.map id := by
    refine List.map_congr_left fun c hc => ?_
    rw [toNat_unit (h c hc)]
    exact Char.ofNat_toNat c
  rw [nameText, textUnits, List.map_map]
  refine (congrArg String.ofList hid).trans ?_
  rw [List.map_id, String.ofList_toList]

theorem all_isNameUnit_textUnits {name : String} (h : ∀ c ∈ name.toList, IsNameChar c) :
    (textUnits name).all isNameUnit = true := by
  rw [textUnits, List.all_map]
  exact List.all_eq_true.2 fun c hc => isNameUnit_of_isNameChar (h c hc)

/-- The check that a name has to pass. -/
theorem isLikely_textUnits {name : String} {requireDot : Bool} (h : ∀ c ∈ name.toList, IsNameChar c)
    (hpos : 1 ≤ name.length) (hdot : requireDot = true → '.' ∈ name.toList) :
    (if requireDot then isLikelyInterfaceName (textUnits name)
      else isLikelyInterfaceNameRelaxed (textUnits name)) = true := by
  have hne : textUnits name ≠ [] := by
    rw [← List.length_pos_iff, length_textUnits]
    exact hpos
  have hrelaxed : isLikelyInterfaceNameRelaxed (textUnits name) = true :=
    decide_eq_true ⟨hne, all_isNameUnit_textUnits h⟩
  cases requireDot with
  | false => exact hrelaxed
  | true =>
    refine decide_eq_true ⟨hrelaxed, ?_⟩
    exact List.mem_map.2 ⟨'.', hdot rfl, rfl⟩

/-! ### The pipeline -/

/-- What the pipeline makes of a request with an ordinary code. -/
theorem decodePipeline_request (env : ParserEnv) {event : BinderEvent} (hreply : event.isReply = false)
    (hcode : ∀ special ∈ specialCodes, special.1 ≠ event.code) :
    (decodePipeline env event).result =
      ((aidlQDecoder event).or ((aidlPDecoder event).or ((aidlODecoder event).or
        ((hidlDescriptorDecoder event).or (rawAsciiHeuristicDecoder event))))).getD
          (targetRefDecoder env event) := by
  have hnone : ReplyDecoder.tryDecode env event = none := by
    rw [ReplyDecoder.tryDecode, if_pos (by simp [hreply])]
  have hspecial : specialCodeDecoder event = none := by
    rw [specialCodeDecoder, Option.map_eq_none_iff, List.lookup_eq_none_iff]
    intro special hmem
    exact bne_iff_ne.2 (Ne.symm (hcode special hmem))
  simp only [decodePipeline, hnone, requestDecoders, List.findSome?_cons, List.findSome?_nil, hspecial]
  cases aidlQDecoder event <;> cases aidlPDecoder event <;> cases aidlODecoder event <;>
    cases hidlDescriptorDecoder event <;> cases rawAsciiHeuristicDecoder event <;> rfl

/-- A decoder of the family accepts a string at its offset. -/
theorem aidlDecoder_string16 {event : BinderEvent} {off : Nat} {name : String} (requireDot : Bool)
    (source : DecodeSource) (confidence : Confidence)
    (h : String16At event.rawParcel off (textUnits name)) (hchars : ∀ c ∈ name.toList, IsNameChar c)
    (hpos : 1 ≤ name.length) (hle : name.length ≤ 4096) (hdot : requireDot = true → '.' ∈ name.toList) :
    aidlDecoder off requireDot source confidence event =
      some { interfaceName := name, methodHint := none, source, confidence
             payloadStart := ((off + 4 + padTo4 ((name.length + 1) * 2) : Nat) : Int) } := by
  have hfits := h.fits
  have hread := h.readUtf16NameAt (by rw [length_textUnits]; exact hpos) (by rw [length_textUnits]; exact hle)
    (isLikely_textUnits hchars hpos hdot)
  rw [nameText_textUnits hchars, length_textUnits] at hread
  rw [aidlDecoder, if_neg (by omega), hread]
  rfl

theorem aidlDecoder_eq_none {event : BinderEvent} {off : Nat} (requireDot : Bool) (source : DecodeSource)
    (confidence : Confidence) (h : 4096 < (leUInt32 event.rawParcel off).toNat) :
    aidlDecoder off requireDot source confidence event = none := by
  rw [aidlDecoder, readUtf16NameAt_eq_none requireDot h]
  split <;> rfl

theorem aidlQDecoder_eq_none {event : BinderEvent} (h : leUInt32 event.rawParcel 8 ≠ systMagic) :
    aidlQDecoder event = none := by
  rw [aidlQDecoder, if_pos h]
  split <;> rfl

/-! ### The layouts -/

/-- A string after a header of `off` bytes. -/
theorem string16At_header {header args : List UInt8} {off : Nat} {name : String} (hoff : header.length = off)
    (hle : name.length ≤ 4096) :
    String16At (header ++ (string16 (textUnits name) ++ args)) off (textUnits name) :=
  String16At.of_fieldAt (by rw [length_textUnits]; omega) (FieldAt.of_append hoff)

/-- A unit of a name in its place. -/
theorem String16At.isNameUnit {data : List UInt8} {off i : Nat} {name : String}
    (h : String16At data off (textUnits name)) (hchars : ∀ c ∈ name.toList, IsNameChar c)
    (hi : i < name.length) : App.isNameUnit (leUInt16 data (off + 4 + 2 * i)) = true := by
  have hall := all_isNameUnit_textUnits hchars
  rw [← h.units, length_textUnits] at hall
  exact List.all_eq_true.1 hall _ (List.mem_map.2 ⟨i, List.mem_range.2 hi, rfl⟩)

/-- In the shortest layout the word after the length holds two characters: it is not the magic word, and
too large to be a length. -/
theorem secondWord_of_characters {data : List UInt8} {name : String} (h : String16At data 4 (textUnits name))
    (hchars : ∀ c ∈ name.toList, IsNameChar c) (hlen : 2 ≤ name.length) :
    leUInt32 data 8 ≠ systMagic ∧ 4096 < (leUInt32 data 8).toNat := by
  have hfits := h.fits
  rw [length_textUnits] at hfits
  have hword : (leUInt32 data 8).toNat = (leUInt16 data 8).toNat + 65536 * (leUInt16 data 10).toNat :=
    leUInt32_eq_units (by omega)
  have hfirst := isNameUnit_bounds (h.isNameUnit hchars (show 0 < name.length by omega))
  have hsecond := isNameUnit_bounds (h.isNameUnit hchars (show 1 < name.length by omega))
  simp only [Nat.mul_zero, Nat.add_zero, Nat.reduceAdd, Nat.reduceMul] at hfirst hsecond
  refine ⟨fun hmagic => ?_, by omega⟩
  rw [hmagic] at hword
  change 0x53595354 = _ at hword
  omega

/-! ### HIDL -/

/-- The text is visible ASCII. -/
def IsPrintable (c : Char) : Prop := 0x20 ≤ c.toNat ∧ c.toNat ≤ 0x7E

instance : DecidablePred IsPrintable := fun _ => inferInstanceAs (Decidable (_ ∧ _))

section
variable {descriptor : String} (h : ∀ c ∈ descriptor.toList, IsPrintable c)
include h

theorem toNat_asciiBytes {b : UInt8} (hb : b ∈ asciiBytes descriptor) : 0x20 ≤ b.toNat ∧ b.toNat ≤ 0x7E := by
  obtain ⟨c, hc, rfl⟩ := List.mem_map.1 hb
  obtain ⟨hlow, hhigh⟩ := h c hc
  rw [UInt8.toNat_ofNat']
  omega

theorem asciiText_asciiBytes : asciiText (asciiBytes descriptor) = descriptor := by
  have hid : descriptor.toList.map (fun c => Char.ofNat (UInt8.ofNat c.toNat).toNat) =
      descriptor.toList.map id := by
    refine List.map_congr_left fun c hc => ?_
    obtain ⟨hlow, hhigh⟩ := h c hc
    have hbyte : (UInt8.ofNat c.toNat).toNat = c.toNat := by
      rw [UInt8.toNat_ofNat']
      omega
    rw [hbyte]
    exact Char.ofNat_toNat c
  rw [asciiText, asciiBytes, List.map_map]
  refine (congrArg String.ofList hid).trans ?_
  rw [List.map_id, String.ofList_toList]

/-- The NUL ends the descriptor, unless the limit does. -/
theorem leadingAscii_hidlParcel (hlen : descriptor.length ≤ 256) (args : List UInt8) :
    leadingAscii 0x20 256 (hidlParcel descriptor args) = asciiBytes descriptor := by
  have hlength : (asciiBytes descriptor).length ≤ 256 := by
    rw [asciiBytes, List.length_map, String.length_toList]
    exact hlen
  rw [leadingAscii, hidlParcel, List.take_append, List.take_of_length_le hlength,
    List.takeWhile_append_of_pos]
  · cases 256 - (asciiBytes descriptor).length with
    | zero => simp
    | succ k => simp [List.take_succ_cons]
  · intro b hb
    have hbounds := toNat_asciiBytes h hb
    simp only [UInt8.le_iff_toNat_le, decide_eq_true_eq]
    exact hbounds

/-- Four characters are too large a number to be a length. -/
theorem word_of_descriptor {off : Nat} (hoff : off + 4 ≤ descriptor.length) (args : List UInt8) :
    4096 < (leUInt32 (hidlParcel descriptor args) off).toNat := by
  have hlength : (asciiBytes descriptor).length = descriptor.length := by
    rw [asciiBytes, List.length_map, String.length_toList]
  have hfits : off + 4 ≤ (asciiBytes descriptor ++ 0 :: args).length := by
    rw [List.length_append]
    omega
  have hbyte : byteAt (asciiBytes descriptor ++ 0 :: args) (off + 3) ∈ asciiBytes descriptor := by
    rw [byteAt_eq_getElem (by omega), List.getElem_append_left (by omega)]
    exact List.getElem_mem _
  have hbounds := toNat_asciiBytes h hbyte
  have hword := le_leUInt32 hfits
  rw [hidlParcel]
  omega

end

theorem hidlDescriptorDecoder_hidlParcel {event : BinderEvent} {descriptor : String} {args : List UInt8}
    (hparcel : event.rawParcel = hidlParcel descriptor args) (h : ∀ c ∈ descriptor.toList, IsPrintable c)
    (hlow : 8 ≤ descriptor.length) (hhigh : descriptor.length ≤ 256) (hat : '@' ∈ descriptor.toList)
    (hcolons : [':', ':'] <:+: descriptor.toList) :
    hidlDescriptorDecoder event =
      some { interfaceName := descriptor, methodHint := none, payloadStart := -1, source := .hidlDescriptor
             confidence := if event.binderDev = .hwbinder then .high else .medium } := by
  have hne : hidlParcel descriptor args ≠ [] := by simp [hidlParcel]
  have hshape : 0x40 ∈ asciiBytes descriptor ∧ [0x3A, 0x3A] <:+: asciiBytes descriptor :=
    ⟨List.mem_map.2 ⟨'@', hat, rfl⟩, hcolons.map fun c : Char => UInt8.ofNat c.toNat⟩
  have hlength : (asciiBytes descriptor).length = descriptor.length := by
    rw [asciiBytes, List.length_map, String.length_toList]
  rw [hidlDescriptorDecoder, hparcel, if_neg hne, leadingAscii_hidlParcel h hhigh]
  dsimp only
  rw [asciiText_asciiBytes h, if_neg (fun hneither => hneither.2 hshape), if_neg]
  rintro (hshort | hno)
  · omega
  · exact hno hshape

/-! ### All formats -/

/-- **No format of interface tokens shadows another**: a request of each format is decoded as what it is,
whatever its headers, its name and its arguments are. -/
theorem decodePipeline_formats (env : ParserEnv) (event : BinderEvent) (hreply : event.isReply = false)
    (hcode : ∀ special ∈ specialCodes, special.1 ≠ event.code) :
    (∀ (policy workSource : UInt32) (name : String) (args : List UInt8),
      (∀ c ∈ name.toList, IsNameChar c) → 1 ≤ name.length → name.length ≤ 4096 →
      event.rawParcel = aidlQParcel policy workSource name args →
        (decodePipeline env event).result.interfaceName = name ∧
        (decodePipeline env event).result.source = .aidlQ ∧
        (decodePipeline env event).result.payloadStart = (16 + padTo4 ((name.length + 1) * 2) : Nat)) ∧
    (∀ (policy workSource : UInt32) (name : String) (args : List UInt8),
      (∀ c ∈ name.toList, IsNameChar c) → '.' ∈ name.toList → 2 ≤ name.length → name.length ≤ 4096 →
      event.rawParcel = aidlPParcel policy workSource name args →
        (decodePipeline env event).result.interfaceName = name ∧
        (decodePipeline env event).result.source = .aidlP ∧
        (decodePipeline env event).result.payloadStart = (12 + padTo4 ((name.length + 1) * 2) : Nat)) ∧
    (∀ (policy : UInt32) (name : String) (args : List UInt8),
      (∀ c ∈ name.toList, IsNameChar c) → '.' ∈ name.toList → 2 ≤ name.length → name.length ≤ 4096 →
      event.rawParcel = aidlOParcel policy name args →
        (decodePipeline env event).result.interfaceName = name ∧
        (decodePipeline env event).result.source = .aidlO ∧
        (decodePipeline env event).result.payloadStart = (8 + padTo4 ((name.length + 1) * 2) : Nat)) ∧
    ∀ (descriptor : String) (args : List UInt8),
      (∀ c ∈ descriptor.toList, IsPrintable c) → '@' ∈ descriptor.toList →
      [':', ':'] <:+: descriptor.toList → 16 ≤ descriptor.length → descriptor.length ≤ 256 →
      event.rawParcel = hidlParcel descriptor args →
        (decodePipeline env event).result.interfaceName = descriptor ∧
        (decodePipeline env event).result.source = .hidlDescriptor ∧
        (decodePipeline env event).result.payloadStart = -1 := by
  rw [decodePipeline_request env hreply hcode]
  refine ⟨?_, ?_, ?_, ?_⟩
  · intro policy workSource name args hchars hpos hle hparcel
    have hstring : String16At event.rawParcel 12 (textUnits name) := by
      rw [hparcel]
      exact string16At_header (by simp [headerWord]) hle
    have hmagic : leUInt32 event.rawParcel 8 = systMagic := by
      have hfield : FieldAt event.rawParcel 8 (headerWord systMagic) := by
        rw [hparcel, aidlQParcel, List.append_assoc (headerWord policy ++ _)]
        exact FieldAt.of_append (by simp [headerWord])
      exact UInt32.toNat_inj.1 (hfield.leUInt32 (UInt32.toNat_lt _))
    have hfits := hstring.fits
    have hq := aidlDecoder_string16 false .aidlQ .high hstring hchars hpos hle (by simp)
    rw [aidlQDecoder, if_neg (by omega), if_neg (not_not.2 hmagic), hq]
    exact ⟨rfl, rfl, rfl⟩
  · intro policy workSource name args hchars hdot hpos hle hparcel
    have hstring : String16At event.rawParcel 8 (textUnits name) := by
      rw [hparcel]
      exact string16At_header (by simp [headerWord]) hle
    have hmagic : leUInt32 event.rawParcel 8 ≠ systMagic := by
      intro heq
      have hword := hstring.word
      rw [heq, length_textUnits] at hword
      change 0x53595354 = name.length at hword
      omega
    rw [aidlQDecoder_eq_none hmagic, Option.none_or, aidlPDecoder,
      aidlDecoder_string16 true .aidlP .medium hstring hchars (by omega) hle fun _ => hdot]
    exact ⟨rfl, rfl, rfl⟩
  · intro policy name args hchars hdot hpos hle hparcel
    have hstring : String16At event.rawParcel 4 (textUnits name) := by
      rw [hparcel]
      exact string16At_header (by simp [headerWord]) hle
    obtain ⟨hmagic, hlarge⟩ := secondWord_of_characters hstring hchars hpos
    rw [aidlQDecoder_eq_none hmagic, Option.none_or, aidlPDecoder, aidlDecoder_eq_none _ _ _ hlarge,
      Option.none_or, aidlODecoder,
      aidlDecoder_string16 true .aidlO .medium hstring hchars (by omega) hle fun _ => hdot]
    exact ⟨rfl, rfl, rfl⟩
  · intro descriptor args hchars hat hcolons hlow hhigh hparcel
    have hword : ∀ off, off + 4 ≤ 16 → 4096 < (leUInt32 event.rawParcel off).toNat := by
      intro off hoff
      rw [hparcel]
      exact word_of_descriptor hchars (by omega) args
    have hq : aidlQDecoder event = none := by
      rw [aidlQDecoder, aidlDecoder_eq_none _ _ _ (hword 12 (by omega))]
      split
      · rfl
      · split <;> rfl
    rw [hq, aidlPDecoder, aidlDecoder_eq_none _ _ _ (hword 8 (by omega)), aidlODecoder,
      aidlDecoder_eq_none _ _ _ (hword 4 (by omega)), Option.none_or, Option.none_or, Option.none_or,
      hidlDescriptorDecoder_hidlParcel hparcel hchars (by omega) hhigh hat hcolons]
    exact ⟨rfl, rfl, rfl⟩

/-- A request with this parcel. -/
def requestOf (rawParcel : List UInt8) : BinderEvent :=
  { id := 0, timestamp := 0, pid := 0, uid := 0, code := 1, flags := 0, rawParcel }

/-- Checked character by character. -/
theorem of_all {p : Char → Prop} [DecidablePred p] {cs : List Char} (h : (cs.all fun c => decide (p c)) = true) :
    ∀ c ∈ cs, p c := fun c hc => of_decide_eq_true (List.all_eq_true.1 h c hc)

/-- Three names after the headers that they may follow, and a descriptor that has the bytes of the magic word
at offset 8. -/
theorem decodePipeline_formats_samples :
    let q := requestOf (aidlQParcel 1 2 "Xiaomi" [7])
    let p := requestOf (aidlPParcel 1 2 "a.b" [7])
    let o := requestOf (aidlOParcel 1 "a.b" [7])
    let hidl := requestOf (hidlParcel "vendor.iTSYS@1.0::IFoo" [7])
    (decodePipeline idleParserEnv q).result.source = .aidlQ ∧
      (decodePipeline idleParserEnv p).result.payloadStart = 20 ∧
      (decodePipeline idleParserEnv o).result.interfaceName = "a.b" ∧
      (decodePipeline idleParserEnv hidl).result.interfaceName = "vendor.iTSYS@1.0::IFoo" := by
  intro q p o hidl
  have ordinary : ∀ special ∈ specialCodes, special.1 ≠ (1 : Int32) := by decide
  have formats : ∀ rawParcel, _ := fun rawParcel =>
    decodePipeline_formats idleParserEnv (requestOf rawParcel) rfl ordinary
  obtain ⟨hq, -⟩ := formats q.rawParcel
  obtain ⟨-, hp, -⟩ := formats p.rawParcel
  obtain ⟨-, -, ho, -⟩ := formats o.rawParcel
  obtain ⟨-, -, -, hhidl⟩ := formats hidl.rawParcel
  exact ⟨(hq 1 2 "Xiaomi" [7] (of_all (by decide)) (by decide) (by decide) rfl).2.1,
    (hp 1 2 "a.b" [7] (of_all (by decide)) (by decide) (by decide) (by decide) rfl).2.2,
    (ho 1 "a.b" [7] (of_all (by decide)) (by decide) (by decide) (by decide) rfl).1,
    (hhidl "vendor.iTSYS@1.0::IFoo" [7] (of_all (by decide)) (by decide) (by decide) (by decide) (by decide)
      rfl).1⟩

end BinderTracer.App
