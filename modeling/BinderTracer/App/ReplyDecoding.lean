import BinderTracer.App.ParcelString
import BinderTracer.App.ReplyParser
import BinderTracer.Lib.Decimal

/-!
# What is decoded of a reply

Three facts about `decodeJavaAidlReply`. It returns on every byte string, and sets at most one field of
its result. Reply headers in front of a parcel do not change the exception or the value. And the summary of
an exception has the tag, the message and the error code that were written, except that the error code after
a message is read without the padding of the message: two bytes early if the message has an even number of characters.
-/

namespace BinderTracer.App

open BinderTracer.Lib ByteBuffer

namespace ReplyParser

/-! ### The parser returns -/

theorem takes_readChars (n : Nat) : Takes (n * 2) (readChars n) := by
  induction n with
  | zero => exact Takes.pure []
  | succ n ih =>
    rw [show (n + 1) * 2 = 2 + (n * 2 + 0) by omega]
    exact Takes.getShortLe.bind fun c => ih.bind fun chars => Takes.pure (c :: chars)

theorem yields_readUtf16String : Yields 0 readUtf16String fun _ => True := by
  refine Yields.guard trivial (Yields.bind Takes.getIntLe fun len => ?_)
  split
  · exact Yields.pure trivial
  split
  · exact Yields.pure trivial
  split
  · exact Yields.pure trivial
  refine Yields.guard trivial (Yields.of_takes ?_ fun _ => trivial)
  exact (takes_readChars _).bind fun chars => Takes.getShortLe.bind fun _ => Takes.pure _

theorem yields_readMessageField : Yields 0 readMessageField fun _ => True := by
  refine yields_readUtf16String.seq fun r _ => ?_
  cases r <;> exact Yields.pure trivial

theorem yields_readExceptionCodeLoop (n : Nat) : Yields 0 (readExceptionCodeLoop n) fun _ => True := by
  induction n with
  | zero => exact Yields.pure trivial
  | succ n ih =>
    refine Yields.guard trivial (Yields.bind Takes.getIntLe fun code => ?_)
    split
    · exact Yields.pure trivial
    refine Yields.guard trivial (Yields.bind Takes.getIntLe fun headerLen => ?_)
    split
    · exact Yields.pure trivial
    exact Yields.guard trivial (Yields.bind (Takes.skip _) fun _ => ih)

/-- At most one of the three fields is set. -/
structure AtMostOneSet (r : ReplyDecodeResult) : Prop where
  exception : r.exception ≠ none → r.value = none ∧ r.rawHexHint = none
  value : r.value ≠ none → r.exception = none ∧ r.rawHexHint = none
  rawHexHint : r.rawHexHint ≠ none → r.exception = none ∧ r.value = none

/-- None of the three fields is set. -/
def NoneSet (r : ReplyDecodeResult) : Prop := r.exception = none ∧ r.value = none ∧ r.rawHexHint = none

/-- One of the three fields is set. -/
def OneSet (r : ReplyDecodeResult) : Prop := AtMostOneSet r ∧ ¬NoneSet r

theorem oneSet_value (value : String) : OneSet (valueResult value) :=
  ⟨⟨by simp [valueResult], by simp [valueResult], by simp [valueResult]⟩, by simp [NoneSet, valueResult]⟩

theorem oneSet_raw (parcel : List UInt8) : OneSet (rawResult parcel) :=
  ⟨⟨by simp [rawResult], by simp [rawResult], by simp [rawResult]⟩, by simp [NoneSet, rawResult]⟩

theorem oneSet_exception (summary : String) :
    OneSet { exception := some summary, value := none, rawHexHint := none } :=
  ⟨⟨by simp, by simp, by simp⟩, by simp [NoneSet]⟩

theorem atMostOneSet_none : AtMostOneSet { exception := none, value := none, rawHexHint := none } :=
  ⟨by simp, by simp, by simp⟩

section
variable (decodeUtf16 : List UInt16 → String)

theorem yields_decodeException (code : Int32) : Yields 0 (decodeException decodeUtf16 code) fun _ => True := by
  unfold decodeException
  split
  · exact Yields.pure trivial
  have hmessage : Yields 0 readMessage fun _ => True :=
    Yields.guard trivial fun b hb => yields_readMessageField b (by omega)
  have herror : Yields 0 readErrorCode fun _ => True :=
    Yields.guard trivial (Yields.of_takes (Takes.getIntLe.bind fun x => Takes.pure (some x)) fun _ => trivial)
  refine hmessage.seq fun message _ => ?_
  split
  · exact herror.seq fun errorCode _ => Yields.pure trivial
  · exact Yields.pure trivial

theorem yields_readNumber {α : Type} {size : Nat} {get : Reading α} (hget : Takes size get) (text : α → String)
    (parcel : List UInt8) : Yields 0 (readNumber size get text parcel) OneSet :=
  Yields.guard (oneSet_raw parcel) (Yields.bind hget fun _ => Yields.pure (oneSet_value _))

theorem yields_readStringValue (parcel : List UInt8) : Yields 0 (readStringValue decodeUtf16 parcel) OneSet := by
  refine yields_readUtf16String.seq fun r _ => ?_
  cases r with
  | success chars => exact Yields.pure (oneSet_value _)
  | nullValue => exact Yields.pure (oneSet_value _)
  | failure => exact Yields.pure (oneSet_raw parcel)

theorem yields_readCharSequenceValue (parcel : List UInt8) :
    Yields 0 (readCharSequenceValue decodeUtf16 parcel) OneSet := by
  refine Yields.guard (oneSet_raw parcel) (Yields.bind Takes.getIntLe fun kind => ?_)
  split
  · exact yields_readStringValue decodeUtf16 parcel
  split
  · exact Yields.pure (oneSet_value _)
  · exact Yields.pure (oneSet_raw parcel)

theorem yields_readValue (parcel : List UInt8) (returnType : Option String) :
    Yields 0 (readValue decodeUtf16 parcel returnType) fun r =>
      AtMostOneSet r ∧ (NoneSet r → returnType.map canonicalReturnType = some "void") := by
  have set : ∀ {m : Reading ReplyDecodeResult}, Yields 0 m OneSet → Yields 0 m fun r =>
      AtMostOneSet r ∧ (NoneSet r → returnType.map canonicalReturnType = some "void") := by
    intro m hm b hb
    obtain ⟨r, b', hr, hb', hone, hsome⟩ := hm b hb
    exact ⟨r, b', hr, hb', hone, fun hnothing => absurd hnothing hsome⟩
  unfold readValue
  split
  · exact set (Yields.pure (oneSet_raw parcel))
  next type htype =>
  split
  · next hvoid => exact Yields.pure ⟨atMostOneSet_none, fun _ => by rw [htype, hvoid]⟩
  split
  · exact set (yields_readNumber Takes.getIntLe _ parcel)
  split
  · exact set (yields_readNumber Takes.getLongLe _ parcel)
  split
  · exact set (yields_readNumber Takes.getIntLe _ parcel)
  split
  · exact set (yields_readStringValue decodeUtf16 parcel)
  split
  · exact set (yields_readCharSequenceValue decodeUtf16 parcel)
  · exact set (Yields.pure (oneSet_raw parcel))

theorem yields_readReply (parcel : List UInt8) (returnType : Option String) (code : Int32) :
    Yields 0 (readReply decodeUtf16 parcel returnType code) fun r =>
      AtMostOneSet r ∧ (NoneSet r → returnType.map canonicalReturnType = some "void" ∧ code = 0) := by
  unfold readReply
  split
  · refine (yields_decodeException decodeUtf16 code).seq fun summary _ => ?_
    cases summary with
    | none => exact Yields.pure ⟨(oneSet_raw parcel).1, fun h => absurd h (oneSet_raw parcel).2⟩
    | some summary => exact Yields.pure ⟨(oneSet_exception summary).1, fun h => absurd h (oneSet_exception summary).2⟩
  · next hcode =>
    intro b hb
    obtain ⟨r, b', hr, hb', hone, hvoid⟩ := yields_readValue decodeUtf16 parcel returnType b hb
    exact ⟨r, b', hr, hb', hone, fun h => ⟨hvoid h, Decidable.not_not.1 hcode⟩⟩

/-- The code after the headers of a parcel, if it is there. -/
def exceptionCodeOf (parcel : List UInt8) : Except Throwable (Option Int32) :=
  readExceptionCode.run' { array := parcel }

/-- The parser returns, and sets one field of the result, or none for a method without one. -/
theorem decodeJavaAidlReply_returns (parcel : List UInt8) (returnType : Option String) :
    ∃ r, decodeJavaAidlReply decodeUtf16 parcel returnType = .ok r ∧ AtMostOneSet r ∧
      (NoneSet r →
        returnType.map canonicalReturnType = some "void" ∧ exceptionCodeOf parcel = .ok (some 0)) := by
  unfold decodeJavaAidlReply
  split
  · exact ⟨_, rfl, (oneSet_raw parcel).1, fun h => absurd h (oneSet_raw parcel).2⟩
  obtain ⟨code, b, hcode, hb, -⟩ := yields_readExceptionCodeLoop 4 { array := parcel } (Nat.zero_le _)
  have hread : (readParcel decodeUtf16 parcel returnType) { array := parcel } = _ :=
    bind_ok (show readExceptionCode { array := parcel } = _ from hcode)
  rw [StateT.run', hread]
  cases code with
  | none => exact ⟨_, rfl, (oneSet_raw parcel).1, fun h => absurd h (oneSet_raw parcel).2⟩
  | some code =>
    obtain ⟨r, b', hr, -, hone, hvoid⟩ := yields_readReply decodeUtf16 parcel returnType code b hb
    refine ⟨r, by simp only [hr]; rfl, hone, fun h => ⟨(hvoid h).1, ?_⟩⟩
    rw [exceptionCodeOf, StateT.run', show readExceptionCode { array := parcel } = _ from hcode, (hvoid h).2]
    rfl

/-! ### Where the reply begins does not matter -/

theorem relocatable_readChars (n : Nat) : Relocatable (readChars n) := by
  induction n with
  | zero => exact Relocatable.pure []
  | succ n ih => exact Relocatable.getShortLe.bind fun c => ih.bind fun chars => Relocatable.pure (c :: chars)

theorem relocatable_readUtf16String : Relocatable readUtf16String := by
  refine Relocatable.guard _ (Relocatable.getIntLe.bind fun len => ?_)
  split
  · exact Relocatable.pure _
  split
  · exact Relocatable.pure _
  split
  · exact Relocatable.pure _
  refine Relocatable.guard _ ?_
  exact (relocatable_readChars _).bind fun chars => Relocatable.getShortLe.bind fun _ => Relocatable.pure _

theorem relocatable_readExceptionCodeLoop (n : Nat) : Relocatable (readExceptionCodeLoop n) := by
  induction n with
  | zero => exact Relocatable.pure none
  | succ n ih =>
    refine Relocatable.guard _ (Relocatable.getIntLe.bind fun code => ?_)
    split
    · exact Relocatable.pure _
    refine Relocatable.guard _ (Relocatable.getIntLe.bind fun headerLen => ?_)
    split
    · exact Relocatable.pure _
    exact Relocatable.guard _ ((Relocatable.skip _).bind fun _ => ih)

theorem relocatable_readMessage : Relocatable readMessage := by
  refine Relocatable.guard _ (relocatable_readUtf16String.bind fun r => ?_)
  cases r <;> exact Relocatable.pure _

theorem relocatable_decodeException (code : Int32) : Relocatable (decodeException decodeUtf16 code) := by
  unfold decodeException
  split
  · exact Relocatable.pure none
  have herror : Relocatable readErrorCode :=
    Relocatable.guard _ (Relocatable.getIntLe.bind fun x => Relocatable.pure (some x))
  refine relocatable_readMessage.bind fun message => ?_
  split
  · exact herror.bind fun errorCode => Relocatable.pure _
  · exact Relocatable.pure _

theorem relocatable_readNumber {α : Type} {get : Reading α} (hget : Relocatable get) (size : Nat)
    (text : α → String) (parcel : List UInt8) : Relocatable (readNumber size get text parcel) :=
  Relocatable.guard _ (hget.bind fun _ => Relocatable.pure _)

theorem relocatable_readStringValue (parcel : List UInt8) :
    Relocatable (readStringValue decodeUtf16 parcel) := by
  refine relocatable_readUtf16String.bind fun r => ?_
  cases r <;> exact Relocatable.pure _

theorem relocatable_readCharSequenceValue (parcel : List UInt8) :
    Relocatable (readCharSequenceValue decodeUtf16 parcel) := by
  refine Relocatable.guard _ (Relocatable.getIntLe.bind fun kind => ?_)
  split
  · exact relocatable_readStringValue decodeUtf16 parcel
  split <;> exact Relocatable.pure _

theorem relocatable_readReply (parcel : List UInt8) (returnType : Option String) (code : Int32) :
    Relocatable (readReply decodeUtf16 parcel returnType code) := by
  unfold readReply
  split
  · refine (relocatable_decodeException decodeUtf16 code).bind fun summary => ?_
    cases summary <;> exact Relocatable.pure _
  unfold readValue
  split
  · exact Relocatable.pure _
  split
  · exact Relocatable.pure _
  split
  · exact relocatable_readNumber Relocatable.getIntLe _ _ parcel
  split
  · exact relocatable_readNumber Relocatable.getLongLe _ _ parcel
  split
  · exact relocatable_readNumber Relocatable.getIntLe _ _ parcel
  split
  · exact relocatable_readStringValue decodeUtf16 parcel
  split
  · exact relocatable_readCharSequenceValue decodeUtf16 parcel
  · exact Relocatable.pure _

/-! ### The bytes that a hint is made of matter for the hint only -/

/-- The same exception and the same value. -/
def SameReply (r r' : ReplyDecodeResult) : Prop := r'.exception = r.exception ∧ r'.value = r.value

/-- The computations return the same reply, or fail in the same way. -/
def Agree (m m' : Reading ReplyDecodeResult) : Prop :=
  ∀ b r b₁, m b = .ok (r, b₁) → ∃ r', m' b = .ok (r', b₁) ∧ SameReply r r'

theorem Agree.refl (m : Reading ReplyDecodeResult) : Agree m m := fun _ r _ h => ⟨r, h, rfl, rfl⟩

theorem Agree.raw (parcel parcel' : List UInt8) :
    Agree (pure (rawResult parcel)) (pure (rawResult parcel')) := by
  rintro b r b₁ ⟨⟩
  exact ⟨rawResult parcel', rfl, rfl, rfl⟩

theorem Agree.bind {α : Type} (m : Reading α) {f f' : α → Reading ReplyDecodeResult}
    (h : ∀ a, Agree (f a) (f' a)) : Agree (m >>= f) (m >>= f') := by
  intro b r b₂ hr
  cases hm : m b with
  | error e =>
    simp only [Bind.bind, StateT.bind, hm, Except.bind] at hr
    cases hr
  | ok x =>
    obtain ⟨a, b₁⟩ := x
    rw [bind_ok hm] at hr ⊢
    exact h a b₁ r b₂ hr

variable (parcel parcel' : List UInt8)

theorem Agree.guard {m m' : Reading ReplyDecodeResult} (n : Nat) (h : Agree m m') :
    Agree (remaining >>= fun left => if left < n then pure (rawResult parcel) else m)
      (remaining >>= fun left => if left < n then pure (rawResult parcel') else m') := by
  refine Agree.bind _ fun left => ?_
  split
  · exact Agree.raw parcel parcel'
  · exact h

theorem agree_readNumber {α : Type} (size : Nat) (get : Reading α) (text : α → String) :
    Agree (readNumber size get text parcel) (readNumber size get text parcel') :=
  Agree.guard parcel parcel' size (Agree.refl _)

theorem agree_readStringValue :
    Agree (readStringValue decodeUtf16 parcel) (readStringValue decodeUtf16 parcel') := by
  refine Agree.bind _ fun r => ?_
  cases r with
  | success chars => exact Agree.refl _
  | nullValue => exact Agree.refl _
  | failure => exact Agree.raw parcel parcel'

theorem agree_readCharSequenceValue :
    Agree (readCharSequenceValue decodeUtf16 parcel) (readCharSequenceValue decodeUtf16 parcel') := by
  refine Agree.guard parcel parcel' 4 (Agree.bind _ fun kind => ?_)
  split
  · exact agree_readStringValue decodeUtf16 parcel parcel'
  split
  · exact Agree.refl _
  · exact Agree.raw parcel parcel'

theorem agree_readReply (returnType : Option String) (code : Int32) :
    Agree (readReply decodeUtf16 parcel returnType code) (readReply decodeUtf16 parcel' returnType code) := by
  unfold readReply
  split
  · refine Agree.bind _ fun summary => ?_
    cases summary with
    | none => exact Agree.raw parcel parcel'
    | some summary => exact Agree.refl _
  unfold readValue
  split
  · exact Agree.raw parcel parcel'
  split
  · exact Agree.refl _
  split
  · exact agree_readNumber parcel parcel' _ _ _
  split
  · exact agree_readNumber parcel parcel' _ _ _
  split
  · exact agree_readNumber parcel parcel' _ _ _
  split
  · exact agree_readStringValue decodeUtf16 parcel parcel'
  split
  · exact agree_readCharSequenceValue decodeUtf16 parcel parcel'
  · exact Agree.raw parcel parcel'

end

/-! ### Reply headers -/

/-- An `int` in a parcel. -/
def intBytes (x : Int32) : List UInt8 := leBytes 4 x.toUInt32.toNat

@[simp] theorem length_intBytes (x : Int32) : (intBytes x).length = 4 := length_leBytes 4 _

theorem toInt32_of_intBytes {data : List UInt8} {off : Nat} {x : Int32} (h : FieldAt data off (intBytes x)) :
    (leUInt32 data off).toInt32 = x := by
  have hword : leUInt32 data off = x.toUInt32 := UInt32.toNat_inj.1 (h.leUInt32 (UInt32.toNat_lt _))
  rw [hword, Int32.toInt32_toUInt32]

/-- A header that precedes the code of a reply. -/
structure ReplyHeader where
  marker : Int32
  content : List UInt8
  known : marker = exHasStrictmodeReplyHeader ∨ marker = exHasNotedAppopsReplyHeader
  short : content.length ≤ 65536

/-- The header in a parcel. -/
def ReplyHeader.bytes (h : ReplyHeader) : List UInt8 :=
  intBytes h.marker ++ (leBytes 4 h.content.length ++ h.content)

/-- The length of the header that a parcel begins with, if it does. -/
def headerEnd (body : List UInt8) : Option Nat :=
  let marker := (leUInt32 body 0).toInt32
  let length := (leUInt32 body 4).toNat
  if 8 ≤ body.length ∧ (marker = exHasStrictmodeReplyHeader ∨ marker = exHasNotedAppopsReplyHeader) ∧
      length ≤ 65536 ∧ 8 + length ≤ body.length then some (8 + length)
  else none

theorem headerEnd_bounds {body : List UInt8} {n : Nat} (h : headerEnd body = some n) :
    8 ≤ n ∧ n ≤ body.length := by
  rw [headerEnd] at h
  split at h
  · next hheader =>
    cases h
    omega
  · cases h

/-- The number of headers that a parcel begins with. -/
def frontHeaders (body : List UInt8) : Nat :=
  match h : headerEnd body with
  | none => 0
  | some n => frontHeaders (body.drop n) + 1
termination_by body.length
decreasing_by
  have hbounds := headerEnd_bounds h
  rw [List.length_drop]
  omega

theorem frontHeaders_some {body : List UInt8} {n : Nat} (h : headerEnd body = some n) :
    frontHeaders body = frontHeaders (body.drop n) + 1 := by
  rw [frontHeaders]
  split
  · next hnone =>
    rw [h] at hnone
    cases hnone
  · next m hm =>
    rw [h] at hm
    cases hm
    rfl

theorem frontHeaders_none {body : List UInt8} (h : headerEnd body = none) : frontHeaders body = 0 := by
  rw [frontHeaders]
  split
  · rfl
  · next m hm =>
    rw [h] at hm
    cases hm

/-- A header is recognised, whatever follows it. -/
theorem headerEnd_bytes (h : ReplyHeader) (rest : List UInt8) :
    headerEnd (h.bytes ++ rest) = some h.bytes.length := by
  have hlength : h.bytes.length = 8 + h.content.length := by
    simp [ReplyHeader.bytes]
    omega
  have hfield : FieldAt ([] ++ (h.bytes ++ rest)) 0 h.bytes := FieldAt.of_append rfl
  obtain ⟨hmarker, hrest⟩ := FieldAt.append hfield
  have hlen : (leUInt32 (h.bytes ++ rest) 4).toNat = h.content.length :=
    hrest.append.1.leUInt32 (Nat.lt_of_le_of_lt h.short (by decide))
  have hshort := h.short
  have hfits : 8 + h.content.length ≤ (h.bytes ++ rest).length := by
    rw [List.length_append]
    omega
  rw [List.nil_append] at hmarker
  rw [headerEnd, toInt32_of_intBytes hmarker, hlen, hlength]
  exact if_pos ⟨by omega, h.known, hshort, hfits⟩

/-- A header at the front is skipped. -/
theorem readExceptionCodeLoop_header {body : List UInt8} {e : Nat} (n : Nat) (h : headerEnd body = some e) :
    readExceptionCodeLoop (n + 1) { array := body } = readExceptionCodeLoop n { array := body, position := e } := by
  rw [headerEnd] at h
  split at h
  · next hheader =>
    obtain ⟨hsize, hmarker, hlen, hfits⟩ := hheader
    cases h
    have hvalue := toInt_toInt32_of_lt (show (leUInt32 body 4).toNat < 2 ^ 31 by omega)
    have hlegal : ¬ ((leUInt32 body 4).toInt32 < 0 ∨ (leUInt32 body 4).toInt32 > maxReplyHeaderBytes) := by
      rw [gt_iff_lt, Int32.lt_iff_toInt_lt, Int32.lt_iff_toInt_lt, hvalue]
      show ¬ (((leUInt32 body 4).toNat : Int) < 0 ∨ (65536 : Int) < (leUInt32 body 4).toNat)
      omega
    have hcode : ¬ ((leUInt32 body 0).toInt32 ≠ exHasStrictmodeReplyHeader ∧
        (leUInt32 body 0).toInt32 ≠ exHasNotedAppopsReplyHeader) := by tauto
    rw [readExceptionCodeLoop, bind_ok remaining_ok, if_neg (by omega), bind_ok (getIntLe_ok (by omega)),
      if_neg hcode, bind_ok remaining_ok, if_neg (by omega), bind_ok (getIntLe_ok (by omega)), if_neg hlegal,
      bind_ok remaining_ok, hvalue, Int.toNat_natCast, if_neg (by omega), bind_ok (skip_ok (by omega))]
  · cases h

/-- Where there is no header, the number of those that may be skipped does not matter. -/
theorem readExceptionCodeLoop_end {body : List UInt8} (n m : Nat) (h : headerEnd body = none) :
    readExceptionCodeLoop (n + 1) { array := body } = readExceptionCodeLoop (m + 1) { array := body } := by
  rw [headerEnd] at h
  split at h
  · cases h
  next hheader =>
  rw [readExceptionCodeLoop, readExceptionCodeLoop, bind_ok remaining_ok, bind_ok remaining_ok]
  split
  · rfl
  next hfour =>
  rw [bind_ok (getIntLe_ok (by omega)), bind_ok (getIntLe_ok (by omega))]
  split
  · rfl
  next hcode =>
  rw [bind_ok remaining_ok, bind_ok remaining_ok]
  split
  · rfl
  next height =>
  rw [bind_ok (getIntLe_ok (by omega)), bind_ok (getIntLe_ok (by omega))]
  split
  · rfl
  next hlegal =>
  rw [bind_ok remaining_ok, bind_ok remaining_ok]
  split
  · rfl
  next hfits =>
  -- all checks have passed: there is a header after all
  exfalso
  apply hheader
  have hvalue : (leUInt32 body 4).toInt32.toInt.toNat = (leUInt32 body 4).toNat ∧
      (leUInt32 body 4).toNat ≤ 65536 := by
    rw [Nat.zero_add, gt_iff_lt, Int32.lt_iff_toInt_lt, Int32.lt_iff_toInt_lt, toInt_toInt32] at hlegal
    change ¬ (_ < (0 : Int) ∨ (65536 : Int) < _) at hlegal
    have hlt := (leUInt32 body 4).toNat_lt
    rw [toInt_toInt32]
    split at hlegal <;> split <;> omega
  rw [Nat.zero_add, hvalue.1] at hfits
  exact ⟨by omega, by tauto, hvalue.2, by omega⟩

/-- As long as there is one read more than headers, the number of reads does not matter. -/
theorem readExceptionCodeLoop_enough {body : List UInt8} {n m : Nat} (hn : frontHeaders body < n)
    (hm : frontHeaders body < m) :
    readExceptionCodeLoop n { array := body } = readExceptionCodeLoop m { array := body } := by
  induction n generalizing m body with
  | zero => omega
  | succ n ih =>
    obtain ⟨m, rfl⟩ : ∃ k, m = k + 1 := ⟨m - 1, by omega⟩
    cases h : headerEnd body with
    | none => exact readExceptionCodeLoop_end n m h
    | some e =>
      rw [frontHeaders_some h] at hn hm
      obtain ⟨-, he⟩ := headerEnd_bounds h
      have hrest : ({ array := body, position := e } : ByteBuffer) =
          relocate (body.take e) { array := body.drop e } := by
        simp [relocate, List.take_append_drop, Nat.min_eq_left he]
      rw [readExceptionCodeLoop_header n h, readExceptionCodeLoop_header m h, hrest,
        relocatable_readExceptionCodeLoop n, relocatable_readExceptionCodeLoop m,
        ih (Nat.lt_of_succ_lt_succ hn) (Nat.lt_of_succ_lt_succ hm)]

theorem relocate_append (front more : List UInt8) (b : ByteBuffer) :
    b.relocate (front ++ more) = (b.relocate more).relocate front := by
  simp [relocate, Nat.add_assoc]

/-- Headers in front of a parcel are skipped, one read for each. -/
theorem readExceptionCodeLoop_headers (headers : List ReplyHeader) (body : List UInt8) (n : Nat) :
    readExceptionCodeLoop (n + headers.length) { array := headers.flatMap ReplyHeader.bytes ++ body } =
      readExceptionCodeLoop n (relocate (headers.flatMap ReplyHeader.bytes) { array := body }) := by
  induction headers with
  | nil => rw [List.flatMap_nil, relocate_nil]; rfl
  | cons h headers ih =>
    have hskip : ({ array := h.bytes ++ (headers.flatMap ReplyHeader.bytes ++ body)
                    position := h.bytes.length } : ByteBuffer) =
        relocate h.bytes { array := headers.flatMap ReplyHeader.bytes ++ body } := by
      simp [relocate]
    rw [List.flatMap_cons, List.append_assoc, List.length_cons, ← Nat.add_assoc,
      readExceptionCodeLoop_header _ (headerEnd_bytes h _), hskip, relocatable_readExceptionCodeLoop _,
      ih, relocate_append, relocatable_readExceptionCodeLoop n h.bytes]

/-- The first check of the parser is one that reading the code makes again. -/
theorem decodeJavaAidlReply_eq (decodeUtf16 : List UInt16 → String) (parcel : List UInt8)
    (returnType : Option String) :
    decodeJavaAidlReply decodeUtf16 parcel returnType =
      (readParcel decodeUtf16 parcel returnType).run' { array := parcel } := by
  unfold decodeJavaAidlReply
  split
  · next hshort =>
    have hcode : readExceptionCode { array := parcel } = .ok (none, { array := parcel }) := by
      rw [readExceptionCode, readExceptionCodeLoop, bind_ok remaining_ok, if_pos (by omega)]
      rfl
    rw [StateT.run', readParcel, bind_ok hcode]
    rfl
  · rfl

/-- **Headers in front of a reply change neither its exception nor its value.** -/
theorem decodeJavaAidlReply_headers (decodeUtf16 : List UInt16 → String) (headers : List ReplyHeader)
    (body : List UInt8) (returnType : Option String) (hfew : headers.length + frontHeaders body ≤ 3) :
    ∃ r r', decodeJavaAidlReply decodeUtf16 body returnType = .ok r ∧
      decodeJavaAidlReply decodeUtf16 (headers.flatMap ReplyHeader.bytes ++ body) returnType = .ok r' ∧
      SameReply r r' := by
  let front := headers.flatMap ReplyHeader.bytes
  obtain ⟨code, b, hcode, hb, -⟩ := yields_readExceptionCodeLoop 4 { array := body } (Nat.zero_le _)
  have hcode' : readExceptionCode { array := front ++ body } = .ok (code, b.relocate front) := by
    have hskip := readExceptionCodeLoop_headers headers body (4 - headers.length)
    rw [show 4 - headers.length + headers.length = 4 by omega, relocatable_readExceptionCodeLoop,
      readExceptionCodeLoop_enough (by omega : frontHeaders body < 4 - headers.length)
        (by omega : frontHeaders body < 4), hcode] at hskip
    exact hskip
  rw [decodeJavaAidlReply_eq, decodeJavaAidlReply_eq, StateT.run', StateT.run', readParcel, readParcel,
    bind_ok (show readExceptionCode { array := body } = _ from hcode), bind_ok hcode']
  cases code with
  | none => exact ⟨_, _, rfl, rfl, rfl, rfl⟩
  | some code =>
    obtain ⟨r, b₁, hr, -⟩ := yields_readReply decodeUtf16 body returnType code b hb
    have hmoved := relocatable_readReply decodeUtf16 body returnType code front b
    rw [hr] at hmoved
    obtain ⟨r', hr', hsame⟩ :=
      agree_readReply decodeUtf16 body (front ++ body) returnType code _ _ _ hmoved
    refine ⟨r, r', ?_, ?_, hsame⟩
    · simp only [hr]
      rfl
    · exact congrArg ((fun x => x.1) <$> ·) hr'

/-- **Decoding is total and headers are transparent**: the parser returns on every byte string and sets at
most one field, none only for a method without a result and the code 0; and headers in front of a reply, up
to three with those that it already has, change neither its exception nor its value. -/
theorem reply_decoding_total_and_transparent (decodeUtf16 : List UInt16 → String) :
    (∀ (parcel : List UInt8) (returnType : Option String),
      ∃ r, decodeJavaAidlReply decodeUtf16 parcel returnType = .ok r ∧ AtMostOneSet r ∧
        (NoneSet r → returnType.map canonicalReturnType = some "void" ∧
          exceptionCodeOf parcel = .ok (some 0))) ∧
    ∀ (headers : List ReplyHeader) (body : List UInt8) (returnType : Option String),
      headers.length + frontHeaders body ≤ 3 →
      ∃ r r', decodeJavaAidlReply decodeUtf16 body returnType = .ok r ∧
        decodeJavaAidlReply decodeUtf16 (headers.flatMap ReplyHeader.bytes ++ body) returnType = .ok r' ∧
        r'.exception = r.exception ∧ r'.value = r.value :=
  ⟨decodeJavaAidlReply_returns decodeUtf16, decodeJavaAidlReply_headers decodeUtf16⟩

/-- A StrictMode header and a reply that begins with one of AppOps. -/
theorem reply_decoding_two_headers :
    let strictMode : ReplyHeader := ⟨-128, [0xAA, 0xBB], .inl rfl, by decide⟩
    let body : List UInt8 := [0x81, 0xFF, 0xFF, 0xFF, 1, 0, 0, 0, 7] ++ [0, 0, 0, 0, 99, 0, 0, 0]
    ∃ r, decodeJavaAidlReply nameText (strictMode.bytes ++ body) (some "int") = .ok r ∧ r.value = some "99" := by
  intro strictMode body
  have hend : headerEnd body = some 9 := by decide
  have hrest : frontHeaders (body.drop 9) = 0 := frontHeaders_none (by decide)
  have hfew : [strictMode].length + frontHeaders body ≤ 3 := by
    rw [frontHeaders_some hend, hrest]
    decide
  obtain ⟨r, r', hr, hr', -, hvalue⟩ :=
    (reply_decoding_total_and_transparent nameText).2 [strictMode] body (some "int") hfew
  have hbody : decodeJavaAidlReply nameText body (some "int") = .ok (valueResult "99") := by decide +kernel
  rw [hbody] at hr
  cases hr
  rw [List.flatMap_cons, List.flatMap_nil, List.append_nil] at hr'
  exact ⟨r', hr', hvalue⟩

/-! ### Exceptions -/

/-- A message in a parcel. -/
def messageBytes : Option (List UInt16) → List UInt8
  | none => intBytes (-1)
  | some units => string16 units

/-- A reply with an exception: its code, the message and, for an `EX_SERVICE_SPECIFIC`, the error code. -/
def exceptionParcel (code : Int32) (message : Option (List UInt16)) (errorCode : Int32) : List UInt8 :=
  intBytes code ++ (messageBytes message ++ if code = exServiceSpecific then intBytes errorCode else [])

/-- The summary with this tag, this message and this error code. -/
def summaryOf (decodeUtf16 : List UInt16 → String) (code : Int32) (tag : String)
    (message : Option (List UInt16)) (errorCode : Int32) : String :=
  if code = exServiceSpecific then serviceSpecificSummary decodeUtf16 (some errorCode) message
  else exceptionSummary decodeUtf16 tag message

/-- The bytes of a message that the parser reads. -/
def messageRead : Option (List UInt16) → Nat
  | none => 4
  | some units => 4 + (units.length * 2 + 2)

theorem readChars_ok {array : List UInt8} {p n : Nat} (h : p + n * 2 ≤ array.length) :
    readChars n { array, position := p } = .ok (unitsAt array p n, { array, position := p + n * 2 }) := by
  induction n generalizing p with
  | zero => rfl
  | succ n ih =>
    have hrest := @ih (p + 2) (by omega)
    rw [readChars, bind_ok (getShortLe_ok (by omega)), bind_ok hrest, unitsAt_succ,
      show p + (n + 1) * 2 = p + 2 + n * 2 by omega]
    rfl

theorem readUtf16String_null {array : List UInt8} {p : Nat} (hfits : p + 4 ≤ array.length)
    (hlen : (leUInt32 array p).toInt32 = -1) :
    readUtf16String { array, position := p } = .ok (.nullValue, { array, position := p + 4 }) := by
  rw [readUtf16String, bind_ok remaining_ok, if_neg (by omega), bind_ok (getIntLe_ok hfits), if_pos hlen]
  rfl

/-- A string is read up to its NUL. -/
theorem readUtf16String_units {array : List UInt8} {p : Nat} {units : List UInt16}
    (hle : units.length ≤ 4096) (h : String16At array p units) :
    readUtf16String { array, position := p } =
      .ok (.success units, { array, position := p + (4 + (units.length * 2 + 2)) }) := by
  have hfits := h.fits
  have hlen : (leUInt32 array p).toInt32.toInt = units.length := by
    rw [toInt_toInt32, h.word, if_pos (by omega)]
  have hnull : ¬ (leUInt32 array p).toInt32 = -1 := by
    intro heq
    rw [heq] at hlen
    change (-1 : Int) = _ at hlen
    omega
  have hnegative : ¬ (leUInt32 array p).toInt32 < 0 := by
    rw [Int32.lt_iff_toInt_lt, hlen]
    show ¬ (units.length : Int) < 0
    omega
  have hlarge : ¬ (leUInt32 array p).toInt32 > 4096 := by
    rw [gt_iff_lt, Int32.lt_iff_toInt_lt, hlen]
    show ¬ (4096 : Int) < units.length
    omega
  have hchars : readChars units.length { array, position := p + 4 } =
      .ok (units, { array, position := p + 4 + units.length * 2 }) := by
    have hread := readChars_ok (show p + 4 + units.length * 2 ≤ array.length by omega)
    rwa [h.units] at hread
  rw [readUtf16String, bind_ok remaining_ok, if_neg (by omega), bind_ok (getIntLe_ok (by omega)), if_neg hnull,
    if_neg hnegative, if_neg hlarge, bind_ok remaining_ok, hlen, Int.toNat_natCast, if_neg (by omega),
    bind_ok hchars, bind_ok (getShortLe_ok (by omega)),
    show p + 4 + units.length * 2 + 2 = p + (4 + (units.length * 2 + 2)) by omega]
  rfl

/-- The message is read back, from its length to the NUL. -/
theorem readMessage_ok {array : List UInt8} {p : Nat} {message : Option (List UInt16)}
    (hshort : ∀ units, message = some units → units.length ≤ 4096)
    (h : FieldAt array p (messageBytes message)) :
    readMessage { array, position := p } = .ok (message, { array, position := p + messageRead message }) := by
  cases message with
  | none =>
    have hfits := h.le (by simp [messageBytes, intBytes, leBytes])
    rw [messageBytes, length_intBytes] at hfits
    rw [readMessage, bind_ok remaining_ok, if_neg (by omega), readMessageField,
      bind_ok (readUtf16String_null hfits (toInt32_of_intBytes h))]
    rfl
  | some units =>
    have hle := hshort units rfl
    have hstring : String16At array p units := String16At.of_fieldAt (by omega) h
    have hfits := hstring.fits
    rw [readMessage, bind_ok remaining_ok, if_neg (by omega), readMessageField,
      bind_ok (readUtf16String_units hle hstring)]
    rfl

/-- What is read two bytes before an error code: its lower half, as the upper one. -/
def shiftedErrorCode (errorCode : Int32) : Int32 :=
  (UInt32.ofNat (65536 * (errorCode.toUInt32.toNat % 65536))).toInt32

/-- The error code that is read after the message. -/
def errorCodeRead (message : Option (List UInt16)) (errorCode : Int32) : Int32 :=
  match message with
  | none => errorCode
  | some units => if units.length % 2 = 0 then shiftedErrorCode errorCode else errorCode

theorem readErrorCode_ok {array : List UInt8} {p : Nat} (hfits : p + 4 ≤ array.length) :
    readErrorCode { array, position := p } =
      .ok (some (leUInt32 array p).toInt32, { array, position := p + 4 }) := by
  rw [readErrorCode, bind_ok remaining_ok, if_neg (by omega), bind_ok (getIntLe_ok hfits)]
  rfl

/-- The padding of a message with an even number of characters is read with the error code. -/
theorem leUInt32_padding {array : List UInt8} {p : Nat} {errorCode : Int32}
    (h : FieldAt array p ([0, 0] ++ intBytes errorCode)) :
    (leUInt32 array p).toInt32 = shiftedErrorCode errorCode := by
  have hfits := h.le (by simp)
  rw [List.length_append, length_intBytes] at hfits
  change p + (2 + 4) ≤ array.length at hfits
  obtain ⟨hpad, herror⟩ := FieldAt.append h
  have hzero : leUInt16 array p = (0 : UInt16) := FieldAt.leUInt16 hpad
  have hword := leUInt32_eq_units (show p + 2 ≤ array.length by omega)
  have hnext := leUInt32_eq_units (show p + 2 + 2 ≤ array.length by omega)
  rw [hzero] at hword
  rw [FieldAt.leUInt32 (UInt32.toNat_lt _) (show FieldAt array (p + 2) (intBytes errorCode) from herror)] at hnext
  have hlow := (leUInt16 array (p + 2)).toNat_lt
  rw [shiftedErrorCode]
  refine congrArg UInt32.toInt32 (UInt32.toNat_inj.1 ?_)
  rw [UInt32.toNat_ofNat', hword]
  change 0 + _ = _
  omega

/-- The error code as it is found after the message. -/
theorem errorCodeRead_eq {message : Option (List UInt16)} {errorCode : Int32} {array : List UInt8} {p : Nat}
    (h : FieldAt array p (messageBytes message ++ intBytes errorCode)) :
    p + messageRead message + 4 ≤ array.length ∧
      (leUInt32 array (p + messageRead message)).toInt32 = errorCodeRead message errorCode := by
  have hfits := h.le (by cases message <;> simp [messageBytes, intBytes, leBytes, string16])
  rw [List.length_append, length_intBytes] at hfits
  cases message with
  | none =>
    rw [messageBytes, length_intBytes] at hfits
    have herror := (FieldAt.append h).2
    rw [messageBytes, length_intBytes] at herror
    exact ⟨by simp only [messageRead]; omega, toInt32_of_intBytes herror⟩
  | some units =>
    rw [messageBytes, length_string16] at hfits
    simp only [messageRead, errorCodeRead]
    rw [padTo4] at hfits
    refine ⟨by omega, ?_⟩
    split
    · next heven =>
      have htail : string16Tail units.length = [0, 0] ++ [0, 0] := by
        rw [string16Tail, padTo4, show ((units.length + 1) * 2 + 3) / 4 * 4 - units.length * 2 = 4 by omega]
        rfl
      rw [messageBytes, string16, htail, ← List.append_assoc, ← List.append_assoc, List.append_assoc _ [0, 0]] at h
      have hend := (FieldAt.append h).2
      simp only [List.length_append, length_leBytes, length_unitBytes, List.length_cons, List.length_nil] at hend
      apply leUInt32_padding
      rwa [show 4 + (units.length * 2 + 2) = 4 + units.length * 2 + (0 + 1 + 1) by omega]
    · next hodd =>
      have herror := (FieldAt.append h).2
      rw [messageBytes, length_string16, padTo4] at herror
      apply toInt32_of_intBytes
      rwa [show 4 + (units.length * 2 + 2) = 4 + ((units.length + 1) * 2 + 3) / 4 * 4 by omega]

/-- None of the known codes is 0 or announces a header. -/
theorem exceptionTag_known {code : Int32} {tag : String} (h : exceptionTag code = some tag) :
    code ≠ 0 ∧ code ≠ exHasStrictmodeReplyHeader ∧ code ≠ exHasNotedAppopsReplyHeader := by
  refine ⟨?_, ?_, ?_⟩ <;> (rintro rfl; exact nomatch h)

/-- What is decoded of a reply with an exception: everything but, sometimes, the error code. -/
theorem decode_exceptionParcel (decodeUtf16 : List UInt16 → String) {code : Int32} {tag : String}
    {message : Option (List UInt16)} (errorCode : Int32) (returnType : Option String)
    (htag : exceptionTag code = some tag)
    (hshort : ∀ units, message = some units → units.length ≤ 4096) :
    decodeJavaAidlReply decodeUtf16 (exceptionParcel code message errorCode) returnType =
      .ok { exception := some (summaryOf decodeUtf16 code tag message (errorCodeRead message errorCode))
            value := none, rawHexHint := none } := by
  generalize hparcel : exceptionParcel code message errorCode = parcel
  have hfield : FieldAt parcel 0 (exceptionParcel code message errorCode) := by
    rw [hparcel]
    exact FieldAt.self parcel
  obtain ⟨hcode, hrest⟩ := FieldAt.append hfield
  rw [length_intBytes, Nat.zero_add] at hrest
  obtain ⟨hnonzero, hstrict, happops⟩ := exceptionTag_known htag
  have hfits := hcode.le (by simp [intBytes, leBytes])
  rw [length_intBytes] at hfits
  have hread : readExceptionCode { array := parcel } = .ok (some code, { array := parcel, position := 4 }) := by
    rw [readExceptionCode, readExceptionCodeLoop, bind_ok remaining_ok, if_neg (by omega),
      bind_ok (getIntLe_ok (by omega)), toInt32_of_intBytes hcode, if_pos ⟨hstrict, happops⟩]
    rfl
  have hmessage := readMessage_ok hshort hrest.append.1
  have hsummary : ∃ b, decodeException decodeUtf16 code { array := parcel, position := 4 } =
      .ok (some (summaryOf decodeUtf16 code tag message (errorCodeRead message errorCode)), b) := by
    rw [decodeException, htag]
    simp only
    rw [bind_ok hmessage, summaryOf]
    split
    · next hservice =>
      rw [if_pos hservice] at hrest
      obtain ⟨hroom, herror⟩ := errorCodeRead_eq hrest
      rw [bind_ok (readErrorCode_ok hroom), herror]
      exact ⟨_, rfl⟩
    · exact ⟨_, rfl⟩
  obtain ⟨b, hsummary⟩ := hsummary
  rw [decodeJavaAidlReply_eq, StateT.run', readParcel, bind_ok hread]
  simp only
  rw [readReply, if_pos hnonzero, bind_ok hsummary]
  rfl

/-- The error code stands where it is read: there is none, the message is null or has an odd number of
characters, or the code is 0 like the padding. -/
def ErrorCodeInPlace (code : Int32) (message : Option (List UInt16)) (errorCode : Int32) : Prop :=
  code ≠ exServiceSpecific ∨ errorCode = 0 ∨ ∀ units, message = some units → units.length % 2 = 1

/-- Only 0 is read two bytes early as what it is. -/
theorem shiftedErrorCode_eq_self {errorCode : Int32} : shiftedErrorCode errorCode = errorCode ↔ errorCode = 0 := by
  refine ⟨fun h => ?_, fun h => by rw [h]; rfl⟩
  have hword := congrArg (fun x => x.toUInt32.toNat) h
  simp only [shiftedErrorCode, UInt32.toUInt32_toInt32, UInt32.toNat_ofNat'] at hword
  have hlt := errorCode.toUInt32.toNat_lt
  have hzero : errorCode.toUInt32 = 0 := UInt32.toNat_inj.1 (show errorCode.toUInt32.toNat = 0 by omega)
  exact congrArg UInt32.toInt32 hzero

theorem errorCodeRead_eq_self {message : Option (List UInt16)} {errorCode : Int32} :
    errorCodeRead message errorCode = errorCode ↔
      errorCode = 0 ∨ ∀ units, message = some units → units.length % 2 = 1 := by
  cases message with
  | none => simp [errorCodeRead]
  | some units =>
    rw [errorCodeRead]
    simp only [Option.some.injEq, forall_eq']
    split
    · next heven => rw [shiftedErrorCode_eq_self, heven, or_iff_left (by decide)]
    · next hodd => exact iff_of_true rfl (.inr (by omega))

/-- The error code can be told from the summary. -/
theorem serviceSpecificSummary_inj (decodeUtf16 : List UInt16 → String) {a b : Int32}
    {message : Option (List UInt16)} (h : serviceSpecificSummary decodeUtf16 (some a) message =
      serviceSpecificSummary decodeUtf16 (some b) message) : a = b := by
  have htext : "ServiceSpecificException(" ++ toString a.toInt = "ServiceSpecificException(" ++ toString b.toInt := by
    cases message with
    | none => exact (String.append_left_inj _).1 h
    | some units => exact (String.append_left_inj _).1 ((String.append_left_inj _).1 h)
  exact Int32.toInt_inj.1 (toString_int_injective ((String.append_right_inj _).1 htext))

theorem summaryOf_errorCodeRead (decodeUtf16 : List UInt16 → String) {code : Int32} (tag : String)
    {message : Option (List UInt16)} {errorCode : Int32} :
    summaryOf decodeUtf16 code tag message (errorCodeRead message errorCode) =
      summaryOf decodeUtf16 code tag message errorCode ↔ ErrorCodeInPlace code message errorCode := by
  unfold summaryOf ErrorCodeInPlace
  rw [← errorCodeRead_eq_self]
  split
  · next hservice =>
    rw [or_iff_right (not_not.2 hservice)]
    exact ⟨serviceSpecificSummary_inj decodeUtf16, fun h => by rw [h]⟩
  · next hother => exact iff_of_true rfl (.inl hother)

/-- **Exceptions are decoded back** exactly where the error code is in its place. -/
theorem exceptions_decoded_back_iff (decodeUtf16 : List UInt16 → String) (code : Int32) (tag : String)
    (message : Option (List UInt16)) (errorCode : Int32) (returnType : Option String)
    (htag : exceptionTag code = some tag)
    (hshort : ∀ units, message = some units → units.length ≤ 4096) :
    decodeJavaAidlReply decodeUtf16 (exceptionParcel code message errorCode) returnType =
        .ok { exception := some (summaryOf decodeUtf16 code tag message errorCode)
              value := none, rawHexHint := none } ↔
      ErrorCodeInPlace code message errorCode := by
  rw [decode_exceptionParcel decodeUtf16 errorCode returnType htag hshort,
    ← summaryOf_errorCodeRead decodeUtf16 tag, Except.ok.injEq, ReplyDecodeResult.mk.injEq, Option.some.injEq,
    and_iff_left ⟨rfl, rfl⟩]

/-- An error code after the message `bad`. -/
theorem exceptions_decoded_back_odd :
    decodeJavaAidlReply nameText (exceptionParcel (-8) (some [0x62, 0x61, 0x64]) 42) none =
      .ok { exception := some "ServiceSpecificException(42): bad", value := none, rawHexHint := none } := by
  refine ((exceptions_decoded_back_iff nameText (-8) "ServiceSpecificException" (some [0x62, 0x61, 0x64]) 42 none
    (by decide) ?_).2 ?_).trans (by decide +kernel)
  · rintro units ⟨⟩
    decide
  · refine .inr (.inr ?_)
    rintro units ⟨⟩
    decide

/-- The error code 42 after the message `no` is read as `42 * 65536`. -/
theorem errorCode_read_early :
    decodeJavaAidlReply nameText (exceptionParcel (-8) (some [0x6E, 0x6F]) 42) none =
        .ok { exception := some "ServiceSpecificException(2752512): no", value := none, rawHexHint := none } ∧
      summaryOf nameText (-8) "ServiceSpecificException" (some [0x6E, 0x6F]) 42 =
        "ServiceSpecificException(42): no" := by
  constructor
  · decide +kernel
  · decide +kernel

end ReplyParser

end BinderTracer.App
