import BinderTracer.Daemon.EventEncoding
import BinderTracer.App.SocketServer
import BinderTracer.Lib.SignedWords

/-!
# Acknowledgements on both sides

`AckPayload.Encode` and `DecodeAck` of the daemon's `protocol.go`, against `parseAckMessage` of the app. The length
of the message is an unsigned word for the daemon and a signed one for the app, which adds 5 to it before it
compares it with the size of the payload. The sum of the five largest positive lengths wraps around to a negative
number, passes the comparison, and `String` throws; on every other payload the two sides agree.
-/

namespace BinderTracer.Daemon

open BinderTracer.Lib

/-- `AckPayload`. -/
structure AckPayload where
  success : Bool
  message : Bytes
deriving DecidableEq, Repr

/-- `AckPayload.Encode`. -/
def AckPayload.encode (p : AckPayload) : Bytes :=
  (if p.success then 1 else 0) :: (putUint32 (UInt32.ofNat p.message.length) ++ p.message)

/-- `DecodeAck`, which gives nothing for `ErrInvalidFrame`. The sum is one of `int`s in the comparison and one of
32-bit words in the bound of the slice. -/
def decodeAck (data : Bytes) : Except GoPanic (Option AckPayload) := do
  if data.length < 5 then return none
  let success := (← index data 0) = 1
  let msgLen ← uint32 data 1
  if data.length < 5 + msgLen.toNat then return none
  let message ← subslice data 5 (5 + msgLen).toNat
  return some { success, message }

theorem decodeAck_short {data : Bytes} (h : data.length < 5) : decodeAck data = .ok none := by
  rw [decodeAck, if_pos h]
  rfl

/-- A message that runs past the end is rejected. -/
theorem decodeAck_beyond {data : Bytes} (h5 : 5 ≤ data.length)
    (hbeyond : data.length < 5 + (beUInt32 data 1).toNat) : decodeAck data = .ok none := by
  rw [decodeAck, if_neg (by omega), index_ok (by omega), uint32_ok (by omega)]
  simp only [bind, Except.bind, pure, Except.pure, if_pos hbeyond]

/-- A message that lies in the data is taken from it: the bound of the slice does not wrap around. -/
theorem decodeAck_within {data : Bytes} (hsize : data.length < 2 ^ 32)
    (hwithin : 5 + (beUInt32 data 1).toNat ≤ data.length) :
    decodeAck data = .ok (some
      { success := byteAt data 0 = 1, message := slice data 5 (beUInt32 data 1).toNat }) := by
  have hsum : (5 + beUInt32 data 1).toNat = 5 + (beUInt32 data 1).toNat := by
    rw [UInt32.toNat_add]
    exact Nat.mod_eq_of_lt (by change 5 + _ < _; omega)
  have hfits : ¬data.length < 5 + (beUInt32 data 1).toNat := by omega
  rw [decodeAck, if_neg (by omega), index_ok (by omega), uint32_ok (by omega)]
  simp only [bind, Except.bind, pure, Except.pure, if_neg hfits, hsum, subslice_ok hwithin]

/-- The fields of an encoded acknowledgement. -/
theorem AckPayload.fieldAt_encode (p : AckPayload) :
    p.encode.length = 5 + p.message.length ∧
      FieldAt p.encode 1 (beBytes 4 (UInt32.ofNat p.message.length).toNat) ∧
      FieldAt p.encode 5 p.message := by
  rw [AckPayload.encode, putUint32]
  refine ⟨by rw [List.length_cons, List.length_append, length_beBytes]; omega, ?_, ?_⟩
  · exact @FieldAt.of_append [_] _ _ 1 rfl
  · have h := @FieldAt.of_append
      ((if p.success then 1 else 0) :: beBytes 4 (UInt32.ofNat p.message.length).toNat) p.message [] 5
      (by rw [List.length_cons, length_beBytes])
    rwa [List.append_nil] at h

end BinderTracer.Daemon

namespace BinderTracer.App.SocketClient

open BinderTracer.Lib

/-- The text that `DecodeAck` makes of a payload, and the empty one where it rejects it. -/
def ackMessage (decodeUtf8 : List UInt8 → String) (payload : List UInt8) : Except Daemon.GoPanic String :=
  (Daemon.decodeAck payload).map fun ack => ack.elim "" fun p => decodeUtf8 p.message

/-- The length of the message is one of the five to which 5 cannot be added. -/
def LengthWraps (payload : List UInt8) : Prop :=
  5 ≤ payload.length ∧ 2 ^ 31 - 5 ≤ (beUInt32 payload 1).toNat ∧ (beUInt32 payload 1).toNat < 2 ^ 31

instance (payload : List UInt8) : Decidable (LengthWraps payload) := by unfold LengthWraps; infer_instance

section
variable {payload : List UInt8} {decodeUtf8 : List UInt8 → String}

/-- A length that is no positive `Int`: there is no message. -/
theorem parseAckMessage_none (h : (beUInt32 payload 1).toNat = 0 ∨ 2 ^ 31 ≤ (beUInt32 payload 1).toNat) :
    parseAckMessage decodeUtf8 payload = .ok "" := by
  have hle : (beUInt32 payload 1).toInt32 ≤ 0 := by
    have hlt := (beUInt32 payload 1).toNat_lt
    rw [Int32.le_iff_toInt_le, toInt_toInt32, Int32.toInt_zero]
    split <;> omega
  rw [parseAckMessage]
  split
  · rfl
  · exact if_pos (.inl hle)

/-- The comparison of a positive length, where the sum does not wrap around. -/
theorem parseAckMessage_some (hsize : payload.length < 2 ^ 31) (h5 : 5 ≤ payload.length)
    (hpos : 0 < (beUInt32 payload 1).toNat) (hlt : 5 + (beUInt32 payload 1).toNat < 2 ^ 31) :
    parseAckMessage decodeUtf8 payload =
      if payload.length < 5 + (beUInt32 payload 1).toNat then .ok ""
      else .ok (decodeUtf8 (slice payload 5 (beUInt32 payload 1).toNat)) := by
  have hlen := toInt_toInt32_of_lt (show (beUInt32 payload 1).toNat < 2 ^ 31 by omega)
  have hn : (Int32.ofNat payload.length).toInt = (payload.length : Int) :=
    Int32.toInt_ofNat_of_lt hsize
  have hsum := toInt_add_of_lt (a := 5) (m := 5) rfl hlen (by omega)
  have hcond : ((beUInt32 payload 1).toInt32 ≤ 0 ∨
      5 + (beUInt32 payload 1).toInt32 > Int32.ofNat payload.length) ↔
        payload.length < 5 + (beUInt32 payload 1).toNat := by
    rw [gt_iff_lt, lt_iff_of_toInt hn hsum, Int32.le_iff_toInt_le, hlen, Int32.toInt_zero]
    omega
  rw [parseAckMessage, if_neg (by omega)]
  simp only [hcond, hlen, Int.toNat_natCast]
  split
  · rfl
  · exact if_pos (by omega)

/-- The sum wraps around: the comparison lets the length pass and `String` throws. -/
theorem parseAckMessage_wraps (hsize : payload.length < 2 ^ 31 - 5) (h : LengthWraps payload) :
    parseAckMessage decodeUtf8 payload = .error .indexOutOfBounds := by
  obtain ⟨h5, hlow, hhigh⟩ := h
  have hlen := toInt_toInt32_of_lt (show (beUInt32 payload 1).toNat < 2 ^ 31 by omega)
  have hn : (Int32.ofNat payload.length).toInt = (payload.length : Int) :=
    Int32.toInt_ofNat_of_lt (by omega)
  have hsum := toInt_add_of_overflow (a := 5) (m := 5) rfl hlen (by omega)
  have hcond : ¬((beUInt32 payload 1).toInt32 ≤ 0 ∨
      5 + (beUInt32 payload 1).toInt32 > Int32.ofNat payload.length) := by
    rw [gt_iff_lt, Int32.lt_iff_toInt_lt, hn, hsum, Int32.le_iff_toInt_le, hlen, Int32.toInt_zero]
    omega
  rw [parseAckMessage, if_neg (by omega)]
  simp only [if_neg hcond, hlen]
  exact if_neg (by omega)

/-- **Where the sum does not wrap around, the app reads what the daemon reads.** -/
theorem parseAckMessage_agree (hempty : decodeUtf8 [] = "") (hsize : payload.length ≤ 1048576)
    (h : ¬LengthWraps payload) :
    ∃ text, ackMessage decodeUtf8 payload = .ok text ∧ parseAckMessage decodeUtf8 payload = .ok text := by
  rw [ackMessage]
  by_cases h5 : payload.length < 5
  · rw [Daemon.decodeAck_short h5, parseAckMessage, if_pos h5]
    exact ⟨"", rfl, rfl⟩
  by_cases hfits : payload.length < 5 + (beUInt32 payload 1).toNat
  · rw [Daemon.decodeAck_beyond (by omega) hfits]
    refine ⟨"", rfl, ?_⟩
    -- a length past the end is negative for the app, or the comparison rejects it
    by_cases hneg : 2 ^ 31 ≤ (beUInt32 payload 1).toNat
    · exact parseAckMessage_none (.inr hneg)
    · have hlt : 5 + (beUInt32 payload 1).toNat < 2 ^ 31 := by
        by_contra hge
        exact h ⟨by omega, by omega, by omega⟩
      rw [parseAckMessage_some (by omega) (by omega) (by omega) hlt, if_pos hfits]
  · rw [Daemon.decodeAck_within (by omega) (by omega)]
    refine ⟨decodeUtf8 (slice payload 5 (beUInt32 payload 1).toNat), rfl, ?_⟩
    rcases Nat.eq_zero_or_pos (beUInt32 payload 1).toNat with hzero | hpos
    · rw [parseAckMessage_none (.inl hzero), hzero, slice, List.take_zero, hempty]
    · rw [parseAckMessage_some (by omega) (by omega) hpos (by omega), if_neg hfits]

end

/-- The app reads the message of an encoded acknowledgement. -/
theorem parseAckMessage_encode {decodeUtf8 : List UInt8 → String} (hempty : decodeUtf8 [] = "")
    (p : Daemon.AckPayload) (hsize : p.message.length < 1048576) :
    parseAckMessage decodeUtf8 p.encode = .ok (decodeUtf8 p.message) := by
  obtain ⟨hlength, hfield, hmessage⟩ := p.fieldAt_encode
  have hcount : (beUInt32 p.encode 1).toNat = p.message.length := by
    rw [hfield.beUInt32]
    exact Nat.mod_eq_of_lt (by omega)
  rcases Nat.eq_zero_or_pos p.message.length with hzero | hpos
  · rw [parseAckMessage_none (.inl (hcount.trans hzero)), List.length_eq_zero_iff.1 hzero, hempty]
  · rw [parseAckMessage_some (by omega) (by omega) (by omega) (by omega), if_neg (by omega), hcount,
      hmessage]

/-- **Acknowledgements on both sides.** On a payload of at most 1 MiB the app reads without an exception the
message that the daemon's decoder reads, or none where that rejects the payload, exactly if the length of the
message is not one of those to which 5 cannot be added; and it reads the message of every encoded acknowledgement. -/
theorem parseAckMessage_agrees_iff (decodeUtf8 : List UInt8 → String) (hempty : decodeUtf8 [] = "") :
    (∀ payload : List UInt8, payload.length ≤ 1048576 →
      ((∃ text, ackMessage decodeUtf8 payload = .ok text ∧ parseAckMessage decodeUtf8 payload = .ok text) ↔
        ¬LengthWraps payload)) ∧
      ∀ p : Daemon.AckPayload, p.message.length < 1048576 →
        parseAckMessage decodeUtf8 p.encode = .ok (decodeUtf8 p.message) := by
  refine ⟨fun payload hsize => ⟨fun hagree hwraps => ?_, parseAckMessage_agree hempty hsize⟩,
    parseAckMessage_encode hempty⟩
  obtain ⟨text, -, happ⟩ := hagree
  rw [parseAckMessage_wraps (by omega) hwraps] at happ
  contradiction

theorem parseAckMessage_agrees_iff_ascii :
    decodeAscii [] = "" ∧
      (∃ text, ackMessage decodeAscii [1, 0, 0, 0, 9] = .ok text ∧
        parseAckMessage decodeAscii [1, 0, 0, 0, 9] = .ok text) ∧
      parseAckMessage decodeAscii (Daemon.AckPayload.encode { success := true, message := [111, 107] }) =
        .ok (decodeAscii [111, 107]) := by
  obtain ⟨hagree, hencode⟩ := parseAckMessage_agrees_iff decodeAscii rfl
  exact ⟨rfl, (hagree _ (by decide)).2 (by decide), hencode _ (by decide)⟩

/-- Five bytes with the largest positive length: the daemon's decoder rejects them and the app's throws. -/
theorem parseAckMessage_throws :
    ackMessage decodeAscii [1, 0x7F, 0xFF, 0xFF, 0xFF] = .ok "" ∧
      parseAckMessage decodeAscii [1, 0x7F, 0xFF, 0xFF, 0xFF] = .error .indexOutOfBounds := by
  refine ⟨?_, parseAckMessage_wraps (by decide) (by decide)⟩
  rw [ackMessage, Daemon.decodeAck_beyond (by decide) (by decide)]
  rfl

end BinderTracer.App.SocketClient
