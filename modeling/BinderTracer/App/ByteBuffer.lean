import BinderTracer.Lib.ByteOrder

/-!
# `java.nio.ByteBuffer`

What the app uses of it: a byte array, and a position from which values are read, in big endian order for
what the daemon sends and in little endian order for what is in a parcel.
Kotlin's `Int` and `Long` are `Int32` and `Int64`; a `Byte` is kept as an unsigned byte, since it is
only compared for equality or masked with `0xff`.
-/

namespace BinderTracer.App

open BinderTracer.Lib

/-- What the modelled functions may throw. -/
inductive Throwable where
  | bufferUnderflow
  | arrayIndexOutOfBounds
  | indexOutOfBounds
  | illegalArgument
deriving DecidableEq, Repr

/-- A buffer over `array`, to be read from `position` on. -/
structure ByteBuffer where
  array : List UInt8
  position : Nat := 0

/-- A computation that reads from a buffer. -/
abbrev Reading := StateT ByteBuffer (Except Throwable)

namespace ByteBuffer

/-- `remaining()`. -/
def remaining : Reading Nat := fun b => .ok (b.array.length - b.position, b)

/-- `ByteBuffer.wrap(array, offset, length).slice()`. -/
def wrapSlice (array : List UInt8) (offset length : Int32) : Except Throwable ByteBuffer :=
  if 0 ≤ offset.toInt ∧ 0 ≤ length.toInt ∧ offset.toInt + length.toInt ≤ array.length then
    .ok { array := slice array offset.toInt.toNat length.toInt.toNat }
  else .error .indexOutOfBounds

/-- `get(dst)` for an array of `n` bytes. -/
def getBytes (n : Nat) : Reading (List UInt8) := fun b =>
  if b.position + n ≤ b.array.length then
    .ok (slice b.array b.position n, { b with position := b.position + n })
  else .error .bufferUnderflow

/-- `get()`. -/
def get : Reading UInt8 := fun b =>
  if b.position < b.array.length then
    .ok (byteAt b.array b.position, { b with position := b.position + 1 })
  else .error .bufferUnderflow

/-- `short`, as the unsigned number that its users make of it. -/
def getShort : Reading UInt16 := do return UInt16.ofNat (beNat (← getBytes 2))

/-- `int`. -/
def getInt : Reading Int32 := do return (UInt32.ofNat (beNat (← getBytes 4))).toInt32

/-- `long`. -/
def getLong : Reading Int64 := do return (UInt64.ofNat (beNat (← getBytes 8))).toInt64

/-- `short` in little endian order. -/
def getShortLe : Reading UInt16 := do return UInt16.ofNat (leNat (← getBytes 2))

/-- `int` in little endian order. -/
def getIntLe : Reading Int32 := do return (UInt32.ofNat (leNat (← getBytes 4))).toInt32

/-- `long` in little endian order. -/
def getLongLe : Reading Int64 := do return (UInt64.ofNat (leNat (← getBytes 8))).toInt64

/-- `position(position() + n)`. -/
def skip (n : Nat) : Reading Unit := fun b =>
  if b.position + n ≤ b.array.length then .ok ((), { b with position := b.position + n })
  else .error .illegalArgument

/-! ### Reading within bounds -/

/-- A step that succeeds is followed by the next one. -/
theorem bind_ok {α β : Type} {m : Reading α} {f : α → Reading β} {b b' : ByteBuffer} {a : α}
    (h : m b = .ok (a, b')) : (m >>= f) b = f a b' := by
  simp [bind, StateT.bind, h, Except.bind]

variable {array : List UInt8} {p n : Nat}

theorem remaining_ok :
    remaining { array, position := p } = .ok (array.length - p, { array, position := p }) := rfl

theorem wrapSlice_ok {offset length : Int32} (hoffset : offset.toInt = p) (hlength : length.toInt = n)
    (h : p + n ≤ array.length) :
    wrapSlice array offset length = .ok { array := slice array p n } := by
  rw [wrapSlice, hoffset, hlength, if_pos (by omega)]
  rfl

theorem getBytes_ok (h : p + n ≤ array.length) :
    getBytes n { array, position := p } = .ok (slice array p n, { array, position := p + n }) := by
  simp [getBytes, h]

theorem getBytes_underflow (h : array.length < p + n) :
    getBytes n { array, position := p } = .error .bufferUnderflow := by
  simp [getBytes, Nat.not_le.2 h]

theorem get_ok (h : p < array.length) :
    get { array, position := p } = .ok (byteAt array p, { array, position := p + 1 }) := by
  simp [get, h]

theorem getShort_ok (h : p + 2 ≤ array.length) :
    getShort { array, position := p } = .ok (beUInt16 array p, { array, position := p + 2 }) := by
  rw [getShort, bind_ok (getBytes_ok h)]
  rfl

theorem getInt_ok (h : p + 4 ≤ array.length) :
    getInt { array, position := p } = .ok ((beUInt32 array p).toInt32, { array, position := p + 4 }) := by
  rw [getInt, bind_ok (getBytes_ok h)]
  rfl

theorem getLong_ok (h : p + 8 ≤ array.length) :
    getLong { array, position := p } = .ok ((beUInt64 array p).toInt64, { array, position := p + 8 }) := by
  rw [getLong, bind_ok (getBytes_ok h)]
  rfl

theorem getShortLe_ok (h : p + 2 ≤ array.length) :
    getShortLe { array, position := p } = .ok (leUInt16 array p, { array, position := p + 2 }) := by
  rw [getShortLe, bind_ok (getBytes_ok h)]
  rfl

theorem getIntLe_ok (h : p + 4 ≤ array.length) :
    getIntLe { array, position := p } = .ok ((leUInt32 array p).toInt32, { array, position := p + 4 }) := by
  rw [getIntLe, bind_ok (getBytes_ok h)]
  rfl

theorem skip_ok (h : p + n ≤ array.length) :
    skip n { array, position := p } = .ok ((), { array, position := p + n }) := by
  simp [skip, h]

/-! ### Where the buffer begins does not matter -/

/-- The same buffer, with `front` before it. -/
def relocate (front : List UInt8) (b : ByteBuffer) : ByteBuffer :=
  { array := front ++ b.array, position := front.length + b.position }

@[simp] theorem relocate_nil (b : ByteBuffer) : b.relocate [] = b := by
  simp [relocate]

/-- The computation reads at its position only. -/
def Relocatable {α : Type} (m : Reading α) : Prop :=
  ∀ front b, m (b.relocate front) = (m b).map fun r => (r.1, r.2.relocate front)

namespace Relocatable

variable {α β : Type}

theorem pure (a : α) : Relocatable (Pure.pure a : Reading α) := fun _ _ => rfl

theorem bind {m : Reading α} {f : α → Reading β} (hm : Relocatable m) (hf : ∀ a, Relocatable (f a)) :
    Relocatable (m >>= f) := by
  intro front b
  have hfirst := hm front b
  cases h : m b with
  | error e =>
    rw [h] at hfirst
    simp only [Bind.bind, StateT.bind, hfirst, h, Except.map, Except.bind]
  | ok r =>
    rw [h] at hfirst
    simp only [Bind.bind, StateT.bind, hfirst, h, Except.map, Except.bind]
    exact hf r.1 front r.2

theorem remaining : Relocatable ByteBuffer.remaining := by
  intro front b
  show Except.ok _ = Except.ok _
  rw [relocate, List.length_append, Nat.add_sub_add_left]
  rfl

theorem getBytes (n : Nat) : Relocatable (ByteBuffer.getBytes n) := by
  intro front b
  have hslice : slice (front ++ b.array) (front.length + b.position) n = slice b.array b.position n := by
    rw [slice, slice, List.drop_append, List.drop_of_length_le (by omega), List.nil_append,
      Nat.add_sub_cancel_left]
  by_cases h : b.position + n ≤ b.array.length
  · rw [ByteBuffer.getBytes, ByteBuffer.getBytes, if_pos h, if_pos (by simp [relocate]; omega), Except.map]
    simp only [relocate, hslice, Nat.add_assoc]
  · rw [ByteBuffer.getBytes, ByteBuffer.getBytes, if_neg h, if_neg (by simp [relocate]; omega), Except.map]

theorem skip (n : Nat) : Relocatable (ByteBuffer.skip n) := by
  intro front b
  by_cases h : b.position + n ≤ b.array.length
  · rw [ByteBuffer.skip, ByteBuffer.skip, if_pos h, if_pos (by simp [relocate]; omega), Except.map]
    simp only [relocate, Nat.add_assoc]
  · rw [ByteBuffer.skip, ByteBuffer.skip, if_neg h, if_neg (by simp [relocate]; omega), Except.map]

theorem getShortLe : Relocatable ByteBuffer.getShortLe := (getBytes 2).bind fun _ => pure _

theorem getIntLe : Relocatable ByteBuffer.getIntLe := (getBytes 4).bind fun _ => pure _

theorem getLongLe : Relocatable ByteBuffer.getLongLe := (getBytes 8).bind fun _ => pure _

/-- A computation that first makes sure that `n` bytes are left. -/
theorem guard {m : Reading α} {n : Nat} (a : α) (hm : Relocatable m) :
    Relocatable (ByteBuffer.remaining >>= fun left => if left < n then Pure.pure a else m) := by
  refine remaining.bind fun left => ?_
  split
  · exact pure a
  · exact hm

end Relocatable

/-! ### Computations that return -/

/-- With `n` bytes left the computation returns, and takes exactly them. -/
def Takes {α : Type} (n : Nat) (m : Reading α) : Prop :=
  ∀ b, b.position + n ≤ b.array.length → ∃ a, m b = .ok (a, { b with position := b.position + n })

/-- With `n` bytes left the computation returns something that satisfies `Q`. -/
def Yields {α : Type} (n : Nat) (m : Reading α) (Q : α → Prop) : Prop :=
  ∀ b, b.position + n ≤ b.array.length →
    ∃ a b', m b = .ok (a, b') ∧ b'.position ≤ b'.array.length ∧ Q a

section
variable {α β : Type} {m : Reading α} {f : α → Reading β} {k : Nat} {P : α → Prop} {Q : β → Prop}

theorem Takes.pure (a : α) : Takes 0 (Pure.pure a : Reading α) := fun _ _ => ⟨a, rfl⟩

theorem Takes.bind (hm : Takes n m) (hf : ∀ a, Takes k (f a)) : Takes (n + k) (m >>= f) := by
  intro b hb
  obtain ⟨a, ha⟩ := hm b (by omega)
  obtain ⟨c, hc⟩ := hf a { b with position := b.position + n } (by simp only; omega)
  exact ⟨c, by rw [bind_ok ha, hc, Nat.add_assoc]⟩

theorem Takes.getBytes (n : Nat) : Takes n (ByteBuffer.getBytes n) := fun _ hb => ⟨_, getBytes_ok hb⟩

theorem Takes.getShortLe : Takes 2 ByteBuffer.getShortLe := (getBytes 2).bind fun _ => pure _

theorem Takes.getIntLe : Takes 4 ByteBuffer.getIntLe := (getBytes 4).bind fun _ => pure _

theorem Takes.getLongLe : Takes 8 ByteBuffer.getLongLe := (getBytes 8).bind fun _ => pure _

theorem Takes.skip (n : Nat) : Takes n (ByteBuffer.skip n) := fun _ hb => ⟨(), skip_ok hb⟩

theorem Yields.pure {a : α} (h : P a) : Yields 0 (Pure.pure a : Reading α) P :=
  fun b hb => ⟨a, b, rfl, hb, h⟩

theorem Yields.of_takes (hm : Takes n m) (h : ∀ a, P a) : Yields n m P := by
  intro b hb
  obtain ⟨a, ha⟩ := hm b hb
  exact ⟨a, _, ha, hb, h a⟩

/-- After what takes the bytes that are known to be left. -/
theorem Yields.bind (hm : Takes n m) (hf : ∀ a, Yields 0 (f a) Q) : Yields n (m >>= f) Q := by
  intro b hb
  obtain ⟨a, ha⟩ := hm b hb
  rw [bind_ok ha]
  exact hf a _ hb

theorem Yields.seq (hm : Yields 0 m P) (hf : ∀ a, P a → Yields 0 (f a) Q) : Yields 0 (m >>= f) Q := by
  intro b hb
  obtain ⟨a, b', ha, hb', hP⟩ := hm b hb
  rw [bind_ok ha]
  exact hf a hP b' hb'

/-- A computation that first makes sure that `n` bytes are left. -/
theorem Yields.guard {a : α} (ha : P a) (hm : Yields n m P) :
    Yields 0 (ByteBuffer.remaining >>= fun left => if left < n then Pure.pure a else m) P := by
  intro b hb
  rw [bind_ok (remaining_ok : ByteBuffer.remaining b = _)]
  split
  · exact ⟨a, b, rfl, hb, ha⟩
  · exact hm b (by omega)

end

end ByteBuffer

end BinderTracer.App
