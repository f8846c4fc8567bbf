import Mathlib.Data.List.Induction
import Mathlib.Algebra.Order.Ring.Nat

/-!
# Fields of a byte string

`slice data off n` is the field of `n` bytes at `off`; `beNat` and `leNat` are the numbers that bytes denote
in big endian and in little endian order.
-/

namespace BinderTracer.Lib

/-- The `n` bytes of `data` from `off` on. -/
def slice (data : List UInt8) (off n : Nat) : List UInt8 := (data.drop off).take n

/-- The number written in base 256, most significant byte first. -/
def beNat (bytes : List UInt8) : Nat := bytes.foldl (fun n b => n * 256 + b.toNat) 0

/-- The number written in base 256, least significant byte first. -/
def leNat (bytes : List UInt8) : Nat := bytes.foldr (fun b n => b.toNat + 256 * n) 0

/-- The byte at `i`, and the words that start at `off`; bytes past the end count as missing digits. -/
def byteAt (data : List UInt8) (i : Nat) : UInt8 := data.getD i 0

def beUInt16 (data : List UInt8) (off : Nat) : UInt16 := UInt16.ofNat (beNat (slice data off 2))

def beUInt32 (data : List UInt8) (off : Nat) : UInt32 := UInt32.ofNat (beNat (slice data off 4))

def beUInt64 (data : List UInt8) (off : Nat) : UInt64 := UInt64.ofNat (beNat (slice data off 8))

def leUInt16 (data : List UInt8) (off : Nat) : UInt16 := UInt16.ofNat (leNat (slice data off 2))

def leUInt32 (data : List UInt8) (off : Nat) : UInt32 := UInt32.ofNat (leNat (slice data off 4))

theorem length_slice {data : List UInt8} {off n : Nat} (h : off + n ≤ data.length) :
    (slice data off n).length = n := by
  rw [slice, List.length_take, List.length_drop]
  omega

/-- A field of a field. -/
theorem slice_slice (data : List UInt8) {off n a m : Nat} (h : a + m ≤ n) :
    slice (slice data off n) a m = slice data (off + a) m := by
  rw [slice, slice, slice, List.drop_take, List.drop_drop, List.take_take, Nat.min_eq_left (by omega)]

theorem getElem?_eq_byteAt {data : List UInt8} {i : Nat} (h : i < data.length) :
    data[i]? = some (byteAt data i) := by
  simp [byteAt, List.getD, h]

theorem beNat_append_singleton (bytes : List UInt8) (b : UInt8) :
    beNat (bytes ++ [b]) = beNat bytes * 256 + b.toNat := by
  rw [beNat, List.foldl_append, ← beNat]
  rfl

theorem length_slice_le (data : List UInt8) (off n : Nat) : (slice data off n).length ≤ n := by
  rw [slice, List.length_take]
  exact Nat.min_le_left _ _

theorem slice_append (data : List UInt8) (off a b : Nat) :
    slice data off a ++ slice data (off + a) b = slice data off (a + b) := by
  rw [slice, slice, slice, List.take_add, List.drop_drop]

theorem leNat_append (bytes more : List UInt8) :
    leNat (bytes ++ more) = leNat bytes + 256 ^ bytes.length * leNat more := by
  induction bytes with
  | nil => simp [leNat]
  | cons b bytes ih =>
    change b.toNat + 256 * leNat (bytes ++ more) = b.toNat + 256 * leNat bytes + _
    rw [ih, List.length_cons, Nat.pow_succ, Nat.mul_add, ← Nat.mul_assoc, Nat.mul_comm 256 (256 ^ _)]
    omega

theorem leNat_lt (bytes : List UInt8) : leNat bytes < 256 ^ bytes.length := by
  induction bytes with
  | nil => exact Nat.one_pos
  | cons b bytes ih =>
    have hb := b.toNat_lt
    change b.toNat + 256 * leNat bytes < _
    rw [List.length_cons, Nat.pow_succ]
    omega

/-! ### Writing -/

/-- The last `width` digits of `n` in base 256, most significant first. -/
def beBytes : Nat → Nat → List UInt8
  | 0, _ => []
  | width + 1, n => beBytes width (n / 256) ++ [UInt8.ofNat n]

@[simp] theorem length_beBytes (width n : Nat) : (beBytes width n).length = width := by
  induction width generalizing n with
  | zero => rfl
  | succ width ih => rw [beBytes, List.length_append, ih, List.length_singleton]

theorem beNat_beBytes (width n : Nat) : beNat (beBytes width n) = n % 256 ^ width := by
  induction width generalizing n with
  | zero => simp [beBytes, beNat, Nat.mod_one]
  | succ width ih =>
    have hlow : (UInt8.ofNat n).toNat = n % 256 := UInt8.toNat_ofNat'
    rw [beBytes, beNat_append_singleton, ih, hlow, Nat.pow_succ, Nat.mul_comm (256 ^ width) 256, Nat.mod_mul]
    omega

/-- The last `width` digits of `n` in base 256, least significant first. -/
def leBytes : Nat → Nat → List UInt8
  | 0, _ => []
  | width + 1, n => UInt8.ofNat n :: leBytes width (n / 256)

@[simp] theorem length_leBytes (width n : Nat) : (leBytes width n).length = width := by
  induction width generalizing n with
  | zero => rfl
  | succ width ih => rw [leBytes, List.length_cons, ih]

theorem leNat_leBytes (width n : Nat) : leNat (leBytes width n) = n % 256 ^ width := by
  induction width generalizing n with
  | zero => simp [leBytes, leNat, Nat.mod_one]
  | succ width ih =>
    have hlow : (UInt8.ofNat n).toNat = n % 256 := UInt8.toNat_ofNat'
    rw [leBytes, leNat, List.foldr_cons, ← leNat, ih, hlow, Nat.pow_succ, Nat.mul_comm (256 ^ width) 256,
      Nat.mod_mul]

/-- A byte in two hexadecimal digits. -/
def hexByte (b : UInt8) : List Char := [Nat.digitChar (b.toNat / 16), Nat.digitChar (b.toNat % 16)]

/-- `field` stands in `data` at `off`. -/
def FieldAt (data : List UInt8) (off : Nat) (field : List UInt8) : Prop := slice data off field.length = field

theorem FieldAt.self (data : List UInt8) : FieldAt data 0 data := by
  rw [FieldAt, slice, List.drop_zero, List.take_length]

/-- Two fields one after the other. -/
theorem FieldAt.append {data field more : List UInt8} {off : Nat} (h : FieldAt data off (field ++ more)) :
    FieldAt data off field ∧ FieldAt data (off + field.length) more := by
  have hboth : slice data off field.length ++ slice data (off + field.length) more.length = field ++ more := by
    rw [slice_append, ← List.length_append]
    exact h
  have hlength := congrArg List.length hboth
  have hfirst := length_slice_le data off field.length
  have hsecond := length_slice_le data (off + field.length) more.length
  rw [List.length_append, List.length_append] at hlength
  exact List.append_inj hboth (by omega)

theorem FieldAt.byteAt {data rest : List UInt8} {off : Nat} {b : UInt8} (h : FieldAt data off (b :: rest)) :
    byteAt data off = b := by
  have hhead := congrArg (·.head?) h
  rw [slice, List.head?_take, if_neg (by simp), List.head?_drop] at hhead
  rw [Lib.byteAt, List.getD, hhead]
  rfl

theorem FieldAt.tail {data rest : List UInt8} {off : Nat} {b : UInt8} (h : FieldAt data off (b :: rest)) :
    FieldAt data (off + 1) rest :=
  (FieldAt.append (show FieldAt data off ([b] ++ rest) from h)).2

theorem FieldAt.beUInt16 {data : List UInt8} {off : Nat} {x : UInt16} (h : FieldAt data off (beBytes 2 x.toNat)) :
    beUInt16 data off = x := by
  rw [FieldAt, length_beBytes] at h
  have hlt : x.toNat < 256 ^ 2 := x.toNat_lt
  rw [Lib.beUInt16, h, beNat_beBytes, Nat.mod_eq_of_lt hlt, UInt16.ofNat_toNat]

theorem FieldAt.beUInt32 {data : List UInt8} {off : Nat} {x : UInt32} (h : FieldAt data off (beBytes 4 x.toNat)) :
    beUInt32 data off = x := by
  rw [FieldAt, length_beBytes] at h
  have hlt : x.toNat < 256 ^ 4 := x.toNat_lt
  rw [Lib.beUInt32, h, beNat_beBytes, Nat.mod_eq_of_lt hlt, UInt32.ofNat_toNat]

theorem FieldAt.beUInt64 {data : List UInt8} {off : Nat} {x : UInt64} (h : FieldAt data off (beBytes 8 x.toNat)) :
    beUInt64 data off = x := by
  rw [FieldAt, length_beBytes] at h
  have hlt : x.toNat < 256 ^ 8 := x.toNat_lt
  rw [Lib.beUInt64, h, beNat_beBytes, Nat.mod_eq_of_lt hlt, UInt64.ofNat_toNat]

theorem FieldAt.leUInt16 {data : List UInt8} {off : Nat} {x : UInt16} (h : FieldAt data off (leBytes 2 x.toNat)) :
    leUInt16 data off = x := by
  rw [FieldAt, length_leBytes] at h
  have hlt : x.toNat < 256 ^ 2 := x.toNat_lt
  rw [Lib.leUInt16, h, leNat_leBytes, Nat.mod_eq_of_lt hlt, UInt16.ofNat_toNat]

theorem FieldAt.leUInt32 {data : List UInt8} {off n : Nat} (hn : n < 2 ^ 32) (h : FieldAt data off (leBytes 4 n)) :
    (leUInt32 data off).toNat = n := by
  rw [FieldAt, length_leBytes] at h
  rw [Lib.leUInt32, h, leNat_leBytes, UInt32.toNat_ofNat', Nat.mod_eq_of_lt (show n < 256 ^ 4 from hn),
    Nat.mod_eq_of_lt hn]

/-- A field lies in the data. -/
theorem FieldAt.le {data field : List UInt8} {off : Nat} (h : FieldAt data off field) (hne : field ≠ []) :
    off + field.length ≤ data.length := by
  have hlength := congrArg List.length h
  have hpos := List.length_pos_iff.2 hne
  rw [slice, List.length_take, List.length_drop] at hlength
  omega

/-- What comes after `off` bytes stands at `off`. -/
theorem FieldAt.of_append {front field back : List UInt8} {off : Nat} (h : front.length = off) :
    FieldAt (front ++ (field ++ back)) off field := by
  rw [FieldAt, slice, List.drop_append_of_le_length (by omega), List.drop_of_length_le (by omega),
    List.nil_append, List.take_left]

/-! ### Words of units -/

/-- A word of 32 bits is made of two of 16 bits, the first of which is there. -/
theorem leUInt32_eq_units {data : List UInt8} {off : Nat} (h : off + 2 ≤ data.length) :
    (leUInt32 data off).toNat = (leUInt16 data off).toNat + 65536 * (leUInt16 data (off + 2)).toNat := by
  have hlow := leNat_lt (slice data off 2)
  have hhigh := leNat_lt (slice data (off + 2) 2)
  have hle : 256 ^ (slice data (off + 2) 2).length ≤ 256 ^ 2 :=
    Nat.pow_le_pow_right (by omega) (length_slice_le data (off + 2) 2)
  have hword := leNat_append (slice data off 2) (slice data (off + 2) 2)
  rw [slice_append, length_slice h] at hword
  rw [length_slice h] at hlow
  rw [leUInt32, leUInt16, leUInt16, UInt32.toNat_ofNat', UInt16.toNat_ofNat', UInt16.toNat_ofNat', hword]
  omega

theorem byteAt_eq_getElem {data : List UInt8} {i : Nat} (h : i < data.length) : byteAt data i = data[i] := by
  rw [byteAt, List.getD, List.getElem?_eq_getElem h]
  rfl

theorem slice_one {data : List UInt8} {off : Nat} (h : off < data.length) : slice data off 1 = [byteAt data off] := by
  rw [slice, List.drop_eq_getElem_cons h, List.take_succ_cons, List.take_zero, byteAt_eq_getElem h]

/-- A word is at least what its last byte contributes. -/
theorem le_leUInt32 {data : List UInt8} {off : Nat} (h : off + 4 ≤ data.length) :
    2 ^ 24 * (byteAt data (off + 3)).toNat ≤ (leUInt32 data off).toNat := by
  have hlow : (slice data off 3).length = 3 := length_slice (by omega)
  have hword := leNat_append (slice data off 3) (slice data (off + 3) 1)
  have hlt := leNat_lt (slice data off 4)
  rw [length_slice h] at hlt
  rw [slice_append, hlow, slice_one (by omega)] at hword
  rw [leUInt32, UInt32.toNat_ofNat', Nat.mod_eq_of_lt (show _ < 2 ^ 32 from hlt), hword]
  simp only [leNat, List.foldr_cons, List.foldr_nil]
  omega

end BinderTracer.Lib
