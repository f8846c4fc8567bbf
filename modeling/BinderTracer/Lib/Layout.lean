import BinderTracer.Lib.ByteOrder
import Mathlib.Data.Vector.Basic
import Mathlib.Logic.Equiv.Defs

/-!
# Layouts of fixed size

A layout is a bijection between the values of a type and the byte strings of one length. Words, arrays and
fields one after another are layouts, and a struct is the layout of the tuple of its fields, with its padding
as fields of their own. Reading a struct from the front of a byte string gives a value exactly when the string
begins with the bytes of that value (`Layout.readFront_eq_some_iff`).
-/

namespace BinderTracer.Lib

theorem leBytes_leNat (bytes : List UInt8) : leBytes bytes.length (leNat bytes) = bytes := by
  induction bytes with
  | nil => rfl
  | cons b bytes ih =>
    have hb := b.toNat_lt
    have hcons : leNat (b :: bytes) = b.toNat + 256 * leNat bytes := rfl
    rw [List.length_cons, leBytes, hcons]
    have hhead : UInt8.ofNat (b.toNat + 256 * leNat bytes) = b := by
      apply UInt8.toNat_inj.1
      rw [UInt8.toNat_ofNat']
      omega
    have htail : (b.toNat + 256 * leNat bytes) / 256 = leNat bytes := by omega
    rw [hhead, htail, ih]

/-- The values of `α` as byte strings of length `size`. -/
structure Layout (α : Type) where
  size : Nat
  write : α → List UInt8
  read : List UInt8 → α
  length_write : ∀ a, (write a).length = size
  read_write : ∀ a, read (write a) = a
  write_read : ∀ bytes, bytes.length = size → write (read bytes) = bytes

namespace Layout

variable {α β : Type}

/-! ### Words -/

/-- A byte. -/
def byte : Layout UInt8 where
  size := 1
  write b := [b]
  read bytes := byteAt bytes 0
  length_write _ := rfl
  read_write _ := rfl
  write_read bytes h := by
    obtain ⟨b, rfl⟩ := List.length_eq_one_iff.1 h
    rfl

/-- A word of `width` bytes, least significant byte first, for a type with `256 ^ width` values. -/
def littleEndian (width : Nat) (toNat : α → Nat) (ofNat : Nat → α) (toNat_lt : ∀ a, toNat a < 256 ^ width)
    (ofNat_toNat : ∀ a, ofNat (toNat a) = a) (toNat_ofNat : ∀ n < 256 ^ width, toNat (ofNat n) = n) :
    Layout α where
  size := width
  write a := leBytes width (toNat a)
  read bytes := ofNat (leNat bytes)
  length_write _ := length_leBytes width _
  read_write a := by rw [leNat_leBytes, Nat.mod_eq_of_lt (toNat_lt a), ofNat_toNat]
  write_read bytes h := by
    subst h
    rw [toNat_ofNat _ (leNat_lt bytes), leBytes_leNat]

def u16 : Layout UInt16 :=
  littleEndian 2 UInt16.toNat UInt16.ofNat UInt16.toNat_lt (fun _ => UInt16.ofNat_toNat)
    fun _ h => UInt16.toNat_ofNat_of_lt' h

def u32 : Layout UInt32 :=
  littleEndian 4 UInt32.toNat UInt32.ofNat UInt32.toNat_lt (fun _ => UInt32.ofNat_toNat)
    fun _ h => UInt32.toNat_ofNat_of_lt' h

def u64 : Layout UInt64 :=
  littleEndian 8 UInt64.toNat UInt64.ofNat UInt64.toNat_lt (fun _ => UInt64.ofNat_toNat)
    fun _ h => UInt64.toNat_ofNat_of_lt' h

/-! ### Tuples and arrays -/

/-- The same bytes, for the values of another type. -/
def map (layout : Layout α) (e : α ≃ β) : Layout β where
  size := layout.size
  write b := layout.write (e.symm b)
  read bytes := e (layout.read bytes)
  length_write _ := layout.length_write _
  read_write b := by rw [layout.read_write, e.apply_symm_apply]
  write_read bytes h := by rw [e.symm_apply_apply, layout.write_read bytes h]

/-- One field after another. -/
def seq (first : Layout α) (second : Layout β) : Layout (α × β) where
  size := first.size + second.size
  write p := first.write p.1 ++ second.write p.2
  read bytes := (first.read (bytes.take first.size), second.read (bytes.drop first.size))
  length_write p := by rw [List.length_append, first.length_write, second.length_write]
  read_write p := by
    rw [List.take_left' (first.length_write p.1), List.drop_left' (first.length_write p.1), first.read_write,
      second.read_write]
  write_read bytes h := by
    rw [first.write_read _ (by rw [List.length_take]; omega),
      second.write_read _ (by rw [List.length_drop]; omega), List.take_append_drop]

/-- No bytes at all. -/
def empty : Layout (List.Vector α 0) where
  size := 0
  write _ := []
  read _ := .nil
  length_write _ := rfl
  read_write v := (List.Vector.eq_nil v).symm
  write_read _ h := (List.eq_nil_of_length_eq_zero h).symm

/-- The first entry of a vector, and the others. -/
def consEquiv (n : Nat) : α × List.Vector α n ≃ List.Vector α (n + 1) where
  toFun p := p.1 ::ᵥ p.2
  invFun v := (v.head, v.tail)
  left_inv _ := rfl
  right_inv v := List.Vector.cons_head_tail v

/-- An array. -/
def array (layout : Layout α) : (n : Nat) → Layout (List.Vector α n)
  | 0 => empty
  | n + 1 => (layout.seq (layout.array n)).map (consEquiv n)

@[simp] theorem size_byte : byte.size = 1 := rfl

@[simp] theorem size_u16 : u16.size = 2 := rfl

@[simp] theorem size_u32 : u32.size = 4 := rfl

@[simp] theorem size_u64 : u64.size = 8 := rfl

@[simp] theorem size_map (layout : Layout α) (e : α ≃ β) : (layout.map e).size = layout.size := rfl

@[simp] theorem size_seq (first : Layout α) (second : Layout β) :
    (first.seq second).size = first.size + second.size := rfl

@[simp] theorem size_array (layout : Layout α) (n : Nat) : (layout.array n).size = n * layout.size := by
  induction n with
  | zero => exact (Nat.zero_mul _).symm
  | succ n ih => rw [array, size_map, size_seq, ih, Nat.succ_mul, Nat.add_comm]

/-! ### Reading from the front -/

variable (layout : Layout α)

/-- The value at the front of a byte string, if the string is long enough. -/
def readFront (bytes : List UInt8) : Option α :=
  if bytes.length < layout.size then none else some (layout.read (bytes.take layout.size))

theorem readFront_write (a : α) (rest : List UInt8) : layout.readFront (layout.write a ++ rest) = some a := by
  have hlong : ¬ (layout.write a ++ rest).length < layout.size := by
    rw [List.length_append, layout.length_write]
    omega
  rw [readFront, if_neg hlong, List.take_left' (layout.length_write a), layout.read_write]

/-- **What is read is what stands at the front**, whatever follows it. -/
theorem readFront_eq_some_iff {bytes : List UInt8} {a : α} :
    layout.readFront bytes = some a ↔ ∃ rest, bytes = layout.write a ++ rest := by
  constructor
  · intro h
    unfold readFront at h
    split at h
    · cases h
    · next hlong =>
      refine ⟨bytes.drop layout.size, ?_⟩
      have hlen : (bytes.take layout.size).length = layout.size := by
        rw [List.length_take]
        omega
      rw [← Option.some.inj h, layout.write_read _ hlen, List.take_append_drop]
  · rintro ⟨rest, rfl⟩
    exact layout.readFront_write a rest

end Layout

end BinderTracer.Lib
