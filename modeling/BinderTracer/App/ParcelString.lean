import BinderTracer.App.Decoders
import BinderTracer.Lib.SignedWords

/-!
# Strings in a parcel

The layout in which a parcel holds a string of 16-bit units: its length, the units, a NUL and zero bytes up
to the next multiple of 4. Interface tokens are written this way, and so are the messages of exceptions.
-/

namespace BinderTracer.App

open BinderTracer.Lib

/-- The units of a string, one after another. -/
def unitBytes (units : List UInt16) : List UInt8 := units.flatMap fun u => leBytes 2 u.toNat

/-- The NUL after `n` units and the padding. -/
def string16Tail (n : Nat) : List UInt8 := List.replicate (padTo4 ((n + 1) * 2) - n * 2) 0

/-- The layout of a string. -/
def string16 (units : List UInt16) : List UInt8 :=
  leBytes 4 units.length ++ (unitBytes units ++ string16Tail units.length)

@[simp] theorem length_unitBytes (units : List UInt16) : (unitBytes units).length = units.length * 2 := by
  induction units with
  | nil => rfl
  | cons u units ih =>
    rw [unitBytes, List.flatMap_cons, List.length_append, length_leBytes, ← unitBytes, ih, List.length_cons]
    omega

@[simp] theorem length_string16 (units : List UInt16) :
    (string16 units).length = 4 + padTo4 ((units.length + 1) * 2) := by
  rw [string16, List.length_append, List.length_append, length_leBytes, length_unitBytes, string16Tail,
    List.length_replicate, padTo4]
  omega

theorem unitsAt_succ (data : List UInt8) (start n : Nat) :
    unitsAt data start (n + 1) = leUInt16 data start :: unitsAt data (start + 2) n := by
  rw [unitsAt, List.range_succ_eq_map, List.map_cons, List.map_map, Nat.mul_zero, Nat.add_zero]
  refine congrArg (leUInt16 data start :: ·) (List.map_congr_left fun i _ => ?_)
  show leUInt16 data (start + 2 * (i + 1)) = leUInt16 data (start + 2 + 2 * i)
  rw [show start + 2 * (i + 1) = start + 2 + 2 * i by omega]

/-- The units are read back. -/
theorem unitsAt_unitBytes {data : List UInt8} {start : Nat} {units : List UInt16}
    (h : FieldAt data start (unitBytes units)) : unitsAt data start units.length = units := by
  induction units generalizing start with
  | nil => rfl
  | cons u units ih =>
    rw [unitBytes, List.flatMap_cons] at h
    obtain ⟨hfirst, hrest⟩ := h.append
    rw [length_leBytes] at hrest
    rw [List.length_cons, unitsAt_succ, hfirst.leUInt16, ih hrest]

/-- What stands at `off` when a string does. -/
structure String16At (data : List UInt8) (off : Nat) (units : List UInt16) : Prop where
  fits : off + 4 + (units.length + 1) * 2 ≤ data.length
  word : (leUInt32 data off).toNat = units.length
  units : unitsAt data (off + 4) units.length = units

theorem String16At.of_fieldAt {data : List UInt8} {off : Nat} {units : List UInt16}
    (hlen : units.length < 2 ^ 32) (h : FieldAt data off (string16 units)) : String16At data off units := by
  have hfits := h.le (by simp [string16, leBytes])
  rw [length_string16, padTo4] at hfits
  obtain ⟨hword, hrest⟩ := FieldAt.append h
  rw [length_leBytes] at hrest
  exact ⟨by omega, hword.leUInt32 hlen, unitsAt_unitBytes hrest.append.1⟩

/-- The name reader accepts a string of a legal length whose characters pass the check. -/
theorem String16At.readUtf16NameAt {data : List UInt8} {off : Nat} {units : List UInt16} {requireDot : Bool}
    (h : String16At data off units) (hpos : 1 ≤ units.length) (hle : units.length ≤ 4096)
    (hname : (if requireDot then isLikelyInterfaceName units else isLikelyInterfaceNameRelaxed units) = true) :
    App.readUtf16NameAt data off requireDot =
      some (nameText units, off + 4 + padTo4 ((units.length + 1) * 2)) := by
  have hfits := h.fits
  have hlength : (leUInt32 data off).toInt32.toInt = units.length := by
    rw [toInt_toInt32, h.word, if_pos (by omega)]
  have hrange : ¬ ((leUInt32 data off).toInt32 < 1 ∨ (leUInt32 data off).toInt32 > maxInterfaceNameChars) := by
    rw [gt_iff_lt, Int32.lt_iff_toInt_lt, Int32.lt_iff_toInt_lt, hlength]
    show ¬ ((units.length : Int) < 1 ∨ (4096 : Int) < units.length)
    omega
  rw [App.readUtf16NameAt, if_neg (by omega), if_neg hrange, hlength, Int.toNat_natCast, if_neg (by omega),
    h.units, if_pos hname]

/-- The name reader rejects a length above the limit, which may also be a negative number. -/
theorem readUtf16NameAt_eq_none {data : List UInt8} {off : Nat} (requireDot : Bool)
    (h : 4096 < (leUInt32 data off).toNat) : readUtf16NameAt data off requireDot = none := by
  have hrange : (leUInt32 data off).toInt32 < 1 ∨ (leUInt32 data off).toInt32 > maxInterfaceNameChars := by
    have hlt := (leUInt32 data off).toNat_lt
    rw [gt_iff_lt, Int32.lt_iff_toInt_lt, Int32.lt_iff_toInt_lt, toInt_toInt32]
    show _ < (1 : Int) ∨ (4096 : Int) < _
    split <;> omega
  rw [readUtf16NameAt]
  split
  · rfl
  · rw [if_pos hrange]

end BinderTracer.App
