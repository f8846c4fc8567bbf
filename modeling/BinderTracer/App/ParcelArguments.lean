import BinderTracer.App.Decoders
import BinderTracer.Lib.Json

/-!
# Arguments of a call

`ParcelArgumentDecoder.decode`, which reads the arguments of a known method, and
`ParcelParser.sniffArgumentTypes`, which guesses the types of those of an unknown one. Both first look for
the end of the interface token. `android.os.Parcel` is a byte string with a position; reading one value of
a declared type from it is the parameter `decodeValue`, which returns the text of the value or of the
failure, and the parcel afterwards.
-/

namespace BinderTracer.App

open BinderTracer.Lib

/-- The end of an interface token of at most `maxChars` characters whose length stands after a header of
`headerLen` bytes, if it lies in the parcel. -/
def tokenEnd (headerLen : Nat) (maxChars : Int32) (data : List UInt8) : Option Nat :=
  if data.length < headerLen + 4 then none
  else
    let nameLen := (leUInt32 data headerLen).toInt32
    if nameLen ≤ 0 ∨ nameLen > maxChars then none
    else
      let start := headerLen + 4 + padTo4 ((nameLen.toInt.toNat + 1) * 2)
      if start < data.length then some start else none

/-- `computeArgStart`. -/
def computeArgStart (data : List UInt8) : Option Nat := tokenEnd 12 4096 data

/-- The part of `sniffArgumentTypes` that finds the arguments. -/
def sniffStart (data : List UInt8) : Option Nat := tokenEnd 12 4096 data

/-! ### Decoding -/

structure Parcel where
  data : List UInt8
  dataPosition : Nat := 0
deriving DecidableEq, Repr

inductive ArgumentStatus where
  | success | unparsed
deriving DecidableEq, Repr

structure DecodedArgument where
  index : Int32
  declaredType : String
  displayValue : String
  status : ArgumentStatus
  errorMessage : Option String := none
deriving DecidableEq, Repr

structure ParcelDecodeResult where
  args : List DecodedArgument
  consumed : Nat
  remaining : Nat
  fullySuccessful : Bool
deriving DecidableEq, Repr

/-- Reading one value of a declared type. -/
abbrev ValueDecoder := Parcel → String → Except String String × Parcel

/-- `substring` from the beginning, in units of UTF-16. Half a character stands as the one that is shown for it. -/
def takeUnits : Nat → List Char → List Char
  | 0, _ | _, [] => []
  | 1, c :: _ => if c.toNat < 0x10000 then [c] else ['\uFFFD']
  | n + 2, c :: cs => c :: takeUnits (if c.toNat < 0x10000 then n + 1 else n) cs

/-- `truncate`. -/
def truncate (s : String) : String :=
  if utf16Length s ≤ 256 then s else String.ofList (takeUnits 256 s.toList) ++ "…"

section
variable (decodeValue : ValueDecoder)

/-- `tryDecodeOne`. -/
def tryDecodeOne (parcel : Parcel) (index : Nat) (type : String) : DecodedArgument × Parcel :=
  match decodeValue parcel type with
  | (.ok value, parcel) =>
    ({ index := .ofNat index, declaredType := type, displayValue := truncate value, status := .success }, parcel)
  | (.error message, parcel) =>
    ({ index := .ofNat index, declaredType := type, displayValue := "<解析失败>", status := .unparsed,
       errorMessage := some message }, parcel)

/-- The arguments after one that could not be read. -/
def skippedFrom (index : Nat) (types : List String) : List DecodedArgument :=
  types.mapIdx fun i type =>
    { index := .ofNat (index + i), declaredType := type, displayValue := "<已跳过:前一个参数解析失败>"
      status := .unparsed, errorMessage := some "因前一参数解析失败而跳过" }

/-- The loop of `decodeFromParcel`: the arguments, the parcel afterwards, and whether all were read. -/
def decodeLoop : Parcel → Nat → List String → List DecodedArgument × Parcel × Bool
  | parcel, _, [] => ([], parcel, true)
  | parcel, index, type :: types =>
    let (decoded, parcel) := tryDecodeOne decodeValue parcel index type
    if decoded.status ≠ .success then (decoded :: skippedFrom (index + 1) types, parcel, false)
    else
      let (results, parcel, allOk) := decodeLoop parcel (index + 1) types
      (decoded :: results, parcel, allOk)

/-- `decodeFromParcel`. -/
def decodeFromParcel (parcel : Parcel) (paramTypes : List String) (totalSize : Nat) : ParcelDecodeResult :=
  let (args, parcel, fullySuccessful) := decodeLoop decodeValue parcel 0 paramTypes
  { args, consumed := parcel.dataPosition, remaining := totalSize - parcel.dataPosition, fullySuccessful }

/-- `decode`. -/
def decode (rawParcel : List UInt8) (paramTypes : List String) : ParcelDecodeResult :=
  if rawParcel = [] ∨ paramTypes = [] then
    { args := [], consumed := 0, remaining := rawParcel.length, fullySuccessful := paramTypes = [] }
  else
    match computeArgStart rawParcel with
    | none => { args := [], consumed := 0, remaining := rawParcel.length, fullySuccessful := false }
    | some argStart =>
      decodeFromParcel decodeValue { data := rawParcel, dataPosition := argStart } paramTypes rawParcel.length

end

/-! ### Sniffing -/

/-- A unit that counts as readable: visible ASCII, or a common character of Chinese or Japanese. -/
def isReadable (c : UInt16) : Bool :=
  0x20 ≤ c ∧ c ≤ 0x7E ∨ 0x4E00 ≤ c ∧ c ≤ 0x9FFF ∨ 0x3000 ≤ c ∧ c ≤ 0x303F

/-- The end of the string at `pos`, if there is one: it lies in the parcel, and three quarters of its first
eight characters are readable. -/
def sniffString (data : List UInt8) (pos : Nat) : Option Nat :=
  let word := (leUInt32 data pos).toInt32
  if 1 ≤ word ∧ word ≤ maxInterfaceNameChars then
    let n := word.toInt.toNat
    let expectedEnd := pos + 4 + padTo4 ((n + 1) * 2)
    let sample := min n 8
    let readable := (unitsAt data (pos + 4) sample).countP isReadable
    if expectedEnd ≤ data.length ∧ 3 * sample ≤ 4 * readable then some expectedEnd else none
  else none

/-- `sniffArgsFrom`, with the position and the number of arguments that are still wanted. -/
def sniffArgsFrom (data : List UInt8) : Nat → Nat → List String
  | _, 0 => []
  | pos, count + 1 =>
    if data.length < pos + 4 then []
    else
      let word := leUInt32 data pos
      let typeName :=
        if word = 0x852a6273 ∨ word = 0x852a6873 then some "IBinder"
        else if word = 0x852a6466 then some "FileDescriptor"
        else none
      match typeName with
      | some typeName => if data.length < pos + 24 then [] else typeName :: sniffArgsFrom data (pos + 24) count
      | none =>
        if word = 0xFFFFFFFF then "?" :: sniffArgsFrom data (pos + 4) count
        else
          match sniffString data pos with
          | some expectedEnd => "String" :: sniffArgsFrom data expectedEnd count
          | none => "int" :: sniffArgsFrom data (pos + 4) count

/-- `sniffArgumentTypes`. -/
def sniffArgumentTypes (data : List UInt8) (maxArgs : Nat) : List String :=
  match sniffStart data with
  | none => []
  | some argStart => sniffArgsFrom data argStart maxArgs

end BinderTracer.App
