import BinderTracer.App.ByteBuffer
import BinderTracer.App.Decoders

/-!
# Replies of Java services

`ReplyParser.decodeJavaAidlReply`: the code of an exception after any reply headers, then the message of
the exception or the value that was returned. A string is the units that it is made of, and
`decodeUtf16`, which stands for `String(chars)`, makes a text of them.

Every read is guarded by what remains in the buffer, so that no bytes make the parser throw.
-/

namespace BinderTracer.App

open BinderTracer.Lib ByteBuffer

namespace ReplyParser

/-! ### Exception codes -/

abbrev exServiceSpecific : Int32 := -8
abbrev exHasNotedAppopsReplyHeader : Int32 := -127
abbrev exHasStrictmodeReplyHeader : Int32 := -128

/-- `MAX_REPLY_HEADER_BYTES`. -/
abbrev maxReplyHeaderBytes : Int32 := 65536

/-- The known codes, `EX_SECURITY` to `EX_PARCELABLE`. -/
def exceptionTags : List (Int32 × String) :=
  [(-1, "SecurityException"), (-2, "BadParcelableException"), (-3, "IllegalArgumentException"),
   (-4, "NullPointerException"), (-5, "IllegalStateException"), (-6, "NetworkOnMainThreadException"),
   (-7, "UnsupportedOperationException"), (exServiceSpecific, "ServiceSpecificException"),
   (-9, "ParcelableException")]

/-- `exceptionTag`. -/
def exceptionTag (code : Int32) : Option String := exceptionTags.lookup code

/-- `rawHexHint`. -/
def rawHexHint (parcel : List UInt8) : String := formatRawHexHint parcel

/-- `canonicalReturnType`. -/
def canonicalReturnType (returnType : String) : String :=
  if returnType ∈ ["int", "Integer", "java.lang.Integer"] then "int"
  else if returnType ∈ ["long", "Long", "java.lang.Long"] then "long"
  else if returnType ∈ ["boolean", "Boolean", "java.lang.Boolean"] then "boolean"
  else if returnType ∈ ["void", "Void", "java.lang.Void"] then "void"
  else if returnType ∈ ["String", "java.lang.String"] then "String"
  else if returnType ∈ ["CharSequence", "java.lang.CharSequence"] then "CharSequence"
  else returnType

/-! ### Reading -/

/-- `readExceptionCode`, with the headers that may still be skipped. -/
def readExceptionCodeLoop : Nat → Reading (Option Int32)
  | 0 => return none
  | n + 1 => do
    if (← remaining) < 4 then return none
    let code ← getIntLe
    if code ≠ exHasStrictmodeReplyHeader ∧ code ≠ exHasNotedAppopsReplyHeader then return some code
    if (← remaining) < 4 then return none
    let headerLen ← getIntLe
    if headerLen < 0 ∨ headerLen > maxReplyHeaderBytes then return none
    if (← remaining) < headerLen.toInt.toNat then return none
    skip headerLen.toInt.toNat
    readExceptionCodeLoop n

/-- `readExceptionCode`. -/
def readExceptionCode : Reading (Option Int32) := readExceptionCodeLoop 4

/-- `StringReadResult`. -/
inductive StringReadResult where
  | success (chars : List UInt16)
  | nullValue
  | failure
deriving DecidableEq, Repr

def readChars : Nat → Reading (List UInt16)
  | 0 => return []
  | n + 1 => do
    let c ← getShortLe
    let chars ← readChars n
    return c :: chars

/-- `readUtf16String`. It stops after the NUL, before any padding. -/
def readUtf16String : Reading StringReadResult := do
  if (← remaining) < 4 then return .failure
  let len ← getIntLe
  if len = -1 then return .nullValue
  if len < 0 then return .failure
  if len > 4096 then return .failure
  if (← remaining) < len.toInt.toNat * 2 + 2 then return .failure
  let chars ← readChars len.toInt.toNat
  let _ ← getShortLe
  return .success chars

/-- `readMessageField`. -/
def readMessageField : Reading (Option (List UInt16)) := do
  match ← readUtf16String with
  | .success chars => return some chars
  | .nullValue | .failure => return none

/-- The message of an exception, if there is room for its length. -/
def readMessage : Reading (Option (List UInt16)) := do
  if (← remaining) < 4 then return none
  readMessageField

/-- The error code of an `EX_SERVICE_SPECIFIC`, if there is room for it. -/
def readErrorCode : Reading (Option Int32) := do
  if (← remaining) < 4 then return none
  return some (← getIntLe)

section
variable (decodeUtf16 : List UInt16 → String)

/-- The summary of an `EX_SERVICE_SPECIFIC`. -/
def serviceSpecificSummary : Option Int32 → Option (List UInt16) → String
  | some errorCode, some message =>
    "ServiceSpecificException(" ++ toString errorCode.toInt ++ "): " ++ decodeUtf16 message
  | some errorCode, none => "ServiceSpecificException(" ++ toString errorCode.toInt ++ ")"
  | none, some message => "ServiceSpecificException: " ++ decodeUtf16 message
  | none, none => "ServiceSpecificException"

/-- The summary of any other exception. -/
def exceptionSummary (tag : String) : Option (List UInt16) → String
  | none => tag
  | some message => if message = [] then tag else tag ++ ": " ++ decodeUtf16 message

/-- `decodeException`. -/
def decodeException (code : Int32) : Reading (Option String) :=
  match exceptionTag code with
  | none => return none
  | some tag => do
    let message ← readMessage
    if code = exServiceSpecific then
      return some (serviceSpecificSummary decodeUtf16 (← readErrorCode) message)
    else return some (exceptionSummary decodeUtf16 tag message)

/-- The result for a value. -/
def valueResult (value : String) : ReplyDecodeResult :=
  { exception := none, value := some value, rawHexHint := none }

/-- The result for what is not structured. -/
def rawResult (parcel : List UInt8) : ReplyDecodeResult :=
  { exception := none, value := none, rawHexHint := some (rawHexHint parcel) }

/-- `readIntValue`, `readLongValue` and `readBooleanValue`: a value of `size` bytes, as a text. -/
def readNumber {α : Type} (size : Nat) (get : Reading α) (text : α → String) (parcel : List UInt8) :
    Reading ReplyDecodeResult := do
  if (← remaining) < size then return rawResult parcel
  return valueResult (text (← get))

def readIntValue : List UInt8 → Reading ReplyDecodeResult :=
  readNumber 4 getIntLe fun x => toString x.toInt

def readLongValue : List UInt8 → Reading ReplyDecodeResult :=
  readNumber 8 getLongLe fun x => toString x.toInt

def readBooleanValue : List UInt8 → Reading ReplyDecodeResult :=
  readNumber 4 getIntLe fun x => if x ≠ 0 then "true" else "false"

/-- `readStringValue`. -/
def readStringValue (parcel : List UInt8) : Reading ReplyDecodeResult := do
  match ← readUtf16String with
  | .success chars => return valueResult (decodeUtf16 chars)
  | .nullValue => return valueResult "null"
  | .failure => return rawResult parcel

/-- `readCharSequenceValue`. -/
def readCharSequenceValue (parcel : List UInt8) : Reading ReplyDecodeResult := do
  if (← remaining) < 4 then return rawResult parcel
  let kind ← getIntLe
  if kind = 0 then readStringValue decodeUtf16 parcel
  else if kind = 1 ∨ kind = 2 then return valueResult "<spanned charsequence>"
  else return rawResult parcel

/-- The value of a reply without an exception. -/
def readValue (parcel : List UInt8) (returnType : Option String) : Reading ReplyDecodeResult :=
  match returnType.map canonicalReturnType with
  | none => return rawResult parcel
  | some type =>
    if type = "void" then return { exception := none, value := none, rawHexHint := none }
    else if type = "int" then readIntValue parcel
    else if type = "long" then readLongValue parcel
    else if type = "boolean" then readBooleanValue parcel
    else if type = "String" then readStringValue decodeUtf16 parcel
    else if type = "CharSequence" then readCharSequenceValue decodeUtf16 parcel
    else return rawResult parcel

/-- What follows the headers and the code. -/
def readReply (parcel : List UInt8) (returnType : Option String) (exceptionCode : Int32) :
    Reading ReplyDecodeResult :=
  if exceptionCode ≠ 0 then do
    match ← decodeException decodeUtf16 exceptionCode with
    | none => return rawResult parcel
    | some summary => return { exception := some summary, value := none, rawHexHint := none }
  else readValue decodeUtf16 parcel returnType

/-- The body of `decodeJavaAidlReply`. -/
def readParcel (parcel : List UInt8) (returnType : Option String) : Reading ReplyDecodeResult := do
  match ← readExceptionCode with
  | none => return rawResult parcel
  | some exceptionCode => readReply decodeUtf16 parcel returnType exceptionCode

/-- `decodeJavaAidlReply`. -/
def decodeJavaAidlReply (parcel : List UInt8) (returnType : Option String) :
    Except Throwable ReplyDecodeResult :=
  if parcel.length < 4 then .ok (rawResult parcel)
  else (readParcel decodeUtf16 parcel returnType).run' { array := parcel }

end

end ReplyParser

end BinderTracer.App
