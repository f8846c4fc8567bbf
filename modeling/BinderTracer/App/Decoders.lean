import BinderTracer.App.TransactionPairer
import BinderTracer.Lib.ByteOrder
import Mathlib.Data.List.Infix

/-!
# The decoder pipeline

`ParcelParser.decodePipeline` and its eight decoders, each of which recognises one way to begin a parcel.
The method resolver, the parser of replies and the table of handles are parameters; what they throw is
caught where they are called, so they are total here. The characters of an interface name are 16-bit
units; a name is accepted only if they are letters, digits, dots, underscores or dollar signs.
-/

namespace BinderTracer.App

open BinderTracer.Lib

inductive Confidence where
  | high | medium | low
deriving DecidableEq, Repr

structure DecodeResult where
  interfaceName : String
  methodHint : Option String
  payloadStart : Int
  source : DecodeSource
  confidence : Confidence
deriving DecidableEq, Repr

/-- `ReplyParser.ReplyDecodeResult`. -/
structure ReplyDecodeResult where
  exception : Option String
  value : Option String
  rawHexHint : Option String
deriving DecidableEq, Repr

/-! ### Interface tokens -/

/-- `(n + 3) and 0x3.inv()`: the next multiple of 4. -/
def padTo4 (n : Nat) : Nat := (n + 3) / 4 * 4

/-- `MAX_INTERFACE_NAME_CHARS`. -/
abbrev maxInterfaceNameChars : Int32 := 4096

/-- `SYST_MAGIC`. -/
abbrev systMagic : UInt32 := 0x53595354

/-- A character of `[A-Za-z0-9._$]`. -/
def isNameUnit (c : UInt16) : Bool :=
  c = 0x2E ∨ c = 0x5F ∨ c = 0x24 ∨ 0x30 ≤ c ∧ c ≤ 0x39 ∨ 0x61 ≤ c ∧ c ≤ 0x7A ∨ 0x41 ≤ c ∧ c ≤ 0x5A

/-- `isLikelyInterfaceNameRelaxed`. -/
def isLikelyInterfaceNameRelaxed (s : List UInt16) : Bool := s ≠ [] ∧ s.all isNameUnit

/-- `isLikelyInterfaceName`: there is also a dot. -/
def isLikelyInterfaceName (s : List UInt16) : Bool := isLikelyInterfaceNameRelaxed s ∧ 0x2E ∈ s

/-- The `n` 16-bit units from `start` on. -/
def unitsAt (data : List UInt8) (start n : Nat) : List UInt16 :=
  (List.range n).map fun i => leUInt16 data (start + 2 * i)

/-- `String(chars)`, for the characters that a name may have. -/
def nameText (units : List UInt16) : String := String.ofList (units.map fun c => Char.ofNat c.toNat)

/-- `readUtf16NameAt`: the name whose length stands at `lenOffset`, and the offset after its padding. -/
def readUtf16NameAt (data : List UInt8) (lenOffset : Nat) (requireDot : Bool) : Option (String × Nat) :=
  if data.length < lenOffset + 4 then none
  else
    let length := (leUInt32 data lenOffset).toInt32
    if length < 1 ∨ length > maxInterfaceNameChars then none
    else
      let n := length.toInt.toNat
      let charsBytes := (n + 1) * 2
      let charsStart := lenOffset + 4
      if data.length < charsStart + charsBytes then none
      else
        let chars := unitsAt data charsStart n
        if (if requireDot then isLikelyInterfaceName chars else isLikelyInterfaceNameRelaxed chars) then
          some (nameText chars, charsStart + padTo4 charsBytes)
        else none

/-- A decoder of the family of AIDL headers: parcels of at least `lenOffset + 4` bytes, with the name
after a header of `lenOffset` bytes. -/
def aidlDecoder (lenOffset : Nat) (requireDot : Bool) (source : DecodeSource) (confidence : Confidence)
    (event : BinderEvent) : Option DecodeResult :=
  if event.rawParcel.length < lenOffset + 4 then none
  else (readUtf16NameAt event.rawParcel lenOffset requireDot).map fun (name, payloadStart) =>
    { interfaceName := name, methodHint := none, payloadStart, source, confidence }

/-- `AidlQDecoder`, the only one that looks for a magic word. -/
def aidlQDecoder (event : BinderEvent) : Option DecodeResult :=
  if event.rawParcel.length < 16 then none
  else if leUInt32 event.rawParcel 8 ≠ systMagic then none
  else aidlDecoder 12 false .aidlQ .high event

/-- `AidlPDecoder`. -/
def aidlPDecoder : BinderEvent → Option DecodeResult := aidlDecoder 8 true .aidlP .medium

/-- `AidlODecoder`. -/
def aidlODecoder : BinderEvent → Option DecodeResult := aidlDecoder 4 true .aidlO .medium

/-! ### The other decoders -/

/-- `asciiCode`. -/
def asciiCode (a b c d : Char) : Int32 :=
  (UInt32.ofNat (a.toNat * 2 ^ 24 + b.toNat * 2 ^ 16 + c.toNat * 2 ^ 8 + d.toNat)).toInt32

/-- `SPECIAL_CODES`. -/
def specialCodes : List (Int32 × String) :=
  [(asciiCode '_' 'P' 'N' 'G', "PING_TRANSACTION"),
   (asciiCode '_' 'D' 'M' 'P', "DUMP_TRANSACTION"),
   (asciiCode '_' 'C' 'M' 'D', "SHELL_COMMAND_TRANSACTION"),
   (asciiCode '_' 'N' 'T' 'F', "INTERFACE_TRANSACTION"),
   (asciiCode '_' 'S' 'P' 'R', "SYSPROPS_TRANSACTION"),
   (asciiCode '_' 'E' 'X' 'T', "EXTENSION_TRANSACTION"),
   (0x00FFFFFE, "HIDL_GET_DESCRIPTOR_TRANSACTION"),
   (0x00FFFFFD, "HIDL_DESCRIPTOR_CHAIN_TRANSACTION"),
   (0x00FFFFFC, "HIDL_PING_TRANSACTION"),
   (0x00FFFFFF, "HIDL_LINK_TO_DEATH_TRANSACTION")]

/-- `SpecialCodeDecoder`. -/
def specialCodeDecoder (event : BinderEvent) : Option DecodeResult :=
  (specialCodes.lookup event.code).map fun name =>
    { interfaceName := "<protocol>", methodHint := some name, payloadStart := -1, source := .specialCode,
      confidence := .high }

/-- The bytes from `lo` to `0x7E` at the start of a parcel, `maxLen` at most. -/
def leadingAscii (lo : UInt8) (maxLen : Nat) (data : List UInt8) : List UInt8 :=
  (data.take maxLen).takeWhile fun b => lo ≤ b ∧ b ≤ 0x7E

def asciiText (bytes : List UInt8) : String := String.ofList (bytes.map fun b => Char.ofNat b.toNat)

/-- `HidlDescriptorDecoder`. -/
def hidlDescriptorDecoder (event : BinderEvent) : Option DecodeResult :=
  if event.rawParcel = [] then none
  else
    let ascii := leadingAscii 0x20 256 event.rawParcel
    let hasShape := 0x40 ∈ ascii ∧ [0x3A, 0x3A] <:+: ascii
    let devHint := event.binderDev = .hwbinder
    if ¬devHint ∧ ¬hasShape then none
    else if ascii.length < 8 ∨ ¬hasShape then none
    else
      some { interfaceName := asciiText ascii, methodHint := none, payloadStart := -1,
             source := .hidlDescriptor, confidence := if devHint then .high else .medium }

/-- `RawAsciiHeuristicDecoder`. -/
def rawAsciiHeuristicDecoder (event : BinderEvent) : Option DecodeResult :=
  if event.rawParcel.length < 8 then none
  else
    let ascii := leadingAscii 0x21 256 event.rawParcel
    if ascii.length < 8 then none
    else if 0x2E ∉ ascii then none
    else
      some { interfaceName := asciiText ascii, methodHint := none, payloadStart := -1, source := .rawAscii,
             confidence := .low }

/-- What the decoders get from the rest of the app. -/
structure ParserEnv where
  transactionPairer : TransactionPairer
  currentTargetUid : Int32
  now : Int64
  /-- `MethodResolver.getMethodSignature`, if there is a resolver. -/
  getMethodSignature : Option (String → Int32 → List String → Option MethodSignature)
  /-- `ReplyParser.decodeJavaAidlReply`, for a parcel and a type of return values. -/
  decodeJavaAidlReply : List UInt8 → Option String → ReplyDecodeResult
  /-- The process that owns a handle, as seen from a process. -/
  lookupHandle : Int32 → Int64 → Option String

/-- Digits in base 16, capital letters. -/
def hexDigits (n : Nat) : String := String.ofList ((Nat.toDigits 16 n).map Char.toUpper)

/-- `TargetRefDecoder`. -/
def targetRefDecoder (env : ParserEnv) (event : BinderEvent) : DecodeResult :=
  let ifaceName :=
    if event.targetRef = 0 then "unknown"
    else
      let sign := if event.targetRef < 0 then "-" else ""
      let raw := "target@0x" ++ sign ++ hexDigits event.targetRef.toInt.natAbs
      match env.lookupHandle event.pid event.targetRef with
      | some processName => raw ++ " → " ++ processName
      | none => raw
  { interfaceName := ifaceName, methodHint := some (BinderEvent.codeText event.code), payloadStart := -1,
    source := .targetRef, confidence := .low }

/-- `formatRawHexHint`: the first 32 bytes. -/
def formatRawHexHint (parcel : List UInt8) : String :=
  let byteText (b : UInt8) := if b < 16 then "0" ++ hexDigits b.toNat else hexDigits b.toNat
  String.intercalate " " ((parcel.take 32).map byteText) ++ if 32 < parcel.length then " …" else ""

/-- A result of the pipeline, with what it sets on the event and the pairer it leaves. -/
structure Decoded where
  result : DecodeResult
  parsedReply : Option ReplyDecodeResult
  transactionPairer : TransactionPairer

namespace ReplyDecoder

/-- The result for a reply of this interface and this hint. -/
def replyResult (interfaceName hint : String) (confidence : Confidence) : DecodeResult :=
  { interfaceName, methodHint := some hint, payloadStart := -1, source := .reply, confidence }

/-- The hint of a reply that is paired with a request of this method, and the confidence in it. -/
def inheritedHint (reply : ReplyDecodeResult) (baseMethod : Option String) : String × Confidence :=
  let methodLabel := baseMethod.getD "← reply"
  match reply.exception, reply.value, baseMethod with
  | some exception, _, _ => (methodLabel ++ " ← reply (exception: " ++ exception ++ ")", .medium)
  | none, some value, _ => (methodLabel ++ " ← reply = " ++ value, .high)
  | none, none, some method => (method ++ " (reply)", .high)
  | none, none, none => ("← reply (matched)", .high)

/-- `decodeWithInheritance`. -/
def decodeWithInheritance (env : ParserEnv) (event : BinderEvent) (found : PairResult) :
    DecodeResult × Option ReplyDecodeResult :=
  match env.getMethodSignature, found.interfaceName with
  | some getMethodSignature, some interfaceName =>
    let isJavaAidl := event.binderDev = .binder ∧
      (found.decodeSource = some .aidlQ ∨ found.decodeSource = some .aidlP ∨ found.decodeSource = some .aidlO)
    let signature :=
      if isJavaAidl then getMethodSignature interfaceName found.code found.resolveCandidates else none
    let reply :=
      if isJavaAidl then env.decodeJavaAidlReply event.rawParcel (signature.bind MethodSignature.returnType)
      else { exception := none, value := none, rawHexHint := some (formatRawHexHint event.rawParcel) }
    let (hint, confidence) := inheritedHint reply found.methodName
    (replyResult interfaceName hint confidence, some reply)
  | _, _ =>
    let hint := (found.methodName.map (· ++ " (reply)")).getD "← reply (matched)"
    (replyResult (found.interfaceName.getD "(reply)") hint .high, none)

/-- `ReplyDecoder.tryDecode`. -/
def tryDecode (env : ParserEnv) (event : BinderEvent) : Option Decoded :=
  if ¬event.isReply then none
  else
    let (matched, transactionPairer) :=
      if event.pairId ≠ 0 then env.transactionPairer.tryMatchReply event env.currentTargetUid env.now
      else (none, env.transactionPairer)
    match matched with
    | some found =>
      let (result, parsedReply) := decodeWithInheritance env event found
      some { result, parsedReply, transactionPairer }
    | none =>
      let reply :=
        if event.binderDev = .binder then env.decodeJavaAidlReply event.rawParcel none
        else { exception := none, value := none, rawHexHint := some (formatRawHexHint event.rawParcel) }
      let hint := if event.pairId = 0 then "← reply (orphan)" else "← reply"
      some { result := replyResult "(reply)" hint .high, parsedReply := some reply, transactionPairer }

end ReplyDecoder

/-! ### The pipeline -/

/-- The decoders between `ReplyDecoder`, which takes every reply, and `TargetRefDecoder`, which takes
what is left. -/
def requestDecoders : List (BinderEvent → Option DecodeResult) :=
  [specialCodeDecoder, aidlQDecoder, aidlPDecoder, aidlODecoder, hidlDescriptorDecoder,
    rawAsciiHeuristicDecoder]

/-- `decodePipeline`. -/
def decodePipeline (env : ParserEnv) (event : BinderEvent) : Decoded :=
  match ReplyDecoder.tryDecode env event with
  | some decoded => decoded
  | none =>
    { result := (requestDecoders.findSome? (· event)).getD (targetRefDecoder env event)
      parsedReply := none
      transactionPairer := env.transactionPairer }

end BinderTracer.App
