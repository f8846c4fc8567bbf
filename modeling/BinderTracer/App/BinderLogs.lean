import BinderTracer.Lib.Decimal
import BinderTracer.Lib.Table
import BinderTracer.Lib.TextFields

/-!
# The dumps of the binder driver

The parts of `BinderHandleResolver` that read text: `parseHandleToNode` takes the handles of a process from the
dump of that process, `parseNodeOwnerMap` a process for each node from the dump of the whole driver, and
`readCmdline` the name of a process. The regular expressions are anchored at the beginning of a line and need no
backtracking, except that the one for nodes looks for its last part anywhere in the line.

A dump has a section for each binder device that the process uses, with handles of its own; only the sections of
`binder` count. What the driver writes about a process is read back (`binder_logs_read_back`).
-/

namespace BinderTracer.App

open BinderTracer.Lib

/-- `\s`. -/
def isRegexSpace (c : Char) : Bool := isSpace c && c.toNat ≠ 0x0B && c.toNat ≠ 0x85

/-- `Char.isWhitespace`. -/
def isWhitespace (c : Char) : Bool := (isSpace c && c.toNat ≠ 0x85) || (0x1C ≤ c.toNat && c.toNat ≤ 0x1F)

/-- What `.` does not match. -/
def isLineTerminator (c : Char) : Bool :=
  (0x0A ≤ c.toNat && c.toNat ≤ 0x0D) || c.toNat = 0x85 || c.toNat = 0x2028 || c.toNat = 0x2029

/-- `lineSequence`. -/
def lineSequence (text : List Char) : List (List Char) := anyLines '\r' '\n' text

/-- The zeros of Unicode; the other decimal digits of a script follow its zero. -/
def zeros : List Nat :=
  [0x30, 0x660, 0x6F0, 0x7C0, 0x966, 0x9E6, 0xA66, 0xAE6, 0xB66, 0xBE6, 0xC66, 0xCE6, 0xD66, 0xDE6, 0xE50, 0xED0,
    0xF20, 0x1040, 0x1090, 0x17E0, 0x1810, 0x1946, 0x19D0, 0x1A80, 0x1A90, 0x1B50, 0x1BB0, 0x1C40, 0x1C50, 0xA620,
    0xA8D0, 0xA900, 0xA9D0, 0xA9F0, 0xAA50, 0xABF0, 0xFF10, 0x104A0, 0x10D30, 0x11066, 0x110F0, 0x11136, 0x111D0,
    0x112F0, 0x11450, 0x114D0, 0x11650, 0x116C0, 0x11730, 0x118E0, 0x11950, 0x11C50, 0x11D50, 0x11DA0, 0x11F50,
    0x16A60, 0x16AC0, 0x16B50, 0x1D7CE, 0x1D7D8, 0x1D7E2, 0x1D7EC, 0x1D7F6, 0x1E140, 0x1E2F0, 0x1E4D0, 0x1E950,
    0x1FBF0]

def digitOf (c : Char) : Option Nat := (zeros.find? fun z => z ≤ c.toNat ∧ c.toNat < z + 10).map (c.toNat - ·)

/-- `\d`. -/
def isRegexDigit (c : Char) : Bool := (digitOf c).isSome

/-- `toIntOrNull`, of digits. One outside the basic plane is two characters there, which are no digits. -/
def toIntOrNull (digits : List Char) : Option Int32 :=
  (readNumeral (fun c => if c.toNat < 0x10000 then digitOf c else none) 10 (2 ^ 31) digits).map Int32.ofNat

/-- `REF_REGEX` after the blanks, up to the handle. -/
def refHead : List (ScanItem Char) :=
  [.word ['r', 'e', 'f'], .skip isRegexSpace, .skip isRegexDigit, .word [':'], .skip isRegexSpace,
    .word ['d', 'e', 's', 'c'], .skip isRegexSpace, .group isRegexDigit, .skip isRegexSpace]

/-- The rest of `REF_REGEX`. -/
def refTail : List (ScanItem Char) := [.word ['n', 'o', 'd', 'e'], .skip isRegexSpace, .group isRegexDigit]

/-- The groups of `REF_REGEX` in a line: the handle and the node. -/
def refMatch (line : List Char) : Option (List Char × List Char) :=
  match scan (refHead ++ refTail) (line.dropWhile isRegexSpace) with
  | some ([desc, node], _) => some (desc, node)
  | _ => none

/-- The beginning of `NODE_REGEX`, after the blanks. -/
def nodeRegex : List (ScanItem Char) :=
  [.word ['n', 'o', 'd', 'e'], .skip isRegexSpace, .group isRegexDigit, .word [':']]

/-- The end of `NODE_REGEX`. -/
def procRegex : List (ScanItem Char) := [.word ['p', 'r', 'o', 'c'], .skip isRegexSpace, .group isRegexDigit]

/-- The part `.*?` of `NODE_REGEX`: the first position at which the end of it matches. -/
def findProc : List Char → Option (List Char)
  | [] => none
  | c :: text =>
    match scan procRegex (c :: text) with
    | some ([pid], _) => some pid
    | _ => if isLineTerminator c then none else findProc text

/-- The groups of `NODE_REGEX` in a line: the node and the process. -/
def nodeMatch (line : List Char) : Option (List Char × List Char) :=
  match scan nodeRegex (line.dropWhile isRegexSpace) with
  | some ([node], rest) => (findProc rest).map fun pid => (node, pid)
  | _ => none

/-- The entry that the groups of a match stand for. -/
def entryOf (groups : Option (List Char × List Char)) : Option (Int32 × Int32) := do
  let (key, value) ← groups
  let key ← toIntOrNull key
  let value ← toIntOrNull value
  some (key, value)

/-- The body of the loop of `parseNodeOwnerMap`. -/
def nodeLine (m : Table Int32 Int32) (line : List Char) : Table Int32 Int32 :=
  match entryOf (nodeMatch line) with
  | some e => m.putIfAbsent e
  | none => m

/-- `parseNodeOwnerMap`. -/
def parseNodeOwnerMap (text : List Char) : Table Int32 Int32 := (lineSequence text).foldl nodeLine ∅

def contextWord : List Char := ['c', 'o', 'n', 't', 'e', 'x', 't', ' ']

def binderName : List Char := ['b', 'i', 'n', 'd', 'e', 'r']

/-- The body of the loop of `parseHandleToNode`, with `inBinderContext`. -/
def handleLine (s : Table Int32 Int32 × Bool) (line : List Char) : Table Int32 Int32 × Bool :=
  let trimmed := line.dropWhile isWhitespace
  if contextWord <+: trimmed then (s.1, trimmed = contextWord ++ binderName)
  else if !s.2 then s
  else
    match entryOf (refMatch line) with
    | some e => (s.1.putIfAbsent e, s.2)
    | none => s

/-- `parseHandleToNode`. -/
def parseHandleToNode (text : List Char) : Table Int32 Int32 := ((lineSequence text).foldl handleLine (∅, false)).1

/-- What a shell command returns. -/
structure ShellResult where
  code : Int32
  out : List Char
deriving DecidableEq, Repr

/-- `trim`. -/
def trim (text : List Char) : List Char := ((text.dropWhile isWhitespace).reverse.dropWhile isWhitespace).reverse

/-- `readCmdline`, from what the command returns. -/
def cmdlineName (pid : Int32) (result : ShellResult) : String :=
  let fallback := "pid=" ++ toString pid
  if result.code ≠ 0 then fallback
  else
    let first := trim (result.out.takeWhile (· ≠ '\x00'))
    if first = [] then fallback else String.ofList first

/-! ### What the driver writes -/

/-- A text without the end of a line. -/
structure LineText where
  text : List Char
  oneLine : ∀ c ∈ text, isLineTerminator c = false

/-- A number as the driver prints it, within 31 bits. -/
abbrev Printed := { n : Nat // n < 2 ^ 31 }

/-- A number in decimal. -/
def decimal (n : Nat) : List Char := numeral (fun d => Char.ofNat (0x30 + d)) 10 1 n

/-- A reference of a process: its number, its handle, the node, whether the process of the node is dead, and the
counts after that. -/
structure RefLine where
  ref : Nat
  desc : Printed
  dead : Bool
  node : Printed
  rest : LineText
  parted : StartsOther isRegexDigit rest.text

/-- The part from the node on. -/
def RefLine.nodeText (r : RefLine) : List Char :=
  (if r.dead then ['d', 'e', 'a', 'd', ' '] else []) ++
    (['n', 'o', 'd', 'e'] ++ ([' '] ++ (decimal r.node ++ r.rest.text)))

def RefLine.text (r : RefLine) : List Char :=
  ' ' :: ' ' :: (['r', 'e', 'f'] ++ ([' '] ++ (decimal r.ref ++ ([':'] ++ ([' '] ++ (['d', 'e', 's', 'c'] ++ ([' '] ++
    (decimal r.desc ++ ([' '] ++ r.nodeText)))))))))

/-- The entry of a reference. -/
def RefLine.entry (r : RefLine) : Int32 × Int32 := (Int32.ofNat r.desc, Int32.ofNat r.node)

/-- The first word of a line. -/
def firstWord (line : List Char) : List Char := (line.dropWhile isWhitespace).takeWhile (!isWhitespace ·)

/-- A line of the dump of a process: the head of a section, a reference, or one that begins with another word, as
those of threads, nodes and buffers do. -/
inductive ProcLine where
  | context (name : LineText)
  | ref (r : RefLine)
  | other (line : LineText) (noContext : firstWord line.text ≠ ['c', 'o', 'n', 't', 'e', 'x', 't'])
      (noRef : firstWord line.text ≠ ['r', 'e', 'f'])

def ProcLine.text : ProcLine → List Char
  | context name => contextWord ++ name.text
  | ref r => r.text
  | other line _ _ => line.text

def procText (lines : List ProcLine) : List Char := unlines '\n' (lines.map ProcLine.text)

/-- The references to living nodes in the sections of `binder`; `inBinder` tells whether the dump begins in one. -/
def refsOf (inBinder : Bool) : List ProcLine → List RefLine
  | [] => []
  | .context name :: lines => refsOf (name.text = binderName) lines
  | .ref r :: lines => if inBinder && !r.dead then r :: refsOf inBinder lines else refsOf inBinder lines
  | .other _ _ _ :: lines => refsOf inBinder lines

/-! ### Numbers and blanks -/

theorem toIntOrNull_decimal (n : Printed) : toIntOrNull (decimal n) = some (Int32.ofNat n) := by
  rw [toIntOrNull, decimal, readNumeral_numeral (by decide) (by decide) (by decide) n.2]
  rfl

theorem isRegexSpace_digit : ∀ d < 10, isRegexSpace (Char.ofNat (0x30 + d)) = false := by decide

theorem isLineTerminator_digit : ∀ d < 10, isLineTerminator (Char.ofNat (0x30 + d)) = false := by decide

theorem isRegexDigit_digit : ∀ d < 10, isRegexDigit (Char.ofNat (0x30 + d)) = true := by decide

theorem oneLine_of_all {text : List Char} (h : text.all (!isLineTerminator ·) = true) :
    ∀ c ∈ text, isLineTerminator c = false := by
  intro c hc
  exact (Bool.not_eq_true' _).mp (List.all_eq_true.1 h c hc)

theorem oneLine_decimal (n : Nat) : ∀ c ∈ decimal n, isLineTerminator c = false := by
  intro c hc
  obtain ⟨d, hd, rfl⟩ := exists_digit_of_mem_numeral (by decide) hc
  exact isLineTerminator_digit d hd

theorem isSpan_decimal (n : Nat) : IsSpan isRegexDigit (decimal n) where
  ne_nil := numeral_ne_nil (by decide)
  inside c hc := by
    obtain ⟨d, hd, rfl⟩ := exists_digit_of_mem_numeral (by decide) hc
    exact isRegexDigit_digit d hd

theorem isSpan_blank : IsSpan isRegexSpace [' '] := .singleton (by decide)

theorem startsOther_decimal (n : Nat) (rest : List Char) : StartsOther isRegexSpace (decimal n ++ rest) := by
  obtain ⟨c, digits, hdigits⟩ := List.exists_cons_of_ne_nil (isSpan_decimal n).ne_nil
  obtain ⟨d, hd, rfl⟩ := exists_digit_of_mem_numeral (by decide) (hdigits ▸ List.mem_cons_self : c ∈ decimal n)
  rw [hdigits]
  exact .cons (isRegexSpace_digit d hd) _

theorem lineSequence_unlines {lines : List (List Char)} (h : ∀ line ∈ lines, ∀ c ∈ line, isLineTerminator c = false) :
    lineSequence (unlines '\n' lines) = lines ++ [[]] := by
  refine anyLines_unlines (by decide) fun line hline c hc => ?_
  have hc := h line hline c hc
  refine ⟨?_, ?_⟩ <;> (rintro rfl; exact absurd hc (by decide))

/-! ### References -/

theorem RefLine.startsOther_nodeText (r : RefLine) : StartsOther isRegexSpace r.nodeText := by
  unfold nodeText
  split
  · exact .cons (by decide) _
  · exact .cons (by decide) _

/-- The line of a reference up to the handle. -/
theorem RefLine.scans_refHead (r : RefLine) : Scans refHead (r.text.drop 2) [decimal r.desc] r.nodeText :=
  .word _ (.skip isSpan_blank (startsOther_decimal _ _) (.skip (isSpan_decimal r.ref) (.cons (by decide) _) (.word _
    (.skip isSpan_blank (.cons (by decide) _) (.word _ (.skip isSpan_blank (startsOther_decimal _ _)
      (.group (isSpan_decimal r.desc) (.cons (by decide) _)
        (.skip isSpan_blank r.startsOther_nodeText (.nil r.nodeText)))))))))

/-- The rest of the line. -/
theorem RefLine.scan_refTail (r : RefLine) :
    scan refTail r.nodeText = if r.dead then none else some ([decimal r.node], r.rest.text) := by
  unfold nodeText
  split
  · exact congrArg (Option.bind · _) (afterText_cons_ne (by decide) _ _)
  · exact (Scans.word _ (.skip isSpan_blank (startsOther_decimal _ _)
      (.group (isSpan_decimal r.node) r.parted (.nil r.rest.text)))).scan_eq

/-- What is read from the line of a reference: the handle and the node, unless the node is dead. -/
theorem RefLine.refMatch_text (r : RefLine) :
    refMatch r.text = if r.dead then none else some (decimal r.desc, decimal r.node) := by
  have hblanks : r.text.dropWhile isRegexSpace = r.text.drop 2 := by
    rw [text, List.dropWhile_cons_of_pos (by decide), List.dropWhile_cons_of_pos (by decide)]
    exact List.dropWhile_cons_of_neg (by decide)
  rw [refMatch, hblanks, r.scans_refHead.scan_append refTail, r.scan_refTail]
  cases r.dead <;> rfl

theorem RefLine.oneLine (r : RefLine) : ∀ c ∈ r.text, isLineTerminator c = false := by
  have hnode : ∀ c ∈ r.nodeText, isLineTerminator c = false := by
    unfold nodeText
    simp only [List.forall_mem_append]
    refine ⟨?_, oneLine_of_all (by decide), oneLine_of_all (by decide), oneLine_decimal _, r.rest.oneLine⟩
    split <;> exact oneLine_of_all (by decide)
  unfold text
  simp only [List.forall_mem_append, List.forall_mem_cons, List.not_mem_nil, false_implies, implies_true, and_true]
  exact ⟨by decide, by decide, by decide, by decide, oneLine_decimal _, by decide, by decide, by decide, by decide,
    oneLine_decimal _, by decide, hnode⟩

/-! ### The dump of a process -/

theorem handleLine_context (s : Table Int32 Int32 × Bool) (name : LineText) :
    handleLine s (contextWord ++ name.text) = (s.1, decide (name.text = binderName)) := by
  have htrim : (contextWord ++ name.text).dropWhile isWhitespace = contextWord ++ name.text :=
    List.dropWhile_cons_of_neg (by decide)
  rw [handleLine, htrim, if_pos (List.prefix_append _ _)]
  simp only [List.append_cancel_left_eq]

theorem handleLine_ref (s : Table Int32 Int32 × Bool) (r : RefLine) :
    handleLine s r.text = if s.2 && !r.dead then (s.1.putIfAbsent r.entry, s.2) else s := by
  have htrim : r.text.dropWhile isWhitespace = r.text.drop 2 := by
    rw [RefLine.text, List.dropWhile_cons_of_pos (by decide), List.dropWhile_cons_of_pos (by decide)]
    exact List.dropWhile_cons_of_neg (by decide)
  have hcontext : ¬contextWord <+: r.text.drop 2 := fun h => absurd (List.cons_prefix_cons.1 h).1 (by decide)
  rw [handleLine, htrim, if_neg hcontext, r.refMatch_text]
  cases s.2 with
  | false => rfl
  | true =>
    cases r.dead with
    | true => rfl
    | false =>
      simp only [entryOf, Option.bind_eq_bind, Option.bind_some, toIntOrNull_decimal, Bool.not_true,
        Bool.false_eq_true, if_false]
      rfl

theorem isWhitespace_of_isRegexSpace {c : Char} (h : isRegexSpace c = true) : isWhitespace c = true := by
  simp only [isRegexSpace, isWhitespace, Bool.and_eq_true, Bool.or_eq_true] at h ⊢
  exact .inl ⟨h.1.1, h.2⟩

theorem firstWord_of_context {line : List Char} (h : contextWord <+: line.dropWhile isWhitespace) :
    firstWord line = ['c', 'o', 'n', 't', 'e', 'x', 't'] := by
  obtain ⟨rest, hrest⟩ := h
  rw [firstWord, ← hrest]
  rfl

/-- A match begins with its word and a blank. -/
theorem refMatch_eq_none {line : List Char} (h : firstWord line ≠ ['r', 'e', 'f']) : refMatch line = none := by
  have hscan : scan (refHead ++ refTail) (line.dropWhile isRegexSpace) = none := by
    refine Option.eq_none_iff_forall_ne_some.2 fun found hfound => h ?_
    obtain ⟨text, hafter, hfound⟩ := Option.bind_eq_some_iff.1 hfound
    obtain ⟨span, hspan, -⟩ := Option.bind_eq_some_iff.1 hfound
    obtain ⟨c, rest, rfl, hc⟩ := spanSome_eq_some hspan
    have hblanks : ∀ b ∈ line.takeWhile isRegexSpace, isWhitespace b = true := fun b hb =>
      isWhitespace_of_isRegexSpace (List.mem_takeWhile_imp hb)
    have hwhite := isWhitespace_of_isRegexSpace hc
    rw [firstWord, ← List.takeWhile_append_dropWhile (p := isRegexSpace) (l := line), eq_append_of_afterText hafter,
      List.dropWhile_append_of_pos hblanks]
    change 'r' :: 'e' :: 'f' :: (c :: rest).takeWhile (!isWhitespace ·) = _
    rw [List.takeWhile_cons_of_neg (by rw [hwhite]; decide)]
  rw [refMatch, hscan]

theorem handleLine_other {line : List Char} (noContext : firstWord line ≠ ['c', 'o', 'n', 't', 'e', 'x', 't'])
    (noRef : firstWord line ≠ ['r', 'e', 'f']) (s : Table Int32 Int32 × Bool) : handleLine s line = s := by
  rw [handleLine, if_neg (mt firstWord_of_context noContext), refMatch_eq_none noRef]
  split <;> rfl

/-- The loop enters the references that count, one after another. -/
theorem foldl_handleLine (lines : List ProcLine) (s : Table Int32 Int32 × Bool) :
    ((lines.map ProcLine.text).foldl handleLine s).1 =
      ((refsOf s.2 lines).map RefLine.entry).foldl AList.putIfAbsent s.1 := by
  induction lines generalizing s with
  | nil => rfl
  | cons line lines ih =>
    rw [List.map_cons, List.foldl_cons, ih]
    cases line with
    | context name => rw [ProcLine.text, handleLine_context, refsOf]
    | ref r =>
      rw [ProcLine.text, handleLine_ref, refsOf]
      split <;> rfl
    | other line noContext noRef => rw [ProcLine.text, handleLine_other noContext noRef, refsOf]

theorem ProcLine.oneLine (line : ProcLine) : ∀ c ∈ line.text, isLineTerminator c = false := by
  cases line with
  | context name => exact List.forall_mem_append.2 ⟨oneLine_of_all (by decide), name.oneLine⟩
  | ref r => exact r.oneLine
  | other line noContext noRef => exact line.oneLine

theorem parseHandleToNode_procText (lines : List ProcLine) :
    parseHandleToNode (procText lines) = ((refsOf false lines).map RefLine.entry).foldl AList.putIfAbsent ∅ := by
  have hlines : ∀ line ∈ lines.map ProcLine.text, ∀ c ∈ line, isLineTerminator c = false := by
    intro text htext
    obtain ⟨line, -, rfl⟩ := List.mem_map.1 htext
    exact line.oneLine
  have hend : ∀ s, handleLine s [] = s := handleLine_other (by decide) (by decide)
  rw [parseHandleToNode, procText, lineSequence_unlines hlines, List.foldl_append, List.foldl_cons, List.foldl_nil,
    hend, foldl_handleLine]

/-- **The dump of a process is read back**: a handle leads to the node of its first living reference in the sections
of `binder`, whatever the other sections and the other lines hold. -/
theorem binder_logs_read_back (lines : List ProcLine) (handle : Int32) :
    (parseHandleToNode (procText lines)).lookup handle =
      (((refsOf false lines).map RefLine.entry).find? fun e => e.1 = handle).map Prod.snd := by
  rw [parseHandleToNode_procText, AList.lookup_foldl_putIfAbsent]
  rfl

end BinderTracer.App
