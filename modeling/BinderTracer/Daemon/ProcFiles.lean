import BinderTracer.Daemon.Symbolizer

/-!
# The text of `/proc`

What the symbolizer knows about a process it reads from two files: the start time from `/proc/<pid>/stat`,
the mappings from `/proc/<pid>/maps`. The name of a process stands in parentheses in the first file and may
have any bytes, parentheses and blanks included; the path of a mapping may have blanks.
-/

namespace BinderTracer.Daemon

open BinderTracer.Lib

/-! ### The readers -/

def decDigit (b : UInt8) : Option Nat := if 0x30 ≤ b ∧ b ≤ 0x39 then some (b.toNat - 0x30) else none

/-- `strconv.ParseUint(s, 10, 64)`. -/
def parseUint (s : Bytes) : Option UInt64 := (readNumeral decDigit 10 (2 ^ 64) s).map UInt64.ofNat

/-- `readProcStarttime`, with the content of the file unless it could not be read. -/
def readProcStarttime (data : Option Bytes) : Option UInt64 := do
  let s ← data
  let rp ← lastIndex 0x29 s
  if s.length ≤ rp + 2 then none
  else
    -- the state, the third field of the file, is the first one here
    let starttime ← (fields (s.drop (rp + 2)))[19]?
    parseUint starttime

/-- `dropCR` of `bufio`. -/
def dropCR (line : Bytes) : Bytes := if line.getLast? = some 0x0D then line.dropLast else line

/-- The buffer of the scanner, 1 MiB. -/
def maxTokenSize : Nat := 2 ^ 20

/-- The lines that a `bufio.Scanner` gives, unless one of them does not fit in its buffer. -/
def scanLines (text : Bytes) : Option (List Bytes) :=
  let lines := textLines 0x0A text
  if ∀ line ∈ lines, line.length < maxTokenSize then some (lines.map dropCR) else none

/-- `parseMapsLine`: `<start>-<end> <perms> <offset> <dev> <inode> [path]`. -/
def parseMapsLine (line : Bytes) : Option ProcMapsEntry :=
  match fields line with
  | range :: perms :: offsetField :: _ :: _ :: pathFields => do
    let (lo, hi) ← cutFirst 0x2D range
    let start ← parseHex lo
    let endAddr ← parseHex hi
    let offset ← parseHex offsetField
    some { start, endAddr, perms, offset, path := [0x20].intercalate pathFields }
  | _ => none

/-- The entries that `readProcMaps` reads, before it drops what is not executable. -/
def readMapsFile (data : Option Bytes) : Option (List ProcMapsEntry) := do
  let text ← data
  let lines ← scanLines text
  some (lines.filterMap parseMapsLine)

/-! ### What the kernel writes -/

/-- A digit, in lower case. -/
def hexChar (d : Nat) : UInt8 := if d < 10 then UInt8.ofNat (0x30 + d) else UInt8.ofNat (0x57 + d)

def decChar (d : Nat) : UInt8 := UInt8.ofNat (0x30 + d)

/-- An address or an offset: `%08lx`. -/
def addressText (a : UInt64) : Bytes := numeral hexChar 16 8 a.toNat

/-- A field without white space. -/
structure FieldText where
  bytes : Bytes
  isWord : IsWord spaces bytes

/-- A line of the maps. It fits in the scanner's buffer, and a new line in the path is escaped. -/
structure MapsLine where
  start : UInt64
  endAddr : UInt64
  perms : FieldText
  offset : UInt64
  dev : FieldText
  inode : FieldText
  padding : Nat
  path : Bytes
  oneLine : 0x0A ∉ path
  fits : perms.bytes.length + dev.bytes.length + inode.bytes.length + padding + path.length < maxTokenSize - 64

/-- The path is set off by blanks. -/
def MapsLine.text (m : MapsLine) : Bytes :=
  (addressText m.start ++ 0x2D :: addressText m.endAddr) ++ 0x20 :: (m.perms.bytes ++ 0x20 ::
    (addressText m.offset ++ 0x20 :: (m.dev.bytes ++ 0x20 :: (m.inode.bytes ++ 0x20 ::
      (List.replicate m.padding 0x20 ++ m.path)))))

/-- The mapping of a line, with single blanks in its path. -/
def MapsLine.entry (m : MapsLine) : ProcMapsEntry :=
  { start := m.start, endAddr := m.endAddr, perms := m.perms.bytes, offset := m.offset
    path := [0x20].intercalate (fields m.path) }

def mapsText (lines : List MapsLine) : Bytes := unlines 0x0A (lines.map MapsLine.text)

/-- The line of `/proc/<pid>/stat`. There are 19 fields between the name and the start time, and no
parenthesis after the name. -/
structure StatLine where
  pid : Bytes
  comm : Bytes
  before : List FieldText
  starttime : UInt64
  after : List FieldText
  position : before.length = 19
  noParenthesis : ∀ f ∈ before ++ after, 0x29 ∉ f.bytes

/-- The fields from the state on. -/
def StatLine.fieldTexts (st : StatLine) : List Bytes :=
  st.before.map FieldText.bytes ++ numeral decChar 10 1 st.starttime.toNat :: st.after.map FieldText.bytes

def StatLine.text (st : StatLine) : Bytes :=
  (st.pid ++ 0x20 :: 0x28 :: st.comm) ++ 0x29 :: 0x20 :: ([0x20].intercalate st.fieldTexts ++ [0x0A])

/-! ### Numbers -/

theorem hexDigit_hexChar : ∀ d < 16, hexDigit (hexChar d) = some d := by decide

theorem hexChar_not_head : ∀ d < 16, ∀ s ∈ spaces.texts, s.head? ≠ some (hexChar d) := by decide +kernel

theorem decDigit_decChar : ∀ d < 10, decDigit (decChar d) = some d := by decide

theorem decChar_not_head : ∀ d < 10, ∀ s ∈ spaces.texts, s.head? ≠ some (decChar d) := by decide +kernel

theorem blank_mem_spaces : [0x20] ∈ spaces.texts := by decide +kernel

theorem hexChar_ne_hyphen : ∀ d < 16, hexChar d ≠ 0x2D := by decide

theorem decChar_ne_parenthesis : ∀ d < 10, decChar d ≠ 0x29 := by decide

theorem parseHex_addressText (a : UInt64) : parseHex (addressText a) = some a := by
  rw [parseHex, addressText, readNumeral_numeral (by decide) hexDigit_hexChar (by decide) a.toNat_lt]
  exact congrArg some UInt64.ofNat_toNat

theorem parseUint_numeral (n : UInt64) : parseUint (numeral decChar 10 1 n.toNat) = some n := by
  rw [parseUint, readNumeral_numeral (by decide) decDigit_decChar (by decide) n.toNat_lt]
  exact congrArg some UInt64.ofNat_toNat

theorem isWord_addressText (a : UInt64) : IsWord spaces (addressText a) :=
  isWord_numeral (by decide) hexChar_not_head (by decide)

theorem hyphen_not_mem_addressText (a : UInt64) : 0x2D ∉ addressText a := by
  intro hmem
  obtain ⟨d, hd, hchar⟩ := exists_digit_of_mem_numeral (by decide) hmem
  exact hexChar_ne_hyphen d hd hchar.symm

theorem length_addressText (a : UInt64) : (addressText a).length ≤ 16 :=
  length_numeral_le (by decide) (by decide) a.toNat_lt

/-! ### The start time -/

theorem StatLine.mem_fieldTexts {st : StatLine} {w : Bytes} (h : w ∈ st.fieldTexts) :
    w = numeral decChar 10 1 st.starttime.toNat ∨ ∃ f ∈ st.before ++ st.after, w = f.bytes := by
  rcases List.mem_append.1 h with hbefore | htail
  · obtain ⟨f, hf, rfl⟩ := List.mem_map.1 hbefore
    exact .inr ⟨f, List.mem_append_left _ hf, rfl⟩
  · rcases List.mem_cons.1 htail with rfl | hafter
    · exact .inl rfl
    · obtain ⟨f, hf, rfl⟩ := List.mem_map.1 hafter
      exact .inr ⟨f, List.mem_append_right _ hf, rfl⟩

theorem StatLine.isWord_of_mem {st : StatLine} {w : Bytes} (h : w ∈ st.fieldTexts) : IsWord spaces w := by
  rcases mem_fieldTexts h with rfl | ⟨f, -, rfl⟩
  · exact isWord_numeral (by decide) decChar_not_head (by decide)
  · exact f.isWord

theorem StatLine.parenthesis_not_mem {st : StatLine} {w : Bytes} (h : w ∈ st.fieldTexts) : 0x29 ∉ w := by
  rcases mem_fieldTexts h with rfl | ⟨f, hf, rfl⟩
  · intro hmem
    obtain ⟨d, hd, hchar⟩ := exists_digit_of_mem_numeral (by decide) hmem
    exact decChar_ne_parenthesis d hd hchar.symm
  · exact st.noParenthesis f hf

/-- What follows the name. -/
theorem StatLine.parenthesis_not_mem_rest (st : StatLine) :
    0x29 ∉ (0x20 :: ([0x20].intercalate st.fieldTexts ++ [0x0A]) : Bytes) := by
  intro hmem
  rw [List.mem_cons, List.mem_append, List.mem_singleton] at hmem
  rcases hmem with hblank | hfields | hnewline
  · exact absurd hblank (by decide)
  · rcases mem_or_eq_of_mem_intercalate hfields with ⟨w, hw, hin⟩ | hblank
    · exact parenthesis_not_mem hw hin
    · exact absurd hblank (by decide)
  · exact absurd hnewline (by decide)

theorem StatLine.fields_rest (st : StatLine) :
    fields ([0x20].intercalate st.fieldTexts ++ [0x0A]) = st.fieldTexts := by
  rw [fields, words_append_cons _ [] (by decide +kernel), words_intercalate blank_mem_spaces fun w => isWord_of_mem,
    words_nil, List.append_nil]

theorem StatLine.getElem?_fieldTexts (st : StatLine) :
    st.fieldTexts[19]? = some (numeral decChar 10 1 st.starttime.toNat) := by
  have hlength : (st.before.map FieldText.bytes).length = 19 := (List.length_map _).trans st.position
  rw [fieldTexts, List.getElem?_append_right hlength.le, hlength]
  rfl

/-- The name has any bytes: the last parenthesis is the one after it. -/
theorem readProcStarttime_text (st : StatLine) : readProcStarttime (some st.text) = some st.starttime := by
  have hrp : lastIndex 0x29 st.text = some (st.pid ++ 0x20 :: 0x28 :: st.comm).length :=
    lastIndex_append_cons _ st.parenthesis_not_mem_rest
  have hrest : st.text.drop ((st.pid ++ 0x20 :: 0x28 :: st.comm).length + 2) =
      [0x20].intercalate st.fieldTexts ++ [0x0A] := List.drop_length_add_append 2
  have hlength : ¬ st.text.length ≤ (st.pid ++ 0x20 :: 0x28 :: st.comm).length + 2 := by
    simp only [StatLine.text, List.length_append, List.length_cons, List.length_nil]
    omega
  simp only [readProcStarttime, Option.bind_eq_bind, Option.bind_some, hrp, if_neg hlength, hrest, st.fields_rest,
    st.getElem?_fieldTexts, parseUint_numeral]

/-! ### The mappings -/

theorem fields_dropCR (line : Bytes) : fields (dropCR line) = fields line := by
  unfold dropCR
  split
  · next hlast =>
    have hline : line.dropLast ++ [0x0D] = line := List.dropLast_append_getLast? _ hlast
    nth_rewrite 2 [← hline]
    rw [fields, fields, words_append_cons _ [] (by decide +kernel), words_nil, List.append_nil]
  · rfl

theorem parseMapsLine_dropCR (line : Bytes) : parseMapsLine (dropCR line) = parseMapsLine line := by
  rw [parseMapsLine, parseMapsLine, fields_dropCR]

theorem MapsLine.isWord_range (m : MapsLine) :
    IsWord spaces (addressText m.start ++ 0x2D :: addressText m.endAddr) := by
  have hdigit : ∀ a, ∀ b ∈ addressText a, ∀ s ∈ spaces.texts, s.head? ≠ some b := by
    intro a b hb
    obtain ⟨d, hd, rfl⟩ := exists_digit_of_mem_numeral (by decide) hb
    exact hexChar_not_head d hd
  exact isWord_of_head (by simp) (List.forall_mem_append.2
    ⟨hdigit _, List.forall_mem_cons.2 ⟨by decide +kernel, hdigit _⟩⟩)

theorem MapsLine.fields_text (m : MapsLine) :
    fields m.text =
      (addressText m.start ++ 0x2D :: addressText m.endAddr) :: m.perms.bytes :: addressText m.offset ::
        m.dev.bytes :: m.inode.bytes :: fields m.path := by
  simp only [fields, MapsLine.text, m.isWord_range.words_append_cons blank_mem_spaces,
    m.perms.isWord.words_append_cons blank_mem_spaces, (isWord_addressText m.offset).words_append_cons blank_mem_spaces,
    m.dev.isWord.words_append_cons blank_mem_spaces, m.inode.isWord.words_append_cons blank_mem_spaces,
    words_replicate_append blank_mem_spaces]

theorem parseMapsLine_text (m : MapsLine) : parseMapsLine m.text = some m.entry := by
  simp only [parseMapsLine, m.fields_text, cutFirst_append_cons (hyphen_not_mem_addressText m.start),
    Option.bind_eq_bind, Option.bind_some, parseHex_addressText, MapsLine.entry]

theorem MapsLine.newline_not_mem (m : MapsLine) : 0x0A ∉ m.text := by
  have hword : ∀ {w : Bytes}, IsWord spaces w → 0x0A ∉ w := fun hw hmem =>
    hw.inside [0x0A] (by decide +kernel) ((List.singleton_infix_iff _ _).2 hmem)
  have hpadding : 0x0A ∉ List.replicate m.padding (0x20 : UInt8) := by
    intro hmem
    exact absurd (List.eq_of_mem_replicate hmem) (by decide)
  simp only [MapsLine.text, List.mem_append, List.mem_cons, hword m.perms.isWord, hword m.dev.isWord,
    hword m.inode.isWord, hword (isWord_addressText _), hpadding, m.oneLine]
  decide

theorem MapsLine.length_text (m : MapsLine) : m.text.length < maxTokenSize := by
  have hstart := length_addressText m.start
  have hend := length_addressText m.endAddr
  have hoffset := length_addressText m.offset
  have hfits := m.fits
  simp only [MapsLine.text, List.length_append, List.length_cons, List.length_replicate]
  omega

theorem scanLines_mapsText (lines : List MapsLine) :
    scanLines (mapsText lines) = some ((lines.map MapsLine.text).map dropCR) := by
  have htext : textLines 0x0A (mapsText lines) = lines.map MapsLine.text := by
    refine textLines_unlines ?_
    rintro line hline
    obtain ⟨m, -, rfl⟩ := List.mem_map.1 hline
    exact m.newline_not_mem
  have hfits : ∀ line ∈ lines.map MapsLine.text, line.length < maxTokenSize := by
    intro line hline
    obtain ⟨m, -, rfl⟩ := List.mem_map.1 hline
    exact m.length_text
  simp only [scanLines, htext]
  rw [if_pos hfits]

theorem readMapsFile_mapsText (lines : List MapsLine) :
    readMapsFile (some (mapsText lines)) = some (lines.map MapsLine.entry) := by
  have hparse : (parseMapsLine ∘ dropCR) ∘ MapsLine.text = some ∘ MapsLine.entry := by
    funext m
    exact (parseMapsLine_dropCR m.text).trans (parseMapsLine_text m)
  simp only [readMapsFile, Option.bind_eq_bind, Option.bind_some, scanLines_mapsText, List.filterMap_map, hparse]
  rw [← List.filterMap_map, List.filterMap_some]

/-- A path is kept as it is exactly if its words are set apart by single blanks. -/
theorem MapsLine.path_entry_iff (m : MapsLine) :
    m.entry.path = m.path ↔ ∃ ws : List Bytes, (∀ w ∈ ws, IsWord spaces w) ∧ m.path = [0x20].intercalate ws := by
  constructor
  · intro hpath
    exact ⟨fields m.path, fun w hw => isWord_of_mem_words hw, hpath.symm⟩
  · rintro ⟨ws, hws, hpath⟩
    rw [MapsLine.entry, hpath, fields, words_intercalate blank_mem_spaces hws]

/-- **What the kernel says about a process is read back**: the start time whatever the process is called, and
every mapping, whose path is kept exactly if its words are set apart by single blanks. -/
theorem proc_text_read_back (st : StatLine) (lines : List MapsLine) :
    readProcStarttime (some st.text) = some st.starttime ∧
      readMapsFile (some (mapsText lines)) = some (lines.map MapsLine.entry) ∧
      ∀ m : MapsLine, m.entry.path = m.path ↔
        ∃ ws : List Bytes, (∀ w ∈ ws, IsWord spaces w) ∧ m.path = [0x20].intercalate ws :=
  ⟨readProcStarttime_text st, readMapsFile_mapsText lines, MapsLine.path_entry_iff⟩

end BinderTracer.Daemon
