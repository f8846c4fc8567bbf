import Mathlib.Data.Nat.Digits.Lemmas
import Mathlib.Data.List.Find
import Mathlib.Data.List.TakeWhile

/-!
# Lines, words and numerals

Text that is written for people and read by programs: lines that end with a separator, words between white
space, and numbers in some base. Each has a reader and a writer, and what is written is read back whatever
stands around it.
-/

namespace BinderTracer.Lib

variable {α : Type}

/-! ### Words -/

/-- Separators, of which none is the beginning of another and none begins inside one. -/
structure Separators (α : Type) where
  texts : List (List α)
  ne_nil : [] ∉ texts
  eq_of_isPrefix : ∀ s ∈ texts, ∀ t ∈ texts, s <+: t → s = t
  apart : ∀ s ∈ texts, ∀ t ∈ texts, t.head? ∉ s.tail.map some

/-- Not empty, and without a separator. -/
structure IsWord (seps : Separators α) (word : List α) : Prop where
  ne_nil : word ≠ []
  inside : ∀ s ∈ seps.texts, ¬s <:+: word

/-- A text in which no separator begins. -/
theorem isWord_of_head {seps : Separators α} {word : List α} (hne : word ≠ [])
    (h : ∀ a ∈ word, ∀ s ∈ seps.texts, s.head? ≠ some a) : IsWord seps word where
  ne_nil := hne
  inside s hs hpart := by
    cases s with
    | nil => exact seps.ne_nil hs
    | cons a s => exact h a (hpart.subset List.mem_cons_self) _ hs rfl

/-- What does not contain an element does not reach beyond it. -/
theorem isPrefix_append_cons {s before after : List α} {a : α} (ha : a ∉ s) :
    s <+: before ++ a :: after ↔ s <+: before := by
  refine ⟨fun h => ?_, fun h => h.trans (List.prefix_append _ _)⟩
  have hwhole : before ++ [a] <+: before ++ a :: after := ⟨after, List.append_assoc before [a] after⟩
  rcases List.prefix_or_prefix_of_prefix h hwhole with hs | hs
  · exact (List.prefix_concat_iff.1 hs).resolve_left fun heq => ha (heq ▸ List.mem_concat_self)
  · exact absurd (hs.subset List.mem_concat_self) ha

section Words
variable [DecidableEq α]

/-- The parts between separators, with so many elements of a separator still to come. -/
def splitAtTexts (texts : List (List α)) : Nat → List α → List (List α)
  | _, [] => [[]]
  | skip + 1, _ :: text => splitAtTexts texts skip text
  | 0, a :: text =>
    match texts.find? (· <+: a :: text) with
    | some s => [] :: splitAtTexts texts (s.length - 1) text
    | none => (splitAtTexts texts 0 text).modifyHead (a :: ·)

/-- The parts between separators that are not empty. -/
def words (seps : Separators α) (text : List α) : List (List α) :=
  (splitAtTexts seps.texts 0 text).filter fun word => word ≠ []

section Parts
variable {texts : List (List α)} {a : α} {text : List α}

theorem splitAtTexts_some {s : List α} (h : texts.find? (· <+: a :: text) = some s) :
    splitAtTexts texts 0 (a :: text) = [] :: splitAtTexts texts (s.length - 1) text := by rw [splitAtTexts, h]

theorem splitAtTexts_none (h : texts.find? (· <+: a :: text) = none) :
    splitAtTexts texts 0 (a :: text) = (splitAtTexts texts 0 text).modifyHead (a :: ·) := by rw [splitAtTexts, h]

/-- The first part is a beginning of the text, and no part contains a separator. -/
theorem splitAtTexts_spec (texts : List (List α)) (skip : Nat) (text : List α) :
    ∃ part parts, splitAtTexts texts skip text = part :: parts ∧ part <+: text.drop skip ∧
      (∀ s ∈ texts, s ≠ [] → ∀ w ∈ part :: parts, ¬s <:+: w) := by
  have hempty : ∀ s : List α, s ≠ [] → ¬s <:+: [] := fun s hne hs => hne (List.infix_nil.1 hs)
  induction text generalizing skip with
  | nil => exact ⟨[], [], by rw [splitAtTexts], List.nil_prefix, fun s _ hne w hw => by
      rw [List.mem_singleton.1 hw]; exact hempty s hne⟩
  | cons a text ih =>
    cases skip with
    | succ skip => exact ih skip
    | zero =>
      cases hfind : texts.find? (· <+: a :: text) with
      | some s =>
        obtain ⟨part, parts, heq, -, hparts⟩ := ih (s.length - 1)
        refine ⟨[], part :: parts, by rw [splitAtTexts_some hfind, heq], List.nil_prefix, fun t ht hne => ?_⟩
        exact List.forall_mem_cons.2 ⟨hempty t hne, hparts t ht hne⟩
      | none =>
        obtain ⟨part, parts, heq, hstarts, hparts⟩ := ih 0
        have hhead : a :: part <+: a :: text := List.cons_prefix_cons.2 ⟨rfl, hstarts⟩
        refine ⟨a :: part, parts, by rw [splitAtTexts_none hfind, heq]; rfl, hhead, fun s hs hne => ?_⟩
        obtain ⟨hpart, hrest⟩ := List.forall_mem_cons.1 (hparts s hs hne)
        refine List.forall_mem_cons.2 ⟨fun hwithin => ?_, hrest⟩
        rcases List.infix_cons_iff.1 hwithin with hbegins | hinside
        · exact List.find?_eq_none.1 hfind s hs (decide_eq_true (hbegins.trans hhead))
        · exact hpart hinside

theorem splitAtTexts_of_no_infix {word : List α} (h : ∀ s ∈ texts, ¬s <:+: word) :
    splitAtTexts texts 0 word = [word] := by
  induction word with
  | nil => rfl
  | cons a word ih =>
    have hnone : texts.find? (· <+: a :: word) = none :=
      List.find?_eq_none.2 fun s hs hp => h s hs (of_decide_eq_true hp).isInfix
    rw [splitAtTexts_none hnone, ih fun s hs hpart => h s hs (List.infix_cons hpart)]
    rfl

end Parts

variable {seps : Separators α}

@[simp] theorem words_nil : words seps [] = [] := rfl

theorem IsWord.words_eq {word : List α} (h : IsWord seps word) : words seps word = [word] := by
  rw [words, splitAtTexts_of_no_infix h.inside]
  exact List.filter_cons_of_pos (by simpa using h.ne_nil)

/-- A separator of one element ends a part wherever it stands. -/
theorem splitAtTexts_append_cons {a : α} (ha : [a] ∈ seps.texts) {before : List α} {skip : Nat}
    (hskip : skip ≤ before.length) (after : List α) :
    splitAtTexts seps.texts skip (before ++ a :: after) =
      splitAtTexts seps.texts skip before ++ splitAtTexts seps.texts 0 after := by
  induction before generalizing skip with
  | nil =>
    obtain rfl : skip = 0 := Nat.le_zero.1 hskip
    have hone : [a] <+: a :: after := List.prefix_append [a] after
    cases hfind : seps.texts.find? (· <+: a :: after) with
    | none => exact absurd (decide_eq_true hone) (List.find?_eq_none.1 hfind [a] ha)
    | some s =>
      have hs := List.mem_of_find?_eq_some hfind
      have hstarts : s <+: a :: after := by simpa using List.find?_some hfind
      have heq : s = [a] := (List.prefix_or_prefix_of_prefix hstarts hone).elim
        (seps.eq_of_isPrefix s hs [a] ha) fun h => (seps.eq_of_isPrefix [a] ha s hs h).symm
      rw [List.nil_append, splitAtTexts_some hfind, heq]
      rfl
  | cons b before ih =>
    cases skip with
    | succ skip => exact ih (Nat.le_of_succ_le_succ hskip)
    | zero =>
      have hsame : seps.texts.find? (· <+: b :: (before ++ a :: after)) = seps.texts.find? (· <+: b :: before) := by
        refine List.find?_congr fun s hs => decide_eq_decide.2 ?_
        cases s with
        | nil => exact absurd hs seps.ne_nil
        | cons c s =>
          have htail : a ∉ s := fun hmem => seps.apart _ hs _ ha (List.mem_map_of_mem hmem)
          rw [List.cons_prefix_cons, List.cons_prefix_cons, isPrefix_append_cons htail]
      cases hfind : seps.texts.find? (· <+: b :: before) with
      | some s =>
        have hstarts : s <+: b :: before := by simpa using List.find?_some hfind
        have hlength := hstarts.length_le
        rw [List.length_cons] at hlength
        rw [List.cons_append, splitAtTexts_some (hsame.trans hfind), splitAtTexts_some hfind, ih (by omega)]
        rfl
      | none =>
        obtain ⟨part, parts, heq, -⟩ := splitAtTexts_spec seps.texts 0 before
        rw [List.cons_append, splitAtTexts_none (hsame.trans hfind), splitAtTexts_none hfind, ih (Nat.zero_le _), heq]
        rfl

/-- A separator parts the words before it from those after it. -/
theorem words_append_cons (before after : List α) {a : α} (ha : [a] ∈ seps.texts) :
    words seps (before ++ a :: after) = words seps before ++ words seps after := by
  rw [words, splitAtTexts_append_cons ha (Nat.zero_le _), List.filter_append]
  rfl

theorem words_cons {a : α} (ha : [a] ∈ seps.texts) (text : List α) : words seps (a :: text) = words seps text :=
  words_append_cons [] text ha

theorem words_replicate_append {a : α} (ha : [a] ∈ seps.texts) (n : Nat) (text : List α) :
    words seps (List.replicate n a ++ text) = words seps text := by
  induction n with
  | zero => rfl
  | succ n ih => exact (words_cons ha _).trans ih

theorem IsWord.words_append_cons {word : List α} (h : IsWord seps word) {a : α} (ha : [a] ∈ seps.texts)
    (text : List α) : words seps (word ++ a :: text) = word :: words seps text := by
  rw [Lib.words_append_cons word text ha, h.words_eq]
  rfl

theorem isWord_of_mem_words {text word : List α} (h : word ∈ words seps text) : IsWord seps word := by
  obtain ⟨part, parts, heq, -, hinside⟩ := splitAtTexts_spec seps.texts 0 text
  rw [words, List.mem_filter, heq] at h
  exact ⟨by simpa using h.2, fun s hs => hinside s hs (fun hnil => seps.ne_nil (hnil ▸ hs)) word h.1⟩

/-- Words, one separator between each two. -/
theorem words_intercalate {a : α} (ha : [a] ∈ seps.texts) {ws : List (List α)} (h : ∀ w ∈ ws, IsWord seps w) :
    words seps ([a].intercalate ws) = ws := by
  induction ws with
  | nil => rfl
  | cons w ws ih =>
    have hw : IsWord seps w := h w List.mem_cons_self
    have hws : words seps ([a].intercalate ws) = ws := ih fun v hv => h v (List.mem_cons_of_mem w hv)
    cases ws with
    | nil => rw [List.intercalate_singleton, hw.words_eq]
    | cons v vs =>
      rw [List.intercalate_cons_cons, List.append_assoc]
      exact (hw.words_append_cons ha _).trans (congrArg (w :: ·) hws)

end Words

theorem mem_or_eq_of_mem_intercalate {a b : α} {ws : List (List α)} (h : b ∈ [a].intercalate ws) :
    (∃ w ∈ ws, b ∈ w) ∨ b = a := by
  induction ws with
  | nil => exact absurd h List.not_mem_nil
  | cons w ws ih =>
    cases ws with
    | nil => exact .inl ⟨w, List.mem_cons_self, by simpa using h⟩
    | cons v vs =>
      rw [List.intercalate_cons_cons, List.append_assoc, List.mem_append, List.mem_append, List.mem_singleton] at h
      rcases h with hw | rfl | hrest
      · exact .inl ⟨w, List.mem_cons_self, hw⟩
      · exact .inr rfl
      · exact (ih hrest).imp_left fun ⟨u, hu, hb⟩ => ⟨u, List.mem_cons_of_mem w hu, hb⟩


/-! ### The first and the last occurrence -/

section Occurrences
variable [DecidableEq α]

/-- What stands before and after the first occurrence. -/
def cutFirst (a : α) (text : List α) : Option (List α × List α) :=
  if a ∈ text then some (text.takeWhile (· ≠ a), (text.dropWhile (· ≠ a)).drop 1) else none

/-- Where the last occurrence is. -/
def lastIndex (a : α) (text : List α) : Option Nat :=
  if a ∈ text then some (text.length - 1 - (text.reverse.takeWhile (· ≠ a)).length) else none

theorem decide_ne_of_not_mem {a : α} {before : List α} (h : a ∉ before) : ∀ b ∈ before, decide (b ≠ a) = true := by
  intro b hb
  exact decide_eq_true fun hba => h (hba ▸ hb)

theorem takeWhile_ne {a : α} {before : List α} (h : a ∉ before) (after : List α) :
    (before ++ a :: after).takeWhile (· ≠ a) = before := by
  rw [List.takeWhile_append_of_pos (decide_ne_of_not_mem h), List.takeWhile_cons_of_neg (by simp), List.append_nil]

theorem cutFirst_append_cons {a : α} {before : List α} (h : a ∉ before) (after : List α) :
    cutFirst a (before ++ a :: after) = some (before, after) := by
  have hdrop : (before ++ a :: after).dropWhile (· ≠ a) = a :: after := by
    rw [List.dropWhile_append_of_pos (decide_ne_of_not_mem h), List.dropWhile_cons_of_neg (by simp)]
  rw [cutFirst, if_pos (List.mem_append_right before List.mem_cons_self), takeWhile_ne h, hdrop]
  rfl

theorem lastIndex_append_cons {a : α} (before : List α) {after : List α} (h : a ∉ after) :
    lastIndex a (before ++ a :: after) = some before.length := by
  have hreverse : (before ++ a :: after).reverse = after.reverse ++ a :: before.reverse := by simp
  rw [lastIndex, if_pos (List.mem_append_right before List.mem_cons_self), hreverse,
    takeWhile_ne (fun hmem => h (List.mem_reverse.1 hmem))]
  simp only [List.length_append, List.length_cons, List.length_reverse, Option.some.injEq]
  omega

end Occurrences

/-! ### Lines -/

section Lines
variable [DecidableEq α]

/-- The lines of a text. What follows the last new line is a line too, unless it is empty. -/
def textLines (newline : α) (text : List α) : List (List α) :=
  let parts := text.splitOn newline
  if parts.getLast? = some [] then parts.dropLast else parts

/-- Each line with a new line at its end. -/
def unlines (newline : α) (lines : List (List α)) : List α := lines.flatMap (· ++ [newline])

theorem splitOn_unlines {newline : α} {lines : List (List α)} (h : ∀ line ∈ lines, newline ∉ line) :
    (unlines newline lines).splitOn newline = lines ++ [[]] := by
  induction lines with
  | nil => rfl
  | cons line lines ih =>
    show ((line ++ [newline]) ++ unlines newline lines).splitOn newline = _
    rw [List.append_assoc]
    exact (List.splitOn_append_cons_self_of_not_mem (h line List.mem_cons_self) _).trans
      (congrArg (line :: ·) (ih fun l hl => h l (List.mem_cons_of_mem line hl)))

theorem textLines_unlines {newline : α} {lines : List (List α)} (h : ∀ line ∈ lines, newline ∉ line) :
    textLines newline (unlines newline lines) = lines := by
  simp only [textLines, splitOn_unlines h]
  rw [if_pos List.getLast?_concat, List.dropLast_concat]

end Lines

/-! ### Lines that end in any way -/

/-- The lines of a text, which are parted by either of two characters or by both in this order. -/
def anyLines [DecidableEq α] (cr lf : α) : List α → List (List α)
  | [] => [[]]
  | [a] => if a = cr ∨ a = lf then [[], []] else [[a]]
  | a :: b :: text =>
    if a = cr ∧ b = lf then [] :: anyLines cr lf text
    else if a = cr ∨ a = lf then [] :: anyLines cr lf (b :: text)
    else (anyLines cr lf (b :: text)).modifyHead (a :: ·)

section AnyLines
variable [DecidableEq α] {cr lf : α}

theorem anyLines_cons {a : α} (hcr : a ≠ cr) (hlf : a ≠ lf) (text : List α) :
    anyLines cr lf (a :: text) = (anyLines cr lf text).modifyHead (a :: ·) := by
  have hneither : ¬(a = cr ∨ a = lf) := by rintro (h | h) <;> contradiction
  cases text with
  | nil => exact if_neg hneither
  | cons b text => rw [anyLines, if_neg fun h => hcr h.1, if_neg hneither]

theorem anyLines_lf (hne : cr ≠ lf) (text : List α) : anyLines cr lf (lf :: text) = [] :: anyLines cr lf text := by
  cases text with
  | nil => exact if_pos (.inr rfl)
  | cons b text => rw [anyLines, if_neg fun h => hne h.1.symm, if_pos (.inr rfl)]

theorem anyLines_append_lf (hne : cr ≠ lf) {line : List α} (hline : ∀ a ∈ line, a ≠ cr ∧ a ≠ lf) (text : List α) :
    anyLines cr lf (line ++ lf :: text) = line :: anyLines cr lf text := by
  induction line with
  | nil => exact anyLines_lf hne text
  | cons a line ih =>
    obtain ⟨hcr, hlf⟩ := hline a List.mem_cons_self
    rw [List.cons_append, anyLines_cons hcr hlf, ih fun b hb => hline b (List.mem_cons_of_mem a hb),
      List.modifyHead_cons]

/-- Lines that end with the second of the characters are read back, and there is an empty one at the end. -/
theorem anyLines_unlines (hne : cr ≠ lf) {lines : List (List α)}
    (h : ∀ line ∈ lines, ∀ a ∈ line, a ≠ cr ∧ a ≠ lf) : anyLines cr lf (unlines lf lines) = lines ++ [[]] := by
  induction lines with
  | nil => rfl
  | cons line lines ih =>
    change anyLines cr lf ((line ++ [lf]) ++ unlines lf lines) = _
    rw [List.append_assoc]
    exact (anyLines_append_lf hne (h line List.mem_cons_self) _).trans
      (congrArg (line :: ·) (ih fun l hl => h l (List.mem_cons_of_mem line hl)))

end AnyLines

/-! ### Scanning from the left -/

section Scanning

/-- What comes after a given text. -/
def afterText [DecidableEq α] (word text : List α) : Option (List α) :=
  if word <+: text then some (text.drop word.length) else none

/-- As many elements of a kind as there are, at least one, and what comes after them. -/
def spanSome (p : α → Bool) (text : List α) : Option (List α × List α) :=
  if text.takeWhile p = [] then none else some (text.takeWhile p, text.dropWhile p)

/-- A part of a pattern: a given text, or as many elements of a kind as there are, at least one, which may be of
interest or not. -/
inductive ScanItem (α : Type) where
  | word (w : List α)
  | skip (p : α → Bool)
  | group (p : α → Bool)

/-- The groups of a pattern in a text, and what comes after it. -/
def scan [DecidableEq α] : List (ScanItem α) → List α → Option (List (List α) × List α)
  | [], text => some ([], text)
  | .word w :: items, text => (afterText w text).bind (scan items)
  | .skip p :: items, text => (spanSome p text).bind fun found => scan items found.2
  | .group p :: items, text =>
    (spanSome p text).bind fun found => (scan items found.2).map fun groups => (found.1 :: groups.1, groups.2)

/-- Elements of a kind, at least one. -/
structure IsSpan (p : α → Bool) (span : List α) : Prop where
  ne_nil : span ≠ []
  inside : ∀ a ∈ span, p a = true

/-- Nothing of the kind at the beginning. -/
def StartsOther (p : α → Bool) (text : List α) : Prop := ∀ a ∈ text.head?, p a = false

/-- A text that is written after a pattern, with its groups and with what comes after it. -/
inductive Scans : List (ScanItem α) → List α → List (List α) → List α → Prop where
  | nil (rest : List α) : Scans [] rest [] rest
  | word {items text groups rest} (w : List α) (h : Scans items text groups rest) :
    Scans (.word w :: items) (w ++ text) groups rest
  | skip {items text groups rest} {p : α → Bool} {span : List α} (hspan : IsSpan p span) (hother : StartsOther p text)
    (h : Scans items text groups rest) : Scans (.skip p :: items) (span ++ text) groups rest
  | group {items text groups rest} {p : α → Bool} {span : List α} (hspan : IsSpan p span) (hother : StartsOther p text)
    (h : Scans items text groups rest) : Scans (.group p :: items) (span ++ text) (span :: groups) rest

variable {p : α → Bool}

theorem IsSpan.singleton {a : α} (h : p a = true) : IsSpan p [a] where
  ne_nil := List.cons_ne_nil a []
  inside _ hb := List.mem_singleton.1 hb ▸ h

theorem StartsOther.cons {a : α} (h : p a = false) (text : List α) : StartsOther p (a :: text) := by
  rintro b ⟨⟩
  exact h

theorem StartsOther.dropWhile_eq {text : List α} (h : StartsOther p text) : text.dropWhile p = text := by
  cases text with
  | nil => rfl
  | cons a text => exact List.dropWhile_cons_of_neg (by rw [h a rfl]; decide)

theorem StartsOther.takeWhile_eq {text : List α} (h : StartsOther p text) : text.takeWhile p = [] := by
  cases text with
  | nil => rfl
  | cons a text => exact List.takeWhile_cons_of_neg (by rw [h a rfl]; decide)

theorem IsSpan.dropWhile_append {span rest : List α} (h : IsSpan p span) (hrest : StartsOther p rest) :
    (span ++ rest).dropWhile p = rest := by
  rw [List.dropWhile_append_of_pos h.inside, hrest.dropWhile_eq]

theorem spanSome_append {span rest : List α} (h : IsSpan p span) (hrest : StartsOther p rest) :
    spanSome p (span ++ rest) = some (span, rest) := by
  rw [spanSome, List.takeWhile_append_of_pos h.inside, h.dropWhile_append hrest, hrest.takeWhile_eq,
    List.append_nil, if_neg h.ne_nil]

theorem afterText_append [DecidableEq α] (word text : List α) : afterText word (word ++ text) = some text := by
  rw [afterText, if_pos (List.prefix_append word text), List.drop_left]

theorem spanSome_eq_some {text : List α} {found : List α × List α} (h : spanSome p text = some found) :
    ∃ a rest, text = a :: rest ∧ p a = true := by
  cases text with
  | nil => cases h
  | cons a rest =>
    refine ⟨a, rest, rfl, ?_⟩
    by_contra ha
    rw [spanSome, if_pos (List.takeWhile_cons_of_neg ha)] at h
    cases h

theorem eq_append_of_afterText [DecidableEq α] {word text rest : List α} (h : afterText word text = some rest) :
    text = word ++ rest := by
  unfold afterText at h
  split at h
  · next hstarts =>
    cases h
    exact (List.prefix_append_drop hstarts)
  · cases h

theorem afterText_cons_ne [DecidableEq α] {a b : α} (h : a ≠ b) (word text : List α) :
    afterText (a :: word) (b :: text) = none :=
  if_neg fun hstarts => h (List.cons_prefix_cons.1 hstarts).1

/-- **What is written after a pattern is found.** -/
theorem Scans.scan_eq [DecidableEq α] {items : List (ScanItem α)} {text rest : List α} {groups : List (List α)}
    (h : Scans items text groups rest) : scan items text = some (groups, rest) := by
  induction h with
  | nil rest => rfl
  | word w h ih => rw [scan, afterText_append, Option.bind_some, ih]
  | skip hspan hother h ih => rw [scan, spanSome_append hspan hother, Option.bind_some, ih]
  | group hspan hother h ih =>
    rw [scan, spanSome_append hspan hother, Option.bind_some, ih]
    rfl

/-- A pattern is found where its first part is written and the rest is found behind it. -/
theorem Scans.scan_append [DecidableEq α] {items : List (ScanItem α)} {text rest : List α} {groups : List (List α)}
    (h : Scans items text groups rest) (more : List (ScanItem α)) :
    scan (items ++ more) text = (scan more rest).map fun found => (groups ++ found.1, found.2) := by
  induction h with
  | nil rest => exact Option.map_id'.symm
  | word w h ih => rw [List.cons_append, scan, afterText_append, Option.bind_some, ih]
  | skip hspan hother h ih => rw [List.cons_append, scan, spanSome_append hspan hother, Option.bind_some, ih]
  | group hspan hother h ih =>
    rw [List.cons_append, scan, spanSome_append hspan hother, Option.bind_some, ih, Option.map_map]
    rfl

end Scanning

/-! ### Numerals -/

/-- The number that a text denotes, unless it has no digit, something else than digits or a value that is not
below the limit. -/
def readNumeral (digit : α → Option Nat) (base limit : Nat) (text : List α) : Option Nat :=
  if text = [] then none
  else
    text.foldlM (fun (n : Nat) a => do
      let d ← digit a
      if n * base + d < limit then some (n * base + d) else none) 0

/-- A number with at least so many digits. -/
def numeral (char : Nat → α) (base width n : Nat) : List α :=
  ((Nat.digits base n ++ List.replicate (width - (Nat.digits base n).length) 0).map char).reverse

section Numerals
variable {digit : α → Option Nat} {char : Nat → α} {base limit : Nat}

/-- The digits so far are a number below the limit when the whole number is. -/
theorem foldlM_digits (hbase : 0 < base) (hdigit : ∀ d < base, digit (char d) = some d) {ds : List Nat}
    (hds : ∀ d ∈ ds, d < base) (hlimit : Nat.ofDigits base ds < limit) :
    ((ds.map char).reverse).foldlM (fun (n : Nat) a => do
      let d ← digit a
      if n * base + d < limit then some (n * base + d) else none) 0 = some (Nat.ofDigits base ds) := by
  induction ds with
  | nil => rfl
  | cons d ds ih =>
    have hvalue : Nat.ofDigits base (d :: ds) = Nat.ofDigits base ds * base + d := by
      rw [Nat.ofDigits_cons, Nat.mul_comm, Nat.add_comm]
    have hlower : Nat.ofDigits base ds ≤ Nat.ofDigits base ds * base := Nat.le_mul_of_pos_right _ hbase
    have hrest := ih (fun e he => hds e (List.mem_cons_of_mem d he)) (by omega)
    rw [List.map_cons, List.reverse_cons, List.foldlM_append, hrest]
    simp only [List.foldlM_cons, List.foldlM_nil, Option.bind_eq_bind, Option.bind_some,
      hdigit d (hds d List.mem_cons_self)]
    rw [← hvalue, if_pos hlimit]
    rfl

theorem numeral_ne_nil {width n : Nat} (hwidth : 0 < width) : numeral char base width n ≠ [] := by
  intro hnil
  have hlength := congrArg List.length hnil
  simp only [numeral, List.length_reverse, List.length_map, List.length_append, List.length_replicate,
    List.length_nil] at hlength
  omega

theorem length_numeral_le {width k n : Nat} (hbase : 1 < base) (hwidth : width ≤ k) (hn : n < base ^ k) :
    (numeral char base width n).length ≤ k := by
  have hdigits : (Nat.digits base n).length ≤ k := (Nat.digits_length_le_iff hbase n).2 hn
  simp only [numeral, List.length_reverse, List.length_map, List.length_append, List.length_replicate]
  omega

/-- **A number is read back**, however many zeros it starts with. -/
theorem readNumeral_numeral (hbase : 1 < base) (hdigit : ∀ d < base, digit (char d) = some d) {width n : Nat}
    (hwidth : 0 < width) (hn : n < limit) : readNumeral digit base limit (numeral char base width n) = some n := by
  have hvalue : Nat.ofDigits base (Nat.digits base n ++ List.replicate (width - (Nat.digits base n).length) 0) = n := by
    rw [Nat.ofDigits_append_replicate_zero, Nat.ofDigits_digits]
  rw [readNumeral, if_neg (numeral_ne_nil hwidth), numeral, foldlM_digits (by omega) hdigit _ (hvalue.symm ▸ hn),
    hvalue]
  intro d hd
  rcases List.mem_append.1 hd with hdigits | hzero
  · exact Nat.digits_lt_base hbase hdigits
  · rw [List.eq_of_mem_replicate hzero]
    omega

/-- Every character of a numeral is a digit. -/
theorem exists_digit_of_mem_numeral (hbase : 1 < base) {width n : Nat} {a : α} (h : a ∈ numeral char base width n) :
    ∃ d < base, a = char d := by
  rw [numeral, List.mem_reverse, List.mem_map] at h
  obtain ⟨d, hd, rfl⟩ := h
  rcases List.mem_append.1 hd with hdigits | hzero
  · exact ⟨d, Nat.digits_lt_base hbase hdigits, rfl⟩
  · exact ⟨0, by omega, by rw [List.eq_of_mem_replicate hzero]⟩

theorem isWord_numeral {seps : Separators α} (hbase : 1 < base)
    (hseps : ∀ d < base, ∀ s ∈ seps.texts, s.head? ≠ some (char d)) {width n : Nat} (hwidth : 0 < width) :
    IsWord seps (numeral char base width n) := by
  refine isWord_of_head (numeral_ne_nil hwidth) fun a ha => ?_
  obtain ⟨d, hd, rfl⟩ := exists_digit_of_mem_numeral hbase ha
  exact hseps d hd

end Numerals

end BinderTracer.Lib
