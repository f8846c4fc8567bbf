import Mathlib.Data.List.Infix
import Mathlib.Data.List.Count
import Mathlib.Algebra.Order.Ring.Nat

/-!
# Substrings and `LIKE` patterns

Texts are lists of characters, compared up to a relation `same`. `holdsText` finds a text somewhere in
another one; `like` is the `LIKE` operator of SQL without an escape character, in whose patterns `%`
stands for any text and `_` for any character.
-/

namespace BinderTracer.Lib

section
variable (same : Char → Char → Bool)

/-- The text stands at the start. -/
def startsWithText : List Char → List Char → Bool
  | [], _ => true
  | _ :: _, [] => false
  | c :: text, d :: s => same c d && startsWithText text s

/-- The text stands somewhere. -/
def holdsText (text s : List Char) : Bool := s.tails.any (startsWithText same text)

/-- `s LIKE pattern`. -/
def like : List Char → List Char → Bool
  | [], s => s.isEmpty
  | p :: pattern, s =>
    if p = '%' then s.tails.any (like pattern)
    else
      match s with
      | [] => false
      | c :: s => (p = '_' || same p c) && like pattern s

/-- A character that a pattern takes literally. -/
def IsLiteral (c : Char) : Prop := c ≠ '%' ∧ c ≠ '_'

/-- The pattern for a text anywhere. -/
def anywhere (text : List Char) : List Char := '%' :: (text ++ ['%'])

theorem like_percent_cons (pattern s : List Char) :
    like same ('%' :: pattern) s = s.tails.any (like same pattern) := by
  cases s <;> simp [like]

theorem like_nil {p : Char} (hp : p ≠ '%') (pattern : List Char) : like same (p :: pattern) [] = false := by
  simp [like, hp]

theorem like_cons {p : Char} (hp : p ≠ '%') (pattern : List Char) (c : Char) (s : List Char) :
    like same (p :: pattern) (c :: s) = ((p = '_' || same p c) && like same pattern s) := by
  simp [like, hp]

theorem like_percent (s : List Char) : like same ['%'] s = true := by
  rw [like_percent_cons, List.any_eq_true]
  exact ⟨[], (List.mem_tails _ _).2 List.nil_suffix, rfl⟩

theorem like_literal {p : Char} (hp : IsLiteral p) (pattern : List Char) (c : Char) (s : List Char) :
    like same (p :: pattern) (c :: s) = (same p c && like same pattern s) := by
  rw [like_cons same hp.1]
  simp [hp.2]

/-- A literal text followed by `%` is matched by what starts with the text. -/
theorem like_append_percent {text : List Char} (htext : ∀ c ∈ text, IsLiteral c) (s : List Char) :
    like same (text ++ ['%']) s = startsWithText same text s := by
  induction text generalizing s with
  | nil => exact like_percent same s
  | cons c text ih =>
    have hc := htext c List.mem_cons_self
    cases s with
    | nil => rw [List.cons_append, like_nil same hc.1, startsWithText]
    | cons d s =>
      rw [List.cons_append, like_literal same hc, startsWithText,
        ih fun c' hc' => htext c' (List.mem_cons_of_mem c hc')]

/-- **A literal text is found anywhere.** -/
theorem like_anywhere {text : List Char} (htext : ∀ c ∈ text, IsLiteral c) (s : List Char) :
    like same (anywhere text) s = holdsText same text s := by
  rw [anywhere, like_percent_cons, holdsText]
  congr 1
  funext t
  exact like_append_percent same htext t

/-- A text matches its own pattern, special characters included. -/
theorem like_self (hrefl : ∀ c, same c c = true) (text : List Char) :
    like same (text ++ ['%']) text = true := by
  induction text with
  | nil => exact like_percent same []
  | cons c text ih =>
    rw [List.cons_append]
    by_cases hc : c = '%'
    · subst hc
      rw [like_percent_cons, List.any_eq_true]
      exact ⟨text, (List.mem_tails _ _).2 (List.suffix_cons _ text), ih⟩
    · rw [like_cons same hc, hrefl c, ih, Bool.or_true, Bool.and_true]

theorem like_anywhere_self (hrefl : ∀ c, same c c = true) (text : List Char) :
    like same (anywhere text) text = true := by
  rw [anywhere, like_percent_cons, List.any_eq_true]
  exact ⟨text, (List.mem_tails _ _).2 (List.suffix_refl text), like_self same hrefl text⟩

/-- What matches a pattern has every literal of it that is the same as itself only. -/
theorem count_le_of_like {c : Char} (hc : IsLiteral c) (honly : ∀ d, same c d = true → d = c)
    {pattern s : List Char} (h : like same pattern s = true) : pattern.count c ≤ s.count c := by
  induction pattern generalizing s with
  | nil => exact Nat.zero_le _
  | cons p pattern ih =>
    by_cases hp : p = '%'
    · subst hp
      rw [like_percent_cons] at h
      obtain ⟨t, ht, hlike⟩ := List.any_eq_true.1 h
      have hsub := ((List.mem_tails _ _).1 ht).sublist.count_le c
      rw [List.count_cons_of_ne hc.1.symm]
      exact (ih hlike).trans hsub
    · cases s with
      | nil =>
        rw [like_nil same hp] at h
        exact nomatch h
      | cons d s =>
        rw [like_cons same hp] at h
        simp only [Bool.and_eq_true, Bool.or_eq_true, decide_eq_true_eq] at h
        have hrest := ih h.2
        by_cases heq : p = c
        · subst heq
          have hd := honly d (h.1.resolve_left hc.2)
          subst hd
          rw [List.count_cons_self, List.count_cons_self]
          omega
        · rw [List.count_cons_of_ne heq]
          exact hrest.trans (List.count_le_count_cons)

/-! ### Substrings -/

theorem startsWithText_self (hrefl : ∀ c, same c c = true) (text : List Char) :
    startsWithText same text text = true := by
  induction text with
  | nil => rfl
  | cons c text ih => rw [startsWithText, hrefl c, ih, Bool.and_self]

theorem length_le_of_startsWithText {text s : List Char} (h : startsWithText same text s = true) :
    text.length ≤ s.length := by
  induction text generalizing s with
  | nil => exact Nat.zero_le _
  | cons c text ih =>
    cases s with
    | nil => exact nomatch h
    | cons d s =>
      rw [startsWithText, Bool.and_eq_true] at h
      exact Nat.succ_le_succ (ih h.2)

theorem holdsText_self (hrefl : ∀ c, same c c = true) (text : List Char) : holdsText same text text = true :=
  List.any_eq_true.2 ⟨text, (List.mem_tails _ _).2 (List.suffix_refl text), startsWithText_self same hrefl text⟩

theorem length_le_of_holdsText {text s : List Char} (h : holdsText same text s = true) :
    text.length ≤ s.length := by
  obtain ⟨t, ht, hstart⟩ := List.any_eq_true.1 h
  exact (length_le_of_startsWithText same hstart).trans ((List.mem_tails _ _).1 ht).length_le

/-- A text of the same length is found at the start only. -/
theorem holdsText_of_length_eq {text s : List Char} (h : text.length = s.length) :
    holdsText same text s = startsWithText same text s := by
  rw [Bool.eq_iff_iff, holdsText, List.any_eq_true]
  constructor
  · rintro ⟨t, ht, hstart⟩
    have hsuffix := (List.mem_tails _ _).1 ht
    have hle := length_le_of_startsWithText same hstart
    rw [h] at hle
    rwa [hsuffix.eq_of_length (Nat.le_antisymm hsuffix.length_le hle)] at hstart
  · exact fun hstart => ⟨s, (List.mem_tails _ _).2 (List.suffix_refl s), hstart⟩

/-- Replacing one character. -/
theorem startsWithText_replace (hrefl : ∀ c, same c c = true) (before after : List Char) (c d : Char) :
    startsWithText same (before ++ c :: after) (before ++ d :: after) = same c d := by
  induction before with
  | nil => rw [List.nil_append, List.nil_append, startsWithText, startsWithText_self same hrefl, Bool.and_true]
  | cons b before ih =>
    rw [List.cons_append, List.cons_append, startsWithText, hrefl b, ih, Bool.true_and]

/-- The relation matters for the characters of the text only. -/
theorem startsWithText_congr {same' : Char → Char → Bool} {text : List Char}
    (h : ∀ c ∈ text, ∀ d, same c d = same' c d) (s : List Char) :
    startsWithText same text s = startsWithText same' text s := by
  induction text generalizing s with
  | nil => rfl
  | cons c text ih =>
    cases s with
    | nil => rfl
    | cons d s =>
      rw [startsWithText, startsWithText, h c List.mem_cons_self,
        ih fun c' hc' => h c' (List.mem_cons_of_mem c hc')]

theorem holdsText_congr {same' : Char → Char → Bool} {text : List Char}
    (h : ∀ c ∈ text, ∀ d, same c d = same' c d) (s : List Char) :
    holdsText same text s = holdsText same' text s := by
  rw [holdsText, holdsText]
  congr 1
  funext t
  exact startsWithText_congr same h t

theorem startsWithText_append {text : List Char} (hrefl : ∀ c, same c c = true) (after : List Char) :
    startsWithText same text (text ++ after) = true := by
  induction text with
  | nil => rfl
  | cons c text ih => rw [List.cons_append, startsWithText, hrefl c, ih, Bool.and_self]

theorem holdsText_append {text : List Char} (hrefl : ∀ c, same c c = true) (before after : List Char) :
    holdsText same text (before ++ text ++ after) = true := by
  refine List.any_eq_true.2 ⟨text ++ after, (List.mem_tails _ _).2 ?_, startsWithText_append same hrefl after⟩
  rw [List.append_assoc]
  exact List.suffix_append before (text ++ after)

theorem holdsText_cons (text : List Char) (c : Char) (s : List Char) :
    holdsText same text (c :: s) = (startsWithText same text (c :: s) || holdsText same text s) := by
  rw [holdsText, List.tails_cons, List.any_cons, ← holdsText]

/-! ### Joined texts -/

section
variable {same} {text : List Char} {sep : Char} (hsep : ∀ c ∈ text, same c sep = false)
include hsep

theorem startsWithText_append_sep (s rest : List Char) :
    startsWithText same text (s ++ sep :: rest) = startsWithText same text s := by
  induction text generalizing s with
  | nil => rfl
  | cons c text ih =>
    cases s with
    | nil => rw [List.nil_append, startsWithText, startsWithText, hsep c List.mem_cons_self, Bool.false_and]
    | cons d s =>
      rw [List.cons_append, startsWithText, startsWithText,
        ih fun c' hc' => hsep c' (List.mem_cons_of_mem c hc')]

/-- A text without the separator does not reach across it. -/
theorem holdsText_append_sep (s rest : List Char) :
    holdsText same text (s ++ sep :: rest) = (holdsText same text s || holdsText same text rest) := by
  induction s with
  | nil =>
    rw [List.nil_append, holdsText_cons, ← List.nil_append (sep :: rest), startsWithText_append_sep hsep]
    simp [holdsText]
  | cons c s ih =>
    rw [List.cons_append, holdsText_cons, holdsText_cons, ih, ← List.cons_append,
      startsWithText_append_sep hsep, Bool.or_assoc]

/-- **A text without the separator is found in joined texts where it is in one of them.** -/
theorem holdsText_intercalate {texts : List (List Char)} (hne : texts ≠ []) :
    holdsText same text ([sep].intercalate texts) = texts.any (holdsText same text) := by
  induction texts with
  | nil => exact absurd rfl hne
  | cons s texts ih =>
    cases texts with
    | nil => simp [List.intercalate]
    | cons s' texts =>
      have hjoin : [sep].intercalate (s :: s' :: texts) = s ++ sep :: [sep].intercalate (s' :: texts) := by
        simp [List.intercalate, List.intersperse]
      rw [hjoin, holdsText_append_sep hsep, ih (List.cons_ne_nil s' texts)]
      rfl

end

end

/-! ### ASCII letters -/

theorem toNat_toLower (c : Char) :
    c.toLower.toNat = if 65 ≤ c.toNat ∧ c.toNat ≤ 90 then c.toNat + 32 else c.toNat := by
  have hA : 'A'.val = 65 := rfl
  have ha : 'a'.val = 97 := rfl
  have hZ : 'Z'.val = 90 := rfl
  delta Char.toLower
  simp only [hA, ha, hZ, ge_iff_le, UInt32.le_iff_toNat_le, UInt32.reduceToNat, Char.toNat_val]
  split
  case isTrue h =>
    rw [← Char.toNat_val, UInt32.toNat_add]
    simp
    omega
  case isFalse => rfl

theorem toNat_toUpper (c : Char) :
    c.toUpper.toNat = if 97 ≤ c.toNat ∧ c.toNat ≤ 122 then c.toNat - 32 else c.toNat := by
  have hA : 'A'.val = 65 := rfl
  have ha : 'a'.val = 97 := rfl
  have hz : 'z'.val = 122 := rfl
  delta Char.toUpper
  simp only [hA, ha, hz, UInt32.le_iff_toNat_le, UInt32.reduceToNat, Char.toNat_val]
  split
  case isTrue h =>
    rw [← Char.toNat_val, UInt32.toNat_add]
    simp
    omega
  case isFalse => rfl

theorem toLower_toUpper (c : Char) : c.toUpper.toLower = c.toLower := by
  rw [← Char.toNat_inj, toNat_toLower, toNat_toUpper, toNat_toLower]
  grind

/-- A character that is no letter is alone with its lower case. -/
theorem eq_of_toLower_eq {c d : Char} (h : c.toLower = d.toLower)
    (hc : c.toNat < 65 ∨ 90 < c.toNat ∧ c.toNat < 97) : d = c := by
  rw [← Char.toNat_inj, toNat_toLower, toNat_toLower] at h
  rw [← Char.toNat_inj]
  grind

end BinderTracer.Lib
