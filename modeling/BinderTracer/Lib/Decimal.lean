import Mathlib.Data.List.Induction
import Mathlib.Algebra.Order.Ring.Nat

/-!
# Decimal text

Reading a decimal integer from a text, as `strconv.Atoi` after `strings.TrimSpace` does it: white space at
both ends is dropped, then an optional sign and at least one digit must remain, within 64 bits.
-/

namespace BinderTracer.Lib

/-- The white space of Unicode. -/
def whiteSpace : List Nat :=
  [9, 10, 11, 12, 13, 32, 0x85, 0xA0, 0x1680, 0x2000, 0x2001, 0x2002, 0x2003, 0x2004, 0x2005, 0x2006, 0x2007,
    0x2008, 0x2009, 0x200A, 0x2028, 0x2029, 0x202F, 0x205F, 0x3000]

/-- `unicode.IsSpace`. -/
def isSpace (c : Char) : Bool := c.toNat ∈ whiteSpace

def trimSpace (text : List Char) : List Char :=
  ((text.dropWhile isSpace).reverse.dropWhile isSpace).reverse

/-- The value of a digit string; there must be a digit, and nothing else. -/
def digitsValue (digits : List Char) : Option Nat :=
  if digits ≠ [] ∧ digits.all Char.isDigit then some (Nat.ofDigitChars 10 digits 0) else none

def atoi (text : List Char) : Option Int :=
  match text with
  | '-' :: digits => (digitsValue digits).bind fun n => if n ≤ 2 ^ 63 then some (-n) else none
  | '+' :: digits => (digitsValue digits).bind fun n => if n < 2 ^ 63 then some n else none
  | _ => (digitsValue text).bind fun n => if n < 2 ^ 63 then some n else none

/-- A number in decimal. -/
def itoa (n : Nat) : List Char := Nat.toDigits 10 n

theorem isDigit_of_mem_itoa {n : Nat} {c : Char} (h : c ∈ itoa n) : c.isDigit = true :=
  Nat.isDigit_of_mem_toDigits (by decide) (by decide) h

theorem not_isSpace_of_isDigit {c : Char} (h : c.isDigit = true) : isSpace c = false := by
  have hrange : 48 ≤ c.toNat ∧ c.toNat ≤ 57 := by
    rw [Char.isDigit, Bool.and_eq_true, decide_eq_true_eq, decide_eq_true_eq] at h
    exact h
  simp only [isSpace, whiteSpace, List.mem_cons, List.not_mem_nil, or_false, decide_eq_false_iff_not]
  omega

theorem trimSpace_newline {text : List Char} (h : ∀ c ∈ text, isSpace c = false) :
    trimSpace (text ++ ['\n']) = text := by
  have hkeep : ∀ cs : List Char, (∀ c ∈ cs, isSpace c = false) → cs.dropWhile isSpace = cs := by
    intro cs hcs
    cases cs with
    | nil => rfl
    | cons c cs => exact List.dropWhile_cons_of_neg (by simp [hcs c List.mem_cons_self])
  have hend : text.reverse.dropWhile isSpace = text.reverse :=
    hkeep text.reverse fun c hc => h c (List.mem_reverse.1 hc)
  have hnewline : isSpace '\n' = true := by decide
  cases text with
  | nil => decide
  | cons c text =>
    have hstart : (c :: text ++ ['\n']).dropWhile isSpace = c :: text ++ ['\n'] :=
      List.dropWhile_cons_of_neg (by simp [h c List.mem_cons_self])
    rw [trimSpace, hstart, List.reverse_append]
    show (('\n' :: (c :: text).reverse).dropWhile isSpace).reverse = c :: text
    rw [List.dropWhile_cons_of_pos hnewline, hend, List.reverse_reverse]

theorem digitsValue_itoa (n : Nat) : digitsValue (itoa n) = some n := by
  have hne : itoa n ≠ [] := Nat.toDigits_ne_nil
  have hall : (itoa n).all Char.isDigit := List.all_eq_true.2 fun c hc => isDigit_of_mem_itoa hc
  rw [digitsValue, if_pos ⟨hne, hall⟩]
  exact congrArg some (Nat.ofDigitChars_toDigits (by decide) (by decide))

theorem itoa_injective : Function.Injective itoa := by
  intro m n h
  have hvalue := congrArg digitsValue h
  rw [digitsValue_itoa, digitsValue_itoa] at hvalue
  exact Option.some.inj hvalue

theorem minus_notMem_itoa (n : Nat) : '-' ∉ itoa n := fun h => absurd (isDigit_of_mem_itoa h) (by decide)

/-- Different integers have different texts. -/
theorem toString_int_injective : Function.Injective (toString : Int → String) := by
  have hnat : ∀ n : Nat, (toString (Int.ofNat n)).toList = itoa n := fun n => Nat.toList_repr
  have hneg : ∀ n : Nat, (toString (Int.negSucc n)).toList = '-' :: itoa (n + 1) := by
    intro n
    change ("-" ++ Nat.repr (n + 1)).toList = _
    rw [String.toList_append, Nat.toList_repr]
    rfl
  intro a b h
  have htext := congrArg String.toList h
  cases a with
  | ofNat m =>
    cases b with
    | ofNat n =>
      rw [hnat, hnat] at htext
      rw [itoa_injective htext]
    | negSucc n =>
      rw [hnat, hneg] at htext
      exact absurd (htext ▸ List.mem_cons_self) (minus_notMem_itoa m)
  | negSucc m =>
    cases b with
    | ofNat n =>
      rw [hneg, hnat] at htext
      exact absurd (htext ▸ List.mem_cons_self) (minus_notMem_itoa n)
    | negSucc n =>
      rw [hneg, hneg] at htext
      rw [Nat.succ.inj (itoa_injective (List.tail_eq_of_cons_eq htext))]

/-- A text that begins with a digit has no sign. -/
theorem atoi_itoa {n : Nat} (h : n < 2 ^ 63) : atoi (itoa n) = some (n : Int) := by
  have hsign : ∀ c ∈ itoa n, c ≠ '-' ∧ c ≠ '+' := by
    intro c hc
    have hdigit := isDigit_of_mem_itoa hc
    constructor <;> rintro rfl <;> exact absurd hdigit (by decide)
  unfold atoi
  split
  · next digits heq => exact absurd rfl (hsign '-' (heq ▸ List.mem_cons_self)).1
  · next digits heq => exact absurd rfl (hsign '+' (heq ▸ List.mem_cons_self)).2
  · rw [digitsValue_itoa, Option.bind_some, if_pos h]

/-- **A number and a new line are read back.** -/
theorem atoi_trimSpace_itoa {n : Nat} (h : n < 2 ^ 63) : atoi (trimSpace (itoa n ++ ['\n'])) = some (n : Int) := by
  rw [trimSpace_newline fun c hc => not_isSpace_of_isDigit (isDigit_of_mem_itoa hc)]
  exact atoi_itoa h

end BinderTracer.Lib
