import Mathlib.Data.List.TakeWhile
import Mathlib.Data.Nat.Digits.Lemmas
import Mathlib.Data.UInt

set_option autoImplicit false

/-!
# Decimal numbers in ASCII

What the conversions `%d` and `%u` of `printf` and `scanf` do with bytes.
-/

namespace Decimal

def minus : UInt8 := 45

def plus : UInt8 := 43

def digit (value : Nat) : UInt8 := UInt8.ofNat (48 + value)

def isDigit (byte : UInt8) : Bool := 48 ≤ byte && byte ≤ 57

def digitValue (byte : UInt8) : Nat := byte.toNat - 48

def isSpace (byte : UInt8) : Bool := byte == 32 || 9 ≤ byte && byte ≤ 13

def printNat (value : Nat) : List UInt8 :=
  if value = 0 then [digit 0] else ((Nat.digits 10 value).map digit).reverse

def printInt (value : Int) : List UInt8 :=
  if value < 0 then minus :: printNat value.natAbs else printNat value.natAbs

/-- The longest row of digits in front, if there is one. -/
def scanNat (bytes : List UInt8) : Option Nat :=
  let digits := bytes.takeWhile isDigit
  if digits = [] then none else some (digits.foldl (fun value byte => 10 * value + digitValue byte) 0)

/-- White space, a sign and digits; what follows is not looked at. -/
def scanInt (bytes : List UInt8) : Option Int :=
  match bytes.dropWhile isSpace with
  | [] => none
  | first :: rest =>
      if first = minus then (scanNat rest).map fun value : Nat => -(value : Int)
      else if first = plus then (scanNat rest).map Int.ofNat
      else (scanNat (first :: rest)).map Int.ofNat

theorem isDigit_iff {byte : UInt8} : isDigit byte = true ↔ 48 ≤ byte.toNat ∧ byte.toNat ≤ 57 := by
  simp [isDigit, UInt8.le_iff_toNat_le]

section Digits

variable {value : Nat}

theorem digit_toNat (small : value < 10) : (digit value).toNat = 48 + value := by
  simp only [digit, UInt8.toNat_ofNat']
  omega

theorem isDigit_digit (small : value < 10) : isDigit (digit value) = true := by
  rw [isDigit_iff, digit_toNat small]
  omega

theorem digitValue_digit (small : value < 10) : digitValue (digit value) = value := by
  rw [digitValue, digit_toNat small]
  omega

theorem isDigit_of_mem_printNat {byte : UInt8} (member : byte ∈ printNat value) : isDigit byte = true := by
  unfold printNat at member
  split_ifs at member
  · rw [List.mem_singleton.mp member]
    exact isDigit_digit (by omega)
  · simp only [List.mem_reverse, List.mem_map] at member
    obtain ⟨number, listed, rfl⟩ := member
    exact isDigit_digit (Nat.digits_lt_base (by omega) listed)

theorem printNat_ne_nil (value : Nat) : printNat value ≠ [] := by
  unfold printNat
  split_ifs with zero
  · simp
  · simpa using Nat.digits_ne_nil_iff_ne_zero.mpr zero

theorem length_printNat {count : Nat} (positive : 0 < count) (small : value < 10 ^ count) :
    (printNat value).length ≤ count := by
  unfold printNat
  split_ifs
  · exact positive
  · simpa using (Nat.digits_length_le_iff (by omega) value).mpr small

theorem value_printNat (value : Nat) :
    (printNat value).foldl (fun value byte => 10 * value + digitValue byte) 0 = value := by
  unfold printNat
  split_ifs with zero
  · simp [zero, digitValue_digit]
  · have numbers : ∀ numbers : List Nat, (∀ number ∈ numbers, number < 10) ->
        (numbers.map digit).foldr (fun byte value => 10 * value + digitValue byte) 0 =
          Nat.ofDigits 10 numbers := by
      intro numbers small
      induction numbers with
      | nil => rfl
      | cons number rest ih =>
          have head := digitValue_digit (small number (by simp))
          have tail := ih fun other member => small other (List.mem_cons_of_mem _ member)
          simp only [List.map_cons, List.foldr_cons, tail, head, Nat.ofDigits_cons]
          exact Nat.add_comm _ _
    rw [List.foldl_reverse, numbers _ fun number listed => Nat.digits_lt_base (by omega) listed,
      Nat.ofDigits_digits]

theorem scanNat_printNat (value : Nat) : scanNat (printNat value) = some value := by
  have digits : (printNat value).takeWhile isDigit = printNat value :=
    List.takeWhile_eq_self_iff.mpr fun _ member => isDigit_of_mem_printNat member
  simp [scanNat, digits, printNat_ne_nil, value_printNat]

end Digits

theorem plain_of_isDigit {byte : UInt8} (digit : isDigit byte = true) :
    isSpace byte = false ∧ byte ≠ minus ∧ byte ≠ plus := by
  obtain ⟨low, high⟩ := isDigit_iff.mp digit
  refine ⟨?_, ?_, ?_⟩
  · simp only [isSpace, Bool.or_eq_false_iff, Bool.and_eq_false_imp, beq_eq_false_iff_ne, decide_eq_true_eq,
      decide_eq_false_iff_not, UInt8.le_iff_toNat_le, ← UInt8.toNat_inj, ne_eq, UInt8.reduceToNat]
    omega
  · rintro rfl
    simp [minus] at low
  · rintro rfl
    simp [plus] at low

theorem scanInt_printInt (value : Int) : scanInt (printInt value) = some value := by
  unfold printInt
  split_ifs with negative
  · have sign : (minus :: printNat value.natAbs).dropWhile isSpace = minus :: printNat value.natAbs := by
      rw [List.dropWhile_cons_of_neg (by decide)]
    have value : -(value.natAbs : Int) = value := by omega
    simp only [scanInt, sign, if_true, scanNat_printNat, Option.map_some, value]
  · cases printed : printNat value.natAbs with
    | nil => exact absurd printed (printNat_ne_nil _)
    | cons first rest =>
        have member : first ∈ printNat value.natAbs := by
          rw [printed]
          exact List.mem_cons_self
        have digit := isDigit_of_mem_printNat member
        obtain ⟨space, noMinus, noPlus⟩ := plain_of_isDigit digit
        have front : (first :: rest).dropWhile isSpace = first :: rest := by
          rw [List.dropWhile_cons_of_neg (by simp [space])]
        have scanned : scanNat (first :: rest) = some value.natAbs := printed ▸ scanNat_printNat _
        have value : Int.ofNat value.natAbs = value := by
          rw [Int.ofNat_eq_natCast]
          omega
        simp only [scanInt, front, noMinus, noPlus, if_false, scanned, Option.map_some, value]

end Decimal
