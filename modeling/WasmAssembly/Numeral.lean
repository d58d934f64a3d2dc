/-!
# Bounded integers in decimal

A numeral is an optional sign and decimal digits. It is read from left to
right against a range of integers, and the first character that is no digit
or that takes the value out of the range decides the fault. Integers are
written without a plus sign and without leading zeros.
-/

set_option autoImplicit false

namespace WasmAssembly

inductive NumeralFault where
  | empty
  | invalidDigit
  | tooLarge
  | tooSmall
  deriving DecidableEq, Repr

def NumeralFault.message : NumeralFault → String
  | .empty => "cannot parse integer from empty string"
  | .invalidDigit => "invalid digit found in string"
  | .tooLarge => "number too large to fit in target type"
  | .tooSmall => "number too small to fit in target type"

structure IntRange where
  least : Int
  greatest : Int
  deriving DecidableEq, Repr

namespace IntRange

def int32 : IntRange := ⟨-2147483648, 2147483647⟩

def word64 : IntRange := ⟨0, 18446744073709551615⟩

instance : Membership Int IntRange := ⟨fun range i => range.least ≤ i ∧ i ≤ range.greatest⟩

instance (i : Int) (range : IntRange) : Decidable (i ∈ range) :=
  inferInstanceAs (Decidable (range.least ≤ i ∧ i ≤ range.greatest))

theorem mem_iff {i : Int} {range : IntRange} :
    i ∈ range ↔ range.least ≤ i ∧ i ≤ range.greatest := Iff.rfl

end IntRange

namespace Numeral

inductive Sign where
  | plus
  | minus
  deriving DecidableEq, Repr

def Sign.extend : Sign → Int → Nat → Int
  | .plus, value, digit => value + digit
  | .minus, value, digit => value - digit

def Sign.overflow : Sign → NumeralFault
  | .plus => .tooLarge
  | .minus => .tooSmall

def digit? (c : Char) : Option Nat :=
  if c.isDigit then some (c.toNat - '0'.toNat) else none

def shift (range : IntRange) (sign : Sign) (value : Int) (c : Char) : Except NumeralFault Int :=
  match digit? c with
  | none => .error .invalidDigit
  | some digit =>
    if value * 10 ∈ range ∧ sign.extend (value * 10) digit ∈ range then
      .ok (sign.extend (value * 10) digit)
    else .error sign.overflow

def digits (range : IntRange) (sign : Sign) : Int → List Char → Except NumeralFault Int
  | value, [] => .ok value
  | value, c :: cs =>
    match shift range sign value c with
    | .error fault => .error fault
    | .ok next => digits range sign next cs

/-- Reads a numeral. A minus sign belongs to it only where the range has
negative integers, and a sign alone is no numeral. -/
def read (range : IntRange) : List Char → Except NumeralFault Int
  | [] => .error .empty
  | ['+'] => .error .invalidDigit
  | ['-'] => .error .invalidDigit
  | '+' :: cs => digits range .plus 0 cs
  | '-' :: cs =>
    if range.least < 0 then digits range .minus 0 cs else .error .invalidDigit
  | cs => digits range .plus 0 cs

def readInt32 (text : String) : Except NumeralFault Int32 :=
  (read .int32 text.toList).map Int32.ofInt

def readWord (text : String) : Except NumeralFault Nat :=
  (read .word64 text.toList).map Int.toNat

def write (i : Int) : String :=
  if i < 0 then "-" ++ i.natAbs.repr else i.natAbs.repr

end Numeral

end WasmAssembly
