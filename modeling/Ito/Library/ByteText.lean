import Ito.Library.CheckedInt

/-! Text as bytes, with the parts of the C++ standard library that write and read
decimal numbers and delimited pieces. -/

abbrev Bytes := List UInt8

namespace Bytes

def ofChar (c : Char) : UInt8 := UInt8.ofNat c.toNat

def ofText (text : String) : Bytes := text.toList.map ofChar

def decimal (n : Nat) : Bytes := (Nat.toDigits 10 n).map ofChar

def signedDecimal : Int → Bytes
  | .ofNat n => decimal n
  | .negSucc n => ofChar '-' :: decimal (n + 1)

/-- What repeated `std::getline` calls read from a stream. The delimiter ends a
piece; nothing after the last delimiter is no further piece. -/
def pieces (delimiter : UInt8) : Bytes → List Bytes
  | [] => []
  | byte :: rest =>
      if byte = delimiter then [] :: pieces delimiter rest
      else
        match pieces delimiter rest with
        | [] => [[byte]]
        | piece :: others => (byte :: piece) :: others

/-- A `std::getline` past the end of the stream leaves its empty string as it is. -/
def piece (delimiter : UInt8) (index : Nat) (bytes : Bytes) : Bytes :=
  (pieces delimiter bytes).getD index []

def finished (delimiter : UInt8) : Bytes → List Bytes × Bytes
  | [] => ([], [])
  | byte :: rest =>
      if byte = delimiter then ([] :: (finished delimiter rest).1, (finished delimiter rest).2)
      else
        match (finished delimiter rest).1 with
        | [] => ([], byte :: (finished delimiter rest).2)
        | piece :: others => ((byte :: piece) :: others, (finished delimiter rest).2)

/-- `find` and `substr`: what follows the first occurrence of a pattern. -/
def after (pattern : Bytes) : Bytes → Option Bytes
  | [] => if pattern = [] then some [] else none
  | byte :: rest =>
      if pattern.isPrefixOf (byte :: rest) then some ((byte :: rest).drop pattern.length)
      else after pattern rest

def isSpace (byte : UInt8) : Bool := byte = 32 || (9 ≤ byte && byte ≤ 13)

def isDigit (byte : UInt8) : Bool := 48 ≤ byte && byte ≤ 57

def leadingNat (bytes : Bytes) : Option Nat :=
  match bytes.takeWhile isDigit with
  | [] => none
  | digits => some (digits.foldl (fun n byte => 10 * n + (byte.toNat - 48)) 0)

/-- Sign and magnitude of the decimal number a text starts with. What follows the
number is not looked at. -/
def numeral (bytes : Bytes) : Option (Bool × Nat) :=
  match bytes.dropWhile isSpace with
  | [] => none
  | sign :: rest =>
      if sign = ofChar '-' then (leadingNat rest).map fun n => (true, n)
      else if sign = ofChar '+' then (leadingNat rest).map fun n => (false, n)
      else (leadingNat (sign :: rest)).map fun n => (false, n)

/-- `std::stoull`; an exception is `none`. A negative number wraps. -/
def stoull (bytes : Bytes) : Option UInt64 :=
  (numeral bytes).bind fun (negative, n) =>
    if n < 2 ^ 64 then
      some (if negative then 0 - UInt64.ofNat n else UInt64.ofNat n)
    else none

/-- `std::stoll`; an exception is `none`. -/
def stoll (bytes : Bytes) : Option Int64 :=
  (numeral bytes).bind fun (negative, n) => CheckedInt.ofInt? (if negative then -n else n)

end Bytes
