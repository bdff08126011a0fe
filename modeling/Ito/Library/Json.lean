import Mathlib.Algebra.Order.Field.Rat
import Mathlib.Data.List.Basic

/-! The `json.loads` of Python.

Texts are lists of code points, since an escape may name a surrogate. Floating
point numbers are the rational numbers they are written as. A `JSONDecodeError` is
`none`. The fuel is the length of the text: every level of nesting and every
element takes at least one character. -/

inductive Json where
  | null
  | bool (value : Bool)
  | int (value : Int)
  | float (value : ℚ)
  | nan
  | infinity (negative : Bool)
  | str (text : List Nat)
  | arr (items : List Json)
  | obj (entries : List (List Nat × Json))

namespace Json

def codes (text : List Char) : List Nat := text.map Char.toNat

def isBlank (c : Char) : Bool := c = ' ' || c = '\t' || c = '\n' || c = '\r'

def skipBlanks (text : List Char) : List Char := text.dropWhile isBlank

/-! Strings -/

def hexValue (c : Char) : Option Nat :=
  if '0' ≤ c ∧ c ≤ '9' then some (c.toNat - 48)
  else if 'a' ≤ c ∧ c ≤ 'f' then some (c.toNat - 87)
  else if 'A' ≤ c ∧ c ≤ 'F' then some (c.toNat - 55)
  else none

def hexUnit (a b c d : Char) : Option Nat := do
  let a ← hexValue a
  let b ← hexValue b
  let c ← hexValue c
  let d ← hexValue d
  return 4096 * a + 256 * b + 16 * c + d

def simpleEscape (c : Char) : Option Nat :=
  if c = '"' then some 34
  else if c = '\\' then some 92
  else if c = '/' then some 47
  else if c = 'b' then some 8
  else if c = 'f' then some 12
  else if c = 'n' then some 10
  else if c = 'r' then some 13
  else if c = 't' then some 9
  else none

def prepend (unit : Nat) (scanned : List Nat × List Char) : List Nat × List Char :=
  (unit :: scanned.1, scanned.2)

def scanUnits : List Char → Option (List Nat × List Char)
  | [] => none
  | c :: rest =>
      if c = '"' then some ([], rest)
      else if c = '\\' then
        match rest with
        | [] => none
        | 'u' :: a :: b :: c :: d :: more =>
            (hexUnit a b c d).bind fun unit => (scanUnits more).map (prepend unit)
        | escape :: more =>
            (simpleEscape escape).bind fun unit => (scanUnits more).map (prepend unit)
      else if c.toNat < 0x20 then none
      else (scanUnits rest).map (prepend c.toNat)

def isHighSurrogate (unit : Nat) : Bool := 0xd800 ≤ unit && unit ≤ 0xdbff

def isLowSurrogate (unit : Nat) : Bool := 0xdc00 ≤ unit && unit ≤ 0xdfff

def joinSurrogates : List Nat → List Nat
  | [] => []
  | [unit] => [unit]
  | high :: low :: rest =>
      if isHighSurrogate high && isLowSurrogate low then
        (0x10000 + (high - 0xd800) * 1024 + (low - 0xdc00)) :: joinSurrogates rest
      else high :: joinSurrogates (low :: rest)

def scanString (text : List Char) : Option (List Nat × List Char) :=
  (scanUnits text).map fun scanned => (joinSurrogates scanned.1, scanned.2)

/-! Numbers -/

/-- The integer part: a zero, or digits that do not start with one. -/
def scanInteger (text : List Char) : Option (List Char × List Char) :=
  match text with
  | [] => none
  | c :: rest =>
      if c = '0' then some ([c], rest)
      else if c.isDigit then some (text.takeWhile Char.isDigit, text.dropWhile Char.isDigit)
      else none

def scanFraction (text : List Char) : List Char × List Char :=
  match text with
  | '.' :: rest =>
      if rest.takeWhile Char.isDigit = [] then ([], text)
      else (rest.takeWhile Char.isDigit, rest.dropWhile Char.isDigit)
  | _ => ([], text)

def scanSign (text : List Char) : Bool × List Char :=
  match text with
  | '-' :: rest => (true, rest)
  | '+' :: rest => (false, rest)
  | _ => (false, text)

def scanExponent (text : List Char) : Option Int × List Char :=
  match text with
  | [] => (none, text)
  | c :: rest =>
      if c = 'e' ∨ c = 'E' then
        let signed := scanSign rest
        let digits := signed.2.takeWhile Char.isDigit
        if digits = [] then (none, text)
        else
          let value : Int := Nat.ofDigitChars 10 digits 0
          (some (if signed.1 then -value else value), signed.2.dropWhile Char.isDigit)
      else (none, text)

def scanUnsigned (negative : Bool) (text : List Char) : Option (Json × List Char) :=
  (scanInteger text).map fun (digits, rest) =>
    let (fraction, rest) := scanFraction rest
    let (exponent, rest) := scanExponent rest
    let sign : Int := if negative then -1 else 1
    if fraction = [] ∧ exponent = none then
      (.int (sign * Nat.ofDigitChars 10 digits 0), rest)
    else
      let mantissa : ℚ := (sign * Nat.ofDigitChars 10 (digits ++ fraction) 0 : Int)
      (.float (mantissa * (10 : ℚ) ^ (exponent.getD 0 - fraction.length)), rest)

/-! Values -/

def literal (name : String) (value : Json) (text : List Char) : Option (Json × List Char) :=
  if name.toList.isPrefixOf text then some (value, text.drop name.length) else none

def scanWord (text : List Char) : Option (Json × List Char) :=
  (literal "null" .null text).or <|
    (literal "true" (.bool true) text).or <|
      (literal "false" (.bool false) text).or <|
        (literal "NaN" .nan text).or <|
          (literal "Infinity" (.infinity false) text).or <|
            literal "-Infinity" (.infinity true) text

mutual

def value : Nat → List Char → Option (Json × List Char)
  | 0, _ => none
  | fuel + 1, text =>
      match text with
      | [] => none
      | c :: rest =>
          if c = '"' then (scanString rest).map fun (text, rest) => (.str text, rest)
          else if c = '\x7b' then
            match skipBlanks rest with
            | '\x7d' :: rest => some (.obj [], rest)
            | rest => (entries fuel rest).map fun (entries, rest) => (.obj entries, rest)
          else if c = '[' then
            match skipBlanks rest with
            | ']' :: rest => some (.arr [], rest)
            | rest => (items fuel rest).map fun (items, rest) => (.arr items, rest)
          else if c.isDigit then scanUnsigned false text
          else (scanWord text).or (if c = '-' then scanUnsigned true rest else none)

/-- The entries of an object, from the quote of a key to the closing brace. -/
def entries : Nat → List Char → Option (List (List Nat × Json) × List Char)
  | 0, _ => none
  | fuel + 1, text =>
      match text with
      | '"' :: rest =>
          (scanString rest).bind fun (key, rest) =>
            match skipBlanks rest with
            | ':' :: rest =>
                (value fuel (skipBlanks rest)).bind fun (found, rest) =>
                  match skipBlanks rest with
                  | '\x7d' :: rest => some ([(key, found)], rest)
                  | ',' :: rest =>
                      (entries fuel (skipBlanks rest)).map fun (others, rest) =>
                        ((key, found) :: others, rest)
                  | _ => none
            | _ => none
      | _ => none

def items : Nat → List Char → Option (List Json × List Char)
  | 0, _ => none
  | fuel + 1, text =>
      (value fuel text).bind fun (found, rest) =>
        match skipBlanks rest with
        | ']' :: rest => some ([found], rest)
        | ',' :: rest =>
            (items fuel (skipBlanks rest)).map fun (others, rest) => (found :: others, rest)
        | _ => none

end

def loads (text : List Char) : Option Json :=
  if text.head? = some '\ufeff' then none
  else
    (value (text.length + 1) (skipBlanks text)).bind fun (found, rest) =>
      if skipBlanks rest = [] then some found else none

/-- `dict.get`: a repeated key keeps its last value. -/
def get? (key : String) (found : List (List Nat × Json)) : Option Json :=
  found.reverse.lookup (codes key.toList)

/-! Equality of Python values -/

def number? : Json → Option ℚ
  | .int value => some value
  | .float value => some value
  | .bool value => some (if value then 1 else 0)
  | _ => none

mutual

/-- `==` of Python. -/
def same : Json → Json → Bool
  | .null, .null => true
  | .infinity left, .infinity right => left = right
  | .str left, .str right => left = right
  | .arr left, .arr right => sameItems left right
  | .obj left, .obj right =>
      right.all (fun entry => left.any fun other => other.1 = entry.1) && sameEntries left right
  | left, right => left.number?.isSome && left.number? = right.number?

def sameItems : List Json → List Json → Bool
  | [], [] => true
  | left :: lefts, right :: rights => same left right && sameItems lefts rights
  | _, _ => false

/-- Every entry that no later one replaces has its equal among `others`. -/
def sameEntries : List (List Nat × Json) → List (List Nat × Json) → Bool
  | [], _ => true
  | (key, value) :: rest, others =>
      (rest.any (fun entry => entry.1 = key) ||
        match others.reverse.lookup key with
        | some other => same value other
        | none => false) && sameEntries rest others

end

/-! Truth of Python values -/

/-- `bool(value)`. -/
def truthy : Json → Bool
  | .null => false
  | .bool value => value
  | .int value => value ≠ 0
  | .float value => value ≠ 0
  | .nan => true
  | .infinity _ => true
  | .str text => text ≠ []
  | .arr items => items.isEmpty = false
  | .obj entries => entries.isEmpty = false

end Json
