import DocumentQuery.Json
import DocumentQuery.Json.Numeral

/-!
# Tokens of a JSON text

`Token.scan` splits a text into its tokens, from the left up to the first character that cannot
stand where it does; there it ends with `invalid`. A number too large for a float and a text with
half of a surrogate pair are tokens like any other and only lack a value, since they are at fault
no sooner than their value is asked for.
-/

namespace DocumentQuery.Json
set_option autoImplicit false

inductive Token where
  | openArray
  | closeArray
  | openObject
  | closeObject
  | comma
  | colon
  | null
  | bool (b : Bool)
  | number (n : Option Number)
  | text (s : Option String)
  | invalid
  deriving DecidableEq, Inhabited

namespace Token

def isBlank (c : Char) : Bool := c = ' ' || c = '\t' || c = '\n' || c = '\r'

/-- The digits that a text starts with. -/
def digits (cs : List Char) : List Char := cs.takeWhile Char.isDigit

/-- The number that decimal digits stand for. -/
def digitsValue (ds : List Char) : Nat := ds.foldl (fun n c => 10 * n + Numeral.digitValue c) 0

/-- The digits of the fraction that a text starts with, if it starts with one; a point without
digits is an error. -/
def fractionDigits (cs : List Char) : Option (List Char) :=
  match cs with
  | '.' :: rest => if (digits rest).isEmpty then none else some (digits rest)
  | _ => some []

/-- The exponent that a text starts with: whether it is negative, its digits, and how many
characters it covers. Without an exponent there are no digits, and a mark without digits is an
error. -/
def exponentDigits (cs : List Char) : Option (Bool × List Char × Nat) :=
  match cs with
  | c :: rest =>
    if c = 'e' || c = 'E' then
      let (negative, sign, behind) := match rest with
        | '-' :: behind => (true, 1, behind)
        | '+' :: behind => (false, 1, behind)
        | behind => (false, 0, behind)
      let ds := digits behind
      if ds.isEmpty then none else some (negative, ds, 1 + sign + ds.length)
    else
      some (false, [], 0)
  | [] => some (false, [], 0)

/-- The number that its parts make up. It can be an integer only without a fraction and an
exponent, and is a float otherwise; one that is out of range has no value. -/
def numberValue (negative : Bool) (whole fraction : List Char) (exponent : Option Int) :
    Option Number :=
  let n := Numeral.ofDigits whole fraction
  let integer := if fraction.isEmpty && exponent.isNone then n.integer? negative else none
  match integer with
  | some k => some (.integer k)
  | none =>
    (Binary64.scaled? negative n.significand (n.exponent + exponent.getD 0)).map .float

/-- The number that a text starts with, and how many characters it covers. -/
def number? (cs : List Char) : Option (Token × Nat) := do
  let (negative, sign, cs) := match cs with
    | '-' :: rest => (true, 1, rest)
    | _ => (false, 0, cs)
  let whole := digits cs
  if whole.isEmpty || whole.length ≠ 1 && whole.head? = some '0' then none
  let cs := cs.drop whole.length
  let fraction ← fractionDigits cs
  let point := if fraction.isEmpty then 0 else 1
  let (below, power, covered) ← exponentDigits (cs.drop (point + fraction.length))
  let exponent : Option Int :=
    if power.isEmpty then none
    else some (if below then -(digitsValue power : Int) else digitsValue power)
  some (.number (numberValue negative whole fraction exponent),
    sign + whole.length + point + fraction.length + covered)

/-- A character of a text, or a sixteen-bit unit that an escape gives. -/
inductive TextUnit where
  | char (c : Char)
  | unit (n : Nat)

/-- The value of a hexadecimal digit in either case. -/
def hexDigit? (c : Char) : Option Nat :=
  if c.isDigit then some (c.toNat - '0'.toNat)
  else if 'a' ≤ c ∧ c ≤ 'f' then some (c.toNat - 'a'.toNat + 10)
  else if 'A' ≤ c ∧ c ≤ 'F' then some (c.toNat - 'A'.toNat + 10)
  else none

def hexValue? (cs : List Char) : Option Nat :=
  cs.foldlM (fun n c => (hexDigit? c).map (16 * n + ·)) 0

/-- What an escape of one character stands for. -/
def escaped? (c : Char) : Option Char :=
  if c = '\x22' || c = '\\' || c = '/' then some c
  else if c = 'b' then some '\x08'
  else if c = 'f' then some '\x0c'
  else if c = 'n' then some '\n'
  else if c = 'r' then some '\r'
  else if c = 't' then some '\t'
  else none

/-- The content of a text up to its closing quote, and how many characters it covers with the
quote. Control characters must be escaped. -/
def textUnits : List Char → Option (List TextUnit × Nat)
  | [] => none
  | c :: cs =>
    if c = '\x22' then some ([], 1)
    else if c = '\\' then
      match cs with
      | 'u' :: h₁ :: h₂ :: h₃ :: h₄ :: rest => do
        let n ← hexValue? [h₁, h₂, h₃, h₄]
        let (units, covered) ← textUnits rest
        some (.unit n :: units, covered + 6)
      | e :: rest => do
        let c ← escaped? e
        let (units, covered) ← textUnits rest
        some (.char c :: units, covered + 2)
      | [] => none
    else if c.toNat < 32 then none
    else do
      let (units, covered) ← textUnits cs
      some (.char c :: units, covered + 1)

def isHighSurrogate (n : Nat) : Bool := 0xd800 ≤ n && n < 0xdc00

def isLowSurrogate (n : Nat) : Bool := 0xdc00 ≤ n && n < 0xe000

/-- The characters of a text: two surrogates, high and low, make one, and none may stand
alone. -/
def characters? : List TextUnit → Option (List Char)
  | [] => some []
  | .char c :: rest => (characters? rest).map (c :: ·)
  | .unit n :: rest =>
    if isHighSurrogate n then
      match rest with
      | .unit m :: rest =>
        if isLowSurrogate m then
          (characters? rest).map (Char.ofNat (0x10000 + (n - 0xd800) * 1024 + (m - 0xdc00)) :: ·)
        else none
      | _ => none
    else if isLowSurrogate n then none
    else (characters? rest).map (Char.ofNat n :: ·)

/-- The token at the start of a text that does not start with a blank, and how many characters it
covers. -/
def first? (cs : List Char) : Option (Token × Nat) :=
  match cs with
  | '[' :: _ => some (.openArray, 1)
  | ']' :: _ => some (.closeArray, 1)
  | '\x7b' :: _ => some (.openObject, 1)
  | '\x7d' :: _ => some (.closeObject, 1)
  | ',' :: _ => some (.comma, 1)
  | ':' :: _ => some (.colon, 1)
  | 'n' :: 'u' :: 'l' :: 'l' :: _ => some (.null, 4)
  | 't' :: 'r' :: 'u' :: 'e' :: _ => some (.bool true, 4)
  | 'f' :: 'a' :: 'l' :: 's' :: 'e' :: _ => some (.bool false, 5)
  | '\x22' :: rest =>
    (textUnits rest).map fun (units, covered) =>
      (.text ((characters? units).map String.ofList), covered + 1)
  | cs => number? cs

/-- The tokens of a text of which the first `covered` characters belong to a token before. -/
def scanFrom : Nat → List Char → List Token
  | _, [] => []
  | covered + 1, _ :: cs => scanFrom covered cs
  | 0, c :: cs =>
    if isBlank c then scanFrom 0 cs
    else
      match first? (c :: cs) with
      | some (token, length) => token :: scanFrom (length - 1) cs
      | none => [.invalid]

def scan (text : String) : List Token := scanFrom 0 text.toList

end Token

end DocumentQuery.Json
