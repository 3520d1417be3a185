import StreamingTemplate.Binary64.Round
import StreamingTemplate.Binary64.Shortest

/-!
# Numbers as text

Two texts of a number are in use. `display` is what a reader sees: whole numbers below `10 ^ 15`
without a fraction, everything else in plain positional notation, and words for the numbers that are
not finite. `json` is the text of a number inside JSON: the same digits, but a whole number keeps
`.0`, and an exponent is used for large and small magnitudes. Both take the digits of
`Binary64.shortest`; what a format decides is a `Decimal.Layout`.

`read?` reads the decimal texts that settings and host values may hold.
-/

namespace StreamingTemplate

namespace Decimal

/-- How the digits of a decimal are laid out. -/
structure Layout where
  /-- the points at which all digits are written in place -/
  positional : Int → Bool
  /-- what follows a whole number that is written in place -/
  wholeSuffix : String

/-- The text of the digits when written in place. -/
def positionalText (suffix : String) (d : Decimal) : String :=
  let n : Int := d.digits.length
  if d.point ≤ 0 then
    "0." ++ String.ofList (List.replicate (-d.point).toNat '0' ++ d.digits)
  else if n ≤ d.point then
    String.ofList (d.digits ++ List.replicate (d.point - n).toNat '0') ++ suffix
  else
    String.ofList (d.digits.take d.point.toNat) ++ "." ++
      String.ofList (d.digits.drop d.point.toNat)

/-- The text of the digits with an exponent, whose sign is always written. -/
def exponentText (d : Decimal) : String :=
  let e := d.point - 1
  let mantissa := match d.digits with
    | [] => "0"
    | [c] => String.ofList [c]
    | c :: rest => String.ofList (c :: '.' :: rest)
  mantissa ++ (if e < 0 then "e-" else "e+") ++ toString e.natAbs

/-- The text of a decimal in a layout. -/
def text (layout : Layout) (d : Decimal) : String :=
  if layout.positional d.point then d.positionalText layout.wholeSuffix else d.exponentText

end Decimal

namespace Binary64

/-! ## Printing -/

/-- Text for readers never uses an exponent. -/
def displayLayout : Decimal.Layout := ⟨fun _ => true, ""⟩

/-- JSON text is positional from `1e-5` up to `1e16`, and marks whole numbers as floating. -/
def jsonLayout : Decimal.Layout := ⟨fun point => decide (-5 < point ∧ point ≤ 16), ".0"⟩

/-- Whole numbers below this magnitude print as integers. -/
def wholeLimit : Nat := 1000000000000000

/-- The sign of a text of digits. -/
def signText (x : Binary64) : String := if x.negative then "-" else ""

/-- The text of a number for readers. Negative zero prints as `0`. -/
def display (x : Binary64) : String :=
  if x.isNaN then "NaN"
  else if x.isInfinite then x.signText ++ "Infinity"
  else match x.wholeBelow wholeLimit with
    | some n => toString n
    | none => x.signText ++ x.shortest.text displayLayout

/-- The text of a finite number in JSON; the sign of zero is kept. -/
def json (x : Binary64) : String :=
  if x.isZero then x.signText ++ "0.0" else x.signText ++ x.shortest.text jsonLayout

/-! ## Reading -/

/-- The value of a list of decimal digits. -/
def digitsValue (cs : List Char) : Nat := cs.foldl (fun n c => n * 10 + (c.toNat - 48)) 0

/-- The exponent part after its letter: an optional sign and at least one digit. -/
def readExponent? (cs : List Char) : Option Int :=
  let (negative, cs) := match cs with
    | '-' :: r => (true, r)
    | '+' :: r => (false, r)
    | r => (false, r)
  if cs.isEmpty || !cs.all Char.isDigit then none
  else some (if negative then -(digitsValue cs : Int) else (digitsValue cs : Int))

/-- The text of a number without its sign: digits, a point anywhere among or around them, and an
optional exponent. -/
def readUnsigned? (negative : Bool) (cs : List Char) : Option Binary64 :=
  let whole := cs.takeWhile Char.isDigit
  let rest := cs.dropWhile Char.isDigit
  let (part, rest) := match rest with
    | '.' :: r => (r.takeWhile Char.isDigit, r.dropWhile Char.isDigit)
    | r => ([], r)
  if whole.isEmpty && part.isEmpty then none
  else
    let digits := digitsValue (whole ++ part)
    let shift : Int := -(part.length : Int)
    match rest with
    | [] => some (ofDecimal negative digits shift)
    | c :: r =>
      if c == 'e' || c == 'E' then
        (readExponent? r).map fun e => ofDecimal negative digits (shift + e)
      else none

/-- Reads a decimal text, correctly rounded. The words `inf`, `infinity` and `nan` are numbers in
any case. -/
def read? (s : String) : Option Binary64 :=
  let (negative, cs) := match s.toList with
    | '-' :: r => (true, r)
    | '+' :: r => (false, r)
    | r => (false, r)
  let word := String.ofList (cs.map Char.toLower)
  if word == "inf" || word == "infinity" then some (infinity negative)
  else if word == "nan" then some { nan with negative }
  else readUnsigned? negative cs

end Binary64

end StreamingTemplate
