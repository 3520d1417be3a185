import StreamingTemplate.Json.Syntax
import StreamingTemplate.Binary64.Text

/-!
# What a JSON text denotes

A tree of the grammar denotes a value if

* every number is in range: an integer of 64 bits keeps its value, any other number is a finite
  binary64 number,
* the escaped code units of every string pair up to characters,
* it is nested less than 128 levels deep.

Numbers with a fraction or an exponent are computed from at most 64 bits of their digits by one
binary64 multiplication or division, so that the last bit can differ from the nearest number; digits
beyond 64 bits count only as powers of ten.
-/

namespace StreamingTemplate.Json

/-! ## Numbers -/

namespace Number

/-- One past the largest 64-bit word. -/
def wordLimit : Nat := 18446744073709551616

/-- The leading digits whose value fits into 64 bits, on top of the value `n` of the digits before
them, and the digits left over. -/
def leadingValue (n : Nat) : List Char → Nat × List Char
  | [] => (n, [])
  | d :: rest =>
    let m := n * 10 + (d.toNat - 48)
    if m < wordLimit then leadingValue m rest else (n, d :: rest)

/-- `10 ^ k` as a binary64 number. -/
def powerOfTen (k : Nat) : Binary64 := .ofRatio false (Nat.pow 10 k) 1

/-- `x · 10 ^ exponent` by multiplication or division; below the range of the powers of ten the
number is divided in steps of `10 ^ 308`. The fuel bounds the steps. -/
def scale : Nat → Binary64 → Int → Option Binary64
  | 0, x, _ => some x
  | fuel + 1, x, exponent =>
    if exponent.natAbs ≤ 308 then
      if 0 ≤ exponent then
        let y := x.mul (powerOfTen exponent.toNat)
        if y.isInfinite then none else some y
      else some (x.div (powerOfTen exponent.natAbs))
    else if x.isZero then some x
    else if 0 ≤ exponent then none
    else scale fuel (x.div (powerOfTen 308)) (exponent + 308)

/-- The exponent as written, held to 32 bits; `none` if its digits leave that range. -/
def exponentValue? (negative : Bool) (digits : List Char) : Option Int :=
  let n := Binary64.digitsValue digits
  if n < 2147483648 then some (if negative then -(n : Int) else (n : Int)) else none

/-- Holds an exponent to 32 bits. -/
def clamp (e : Int) : Int := max (-2147483648) (min 2147483647 e)

/-- The number that a text denotes; `none` if it is out of range. -/
def ofText (t : NumberText) : Option Number :=
  let (lead, excess) := leadingValue 0 t.whole
  let signed := fun x : Binary64 => Number.float (if t.negative then x.neg else x)
  if excess.isEmpty ∧ t.fraction.isEmpty ∧ t.exponent.isNone then
    if t.negative then
      if 0 < lead ∧ lead ≤ 9223372036854775808 then some (.integer (-(lead : Int)))
      else some (signed (.ofInt lead))
    else some (.integer lead)
  else
    -- a digit behind the point that still fits counts even where whole digits were left over
    let (digits, rest) := leadingValue lead t.fraction
    let shift : Int := (excess.length : Int) - ((t.fraction.length : Int) - (rest.length : Int))
    let base := Binary64.ofInt digits
    match t.exponent with
    | none => (scale 8 base shift).map signed
    | some (negative, ds) =>
      match exponentValue? negative ds with
      | some e => (scale 8 base (clamp (shift + e))).map signed
      | none => if digits = 0 ∨ negative then some (signed (.zero false)) else none

end Number

/-! ## Strings -/

/-- The characters of string pieces: two code units that form a pair are one character, and a code
unit of a pair does not stand alone. -/
def StringPiece.chars? : List StringPiece → Option (List Char)
  | [] => some []
  | .char c :: rest => (chars? rest).map (c :: ·)
  | .unit hi :: .unit lo :: rest =>
    if 0xD800 ≤ hi ∧ hi < 0xDC00 then
      if 0xDC00 ≤ lo ∧ lo < 0xE000 then
        (chars? rest).map (Char.ofNat (0x10000 + (hi - 0xD800) * 0x400 + (lo - 0xDC00)) :: ·)
      else none
    else if 0xDC00 ≤ hi ∧ hi < 0xE000 then none
    else (chars? (.unit lo :: rest)).map (Char.ofNat hi :: ·)
  | .unit u :: rest =>
    if 0xD800 ≤ u ∧ u < 0xE000 then none else (chars? rest).map (Char.ofNat u :: ·)

/-- The text of string pieces. -/
def StringPiece.text? (pieces : List StringPiece) : Option String :=
  (chars? pieces).map String.ofList

/-! ## Values -/

namespace Syntax

mutual

/-- The value that a tree denotes, if it is nested less than `depth` levels deep. -/
def value? (depth : Nat) : Syntax → Option Json
  | .null => some .null
  | .bool b => some (.bool b)
  | .number n => (Number.ofText n).map .number
  | .string pieces => (StringPiece.text? pieces).map .string
  | .array items => if depth ≤ 1 then none else (items? (depth - 1) items).map .array
  | .object fields => if depth ≤ 1 then none else (fields? (depth - 1) fields).map .object

/-- The values of the items of an array. -/
def items? (depth : Nat) : List Syntax → Option (List Json)
  | [] => some []
  | t :: rest => do
    let v ← value? depth t
    let vs ← items? depth rest
    return v :: vs

/-- The keys and values of the fields of an object. -/
def fields? (depth : Nat) : List (List StringPiece × Syntax) → Option (List (String × Json))
  | [] => some []
  | (key, t) :: rest => do
    let k ← StringPiece.text? key
    let v ← value? depth t
    let vs ← fields? depth rest
    return (k, v) :: vs

end

end Syntax

/-- The nesting that a document has to stay below. -/
def depthLimit : Nat := 128

/-- The value of a JSON text, fields as written. -/
def parse? (source : String) : Option Json := do
  (← Syntax.parse? source).value? depthLimit

end StreamingTemplate.Json
