import BlockPlan.Decimal.Digits

/-!
# Numbers as text

Four written forms of a number, all of them exact: the shortest text that reads back
(`shortestText`), a fixed number of places (`fixedText`), a number of significant digits
(`generalText`) and a percentage (`percentText`).  A number without a value is written `nan`, an
infinite one `inf`, and the sign of a negative zero is kept.
-/

namespace BlockPlan.Decimal

open Binary64 (Value value)

/-- Where positional writing ends and whether a whole number shows that it is a real one. -/
structure Style where
  /-- Decimal exponents below this one are written with a mark. -/
  lowest : Int
  /-- Decimal exponents from this one on are written with a mark. -/
  limit : Int
  /-- Whether `.0` follows a whole number that is written positionally. -/
  marksReals : Bool

/-- The shortest form is positional from `0.0001` up to, but without, `10 ^ 16`. -/
def shortestStyle : Style := ⟨-4, 16, true⟩

/-- The form with `count` significant digits is positional as long as no zero has to be filled
in behind them. -/
def generalStyle (count : Nat) : Style := ⟨-4, count, false⟩

/-- A row of zeros. -/
def zeros (count : Nat) : String := String.ofList (List.replicate count '0')

/-- `digits * 10 ^ (-count)`, with exactly `count` digits behind the point. -/
def positional (digits count : Nat) : String :=
  if count = 0 then toString digits
  else
    let text := toString digits
    let text := zeros (count + 1 - text.length) ++ text
    let whole := text.length - count
    String.ofList (text.toList.take whole) ++ "." ++ String.ofList (text.toList.drop whole)

/-- An exponent: the mark, a sign and at least two digits. -/
def exponentText (e : Int) : String :=
  let digits := toString e.natAbs
  "e" ++ (if e < 0 then "-" else "+") ++ zeros (2 - digits.length) ++ digits

/-- `digits * 10 ^ k` in a given style; the digits end in no superfluous zero. -/
def Style.render (style : Style) (digits : Nat) (k : Int) : String :=
  let count := (toString digits).length
  let e := k + count - 1
  if style.lowest ≤ e ∧ e < style.limit then
    if k < 0 then positional digits (-k).toNat
    else toString digits ++ zeros k.toNat ++ (if style.marksReals then ".0" else "")
  else positional digits (count - 1) ++ exponentText e

/-- Puts the sign in front and treats the values that have no digits. -/
def signed (x : Float) (digits : Nat → Int → String) : String :=
  match value x with
  | .nan => "nan"
  | .infinite negative => if negative then "-inf" else "inf"
  | .finite negative m e => (if negative then "-" else "") ++ digits m e

/-- The shortest text that reads back as the same number; a whole number ends in `.0`. -/
def shortestText (x : Float) : String :=
  signed x fun m e =>
    if m = 0 then shortestStyle.render 0 0
    else
      let (digits, k) := shortest m e
      shortestStyle.render digits k

/-- The number with exactly `count` digits behind the point. -/
def fixedText (count : Nat) (x : Float) : String :=
  signed x fun m e => positional (places (m * Nat.pow 2 e.toNat) (Nat.pow 2 (-e).toNat) count) count

/-- The number with `count` significant digits, less the zeros at their end. -/
def generalText (count : Nat) (x : Float) : String :=
  signed x fun m e =>
    if m = 0 then (generalStyle count).render 0 0
    else
      let (digits, k) := significant (m * Nat.pow 2 e.toNat) (Nat.pow 2 (-e).toNat) count
      let (digits, k) := stripZeros count digits k
      (generalStyle count).render digits k

/-- The number as a percentage with `count` digits behind the point. -/
def percentText (count : Nat) (x : Float) : String :=
  fixedText count (x * 100) ++ "%"

/-- A text filled up with blanks on its right, to at least `width` characters. -/
def padRight (width : Nat) (text : String) : String :=
  text ++ String.ofList (List.replicate (width - text.length) ' ')

/-- A text filled up with blanks on its left, to at least `width` characters. -/
def padLeft (width : Nat) (text : String) : String :=
  String.ofList (List.replicate (width - text.length) ' ') ++ text

end BlockPlan.Decimal
