import TagSync.Decimal

/-!
Reading a decimal number as the nearest double.

The grammar: an optional sign; then `inf`, `infinity` or `nan` in any case, or digits with an
optional point and an optional exponent, with at least one digit beside the point.
-/

namespace TagSync.Decimal

/-- The value of a list of decimal digits. -/
def ofDigits (ds : List Char) : Nat := ds.foldl (fun n c => 10 * n + (c.toNat - '0'.toNat)) 0

/-- The double nearest to a decimal; what is too large is infinite. -/
def Scaled.toFloat (d : Scaled) : Float :=
  let place : Int := digitCount d.significand + d.exponent
  if d.significand = 0 || place < -330 then 0.0
  else if 310 < place then 1.0 / 0.0
  else Float.ofScientific d.significand (d.exponent < 0) d.exponent.natAbs

/-- An exponent part that is empty or `e` with a signed number. -/
def exponent? : List Char → Option Int
  | [] => some 0
  | c :: rest =>
    if c = 'e' || c = 'E' then
      let (negative, digits) :=
        match rest with
        | '-' :: ds => (true, ds)
        | '+' :: ds => (false, ds)
        | ds => (false, ds)
      if digits.isEmpty || !digits.all Char.isDigit then none
      else some (if negative then -(ofDigits digits : Int) else ofDigits digits)
    else none

/-- An unsigned number: digits, an optional fraction, an optional exponent. -/
def unsigned? (s : List Char) : Option Scaled :=
  let whole := s.takeWhile Char.isDigit
  let rest := s.dropWhile Char.isDigit
  let (fraction, rest) :=
    match rest with
    | '.' :: r => (r.takeWhile Char.isDigit, r.dropWhile Char.isDigit)
    | r => ([], r)
  if whole.isEmpty && fraction.isEmpty then none
  else (exponent? rest).map fun e => ⟨ofDigits (whole ++ fraction), e - fraction.length⟩

/-- The double a text spells. -/
def parse? (s : String) : Option Float :=
  let (negative, rest) :=
    match s.toList with
    | '-' :: r => (true, r)
    | '+' :: r => (false, r)
    | r => (false, r)
  let magnitude : Option Float :=
    match String.ofList (rest.map Char.toLower) with
    | "inf" | "infinity" => some (1.0 / 0.0)
    | "nan" => some (0.0 / 0.0)
    | _ => (unsigned? rest).map Scaled.toFloat
  magnitude.map fun x => if negative then -x else x

end TagSync.Decimal
