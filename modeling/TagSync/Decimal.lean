/-!
Numbers of limited size, and the text of a double.

A double is written as the shortest decimal that reads back as it. A finite double stands for the
interval of reals that round to it, ends included when its significand is even. For one digit, two
digits and so on, the two neighbours of the double on the decimal grid of that many digits are
tried; the first grid with a neighbour inside the interval gives the answer. All arithmetic is
exact. A `Style` holds the decisions a format makes: which way a tie goes, where the decimal point
may stand before the exponent form takes over, and what follows a number without fraction.
-/

namespace TagSync

/-! ### Integers of so many bits -/

/-- Whether an integer fits into so many bits, its sign included. -/
def fitsSigned (bits : Nat) (n : Int) : Bool :=
  let half : Int := Int.ofNat (Nat.pow 2 (bits - 1))
  n < half && -half ≤ n

def fitsUnsigned (bits n : Nat) : Bool := n < Nat.pow 2 bits

namespace Decimal

/-! ### The shortest decimal -/

/-- The decimal `significand * 10 ^ exponent`. -/
structure Scaled where
  significand : Nat
  exponent : Int
  deriving DecidableEq, Repr, Inhabited

/-- Which of two neighbours wins that lie equally near. -/
inductive Tie where
  | even
  | up
  deriving DecidableEq, Repr

/-- The number of decimal digits; one for zero. -/
def digitCount (n : Nat) : Nat := (Nat.toDigits 10 n).length

/-- A positive double with the reals that round to it, as numerators over one denominator. -/
structure Rounding where
  low : Nat
  value : Nat
  high : Nat
  denominator : Nat
  closed : Bool

/-- The interval of the double whose sign bit is dropped from `bits`. -/
def Rounding.ofBits (bits : UInt64) : Rounding :=
  let biased := ((bits >>> 52) &&& 0x7FF).toNat
  let fraction := (bits &&& 0xFFFFFFFFFFFFF).toNat
  let significand := if biased = 0 then fraction else fraction + 0x10000000000000
  -- a quarter of the last place is the unit
  let power : Int := (if biased = 0 then 1 else (biased : Int)) - 1077
  let unit := Nat.pow 2 power.toNat
  let below := if fraction = 0 && 1 < biased then 1 else 2
  { low := (4 * significand - below) * unit
    value := 4 * significand * unit
    high := (4 * significand + 2) * unit
    denominator := Nat.pow 2 (-power).toNat
    closed := significand % 2 = 0 }

/-- The place of the decimal point: `10 ^ (place - 1) ≤ value < 10 ^ place`. -/
def Rounding.place (r : Rounding) : Int :=
  let guess : Int := (digitCount r.value : Int) - digitCount r.denominator
  let small := r.denominator * Nat.pow 10 guess.toNat
  if small ≤ r.value * Nat.pow 10 (-guess).toNat then guess + 1 else guess

/-- Whether `n * 10 ^ exponent` rounds to the double. -/
def Rounding.holds (r : Rounding) (n : Nat) (exponent : Int) : Bool :=
  let point := n * r.denominator * Nat.pow 10 exponent.toNat
  let scale := Nat.pow 10 (-exponent).toNat
  if r.closed then r.low * scale ≤ point && point ≤ r.high * scale
  else r.low * scale < point && point < r.high * scale

/-- The nearest point of a decimal grid that rounds to the double, if there is one. -/
def Rounding.onGrid? (r : Rounding) (tie : Tie) (exponent : Int) : Option Scaled :=
  let numerator := r.value * Nat.pow 10 (-exponent).toNat
  let denominator := r.denominator * Nat.pow 10 exponent.toNat
  let down := numerator / denominator
  let remainder := numerator % denominator
  match r.holds down exponent, r.holds (down + 1) exponent with
  | false, false => none
  | true, false => some ⟨down, exponent⟩
  | false, true => some ⟨down + 1, exponent⟩
  | true, true =>
    match compare (2 * remainder) denominator with
    | .lt => some ⟨down, exponent⟩
    | .gt => some ⟨down + 1, exponent⟩
    | .eq => some ⟨if tie = .even && down % 2 = 0 then down else down + 1, exponent⟩

/-- The same decimal without zeros at the end of its significand. -/
def Scaled.trim : Nat → Scaled → Scaled
  | 0, d => d
  | n + 1, d =>
    if d.significand ≠ 0 && d.significand % 10 = 0 then
      trim n ⟨d.significand / 10, d.exponent + 1⟩
    else d

/-- The shortest decimal for a positive double; seventeen digits always suffice. -/
def shortest (tie : Tie) (bits : UInt64) : Scaled :=
  let r := Rounding.ofBits bits
  let found := (List.range 17).findSome? fun n => r.onGrid? tie (r.place - (n + 1 : Nat))
  (found.getD ⟨0, 0⟩).trim 20

/-! ### Texts -/

structure Style where
  tie : Tie
  /-- Whether the point is written at this place; place `1` is after the first digit. -/
  positional : Int → Bool
  /-- Written after a number that has no fraction. -/
  whole : String

/-- Never an exponent, and no point without a fraction; a tie goes up. -/
def Style.plain : Style := ⟨.up, fun _ => true, ""⟩

/-- Numbers in a JSON text: always marked as no integer, exponents from `1e16` and below
`1e-5`; a tie goes to the even digit. -/
def Style.json : Style := ⟨.even, fun place => -5 < place && place ≤ 16, ".0"⟩

def zeros (n : Int) : String := String.ofList (List.replicate n.toNat '0')

/-- The text of a positive decimal. -/
def Style.write (style : Style) (d : Scaled) : String :=
  let digits := toString d.significand
  let place : Int := digits.length + d.exponent
  if style.positional place then
    if 0 ≤ d.exponent then digits ++ zeros d.exponent ++ style.whole
    else if 0 < place then
      String.ofList (digits.toList.take place.toNat) ++ "." ++
        String.ofList (digits.toList.drop place.toNat)
    else "0." ++ zeros (-place) ++ digits
  else
    let fraction := digits.toList.drop 1
    String.ofList (digits.toList.take 1) ++
      (if fraction.isEmpty then "" else "." ++ String.ofList fraction) ++
      "e" ++ toString (place - 1)

/-- The text of a double. -/
def Style.render (style : Style) (x : Float) : String :=
  if x.isNaN then "NaN"
  else
    let bits := x.toBits
    let sign := if bits >>> 63 = 1 then "-" else ""
    let magnitude := bits &&& 0x7FFFFFFFFFFFFFFF
    if x.isInf then sign ++ "inf"
    else if magnitude = 0 then sign ++ "0" ++ style.whole
    else sign ++ style.write (shortest style.tie magnitude)

end Decimal

end TagSync
