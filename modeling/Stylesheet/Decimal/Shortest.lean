/-
Decimal texts of binary numbers.

* `Binary.ofFloat`: a double as a signed `mantissa · 2 ^ exponent`, or infinite, or not a number;
* `Rounding.around`: the interval of reals that round to a given double, as three naturals over one
  denominator; the ends belong to it exactly when the mantissa is even;
* `Rounding.onGrid`: the multiple of a power of ten that lies in the interval, the nearer of two;
  `Tie` says which one it is if they are equally near;
* `shortest`: the coarsest power of ten with such a multiple, which is the decimal of fewest digits
  that reads back as the same double;
* `plain`: its positional text, never with an exponent;
* `fractional`: its text with a point or an exponent, whichever suits its magnitude.
-/

namespace Stylesheet.Decimal

/-! ### The double behind the bits -/

/-- A double, decoded. -/
inductive Binary where
  /-- The number `± mantissa · 2 ^ exponent`; `quarterBelow` says that the neighbour below is half
  as far away as the one above, which happens at a power of two. -/
  | finite (negative : Bool) (mantissa : Nat) (exponent : Int) (quarterBelow : Bool)
  | infinite (negative : Bool)
  | notANumber
  deriving DecidableEq, Repr

/-- Decodes sign, exponent and fraction from the 64 bits of a double. -/
def Binary.ofBits (bits : Nat) : Binary :=
  let negative := bits / Nat.pow 2 63 % 2 = 1
  let biased : Nat := bits / Nat.pow 2 52 % Nat.pow 2 11
  let fraction : Nat := bits % Nat.pow 2 52
  if biased = 2047 then
    if fraction = 0 then .infinite negative else .notANumber
  else if biased = 0 then .finite negative fraction (-1074) false
  else .finite negative (Nat.pow 2 52 + fraction) (biased - 1075) (fraction = 0 ∧ 1 < biased)

/-- Decodes a double. -/
def Binary.ofFloat (x : Float) : Binary :=
  .ofBits x.toBits.toNat

/-! ### The decimals that read back -/

/-- The reals between `low / unit` and `high / unit`, which all round to the double
`value / unit`; the two ends are among them if `closed` holds. -/
structure Rounding where
  low : Nat
  value : Nat
  high : Nat
  unit : Nat
  closed : Bool
  deriving DecidableEq, Repr

/-- The interval around `mantissa · 2 ^ exponent`, in quarters of the distance to the neighbour
above. -/
def Rounding.around (mantissa : Nat) (exponent : Int) (quarterBelow : Bool) : Rounding :=
  let scale := Nat.pow 2 (exponent - 2).toNat
  { low := (4 * mantissa - (if quarterBelow then 1 else 2)) * scale
    value := 4 * mantissa * scale
    high := (4 * mantissa + 2) * scale
    unit := Nat.pow 2 (2 - exponent).toNat
    closed := mantissa % 2 = 0 }

/-- Whether `point / down`, measured in units of `1 / up`, lies in the interval. -/
def Rounding.holds (r : Rounding) (up point : Nat) : Bool :=
  if r.closed then r.low * up ≤ point ∧ point ≤ r.high * up
  else r.low * up < point ∧ point < r.high * up

/-- Which of two equally near factors is taken. -/
inductive Tie where
  | upper
  | even
  deriving DecidableEq, Repr

/-- The factor taken of `below` and the one above it, if they are equally near. -/
def Tie.choose (tie : Tie) (below : Nat) : Nat :=
  match tie with
  | .upper => below + 1
  | .even => if below % 2 = 0 then below else below + 1

/-- The multiple of `10 ^ power` in the interval, as the factor before the power. Only the two
multiples next to the double can be nearest; of two that lie inside the nearer one is taken. -/
def Rounding.onGrid (r : Rounding) (tie : Tie) (power : Int) : Option Nat :=
  let up := Nat.pow 10 (-power).toNat
  let down := r.unit * Nat.pow 10 power.toNat
  let below := r.value * up / down
  match r.holds up (below * down), r.holds up ((below + 1) * down) with
  | true, true =>
    match compare (r.value * up - below * down) ((below + 1) * down - r.value * up) with
    | .lt => some below
    | .eq => some (tie.choose below)
    | .gt => some (below + 1)
  | true, false => some below
  | false, true => some (below + 1)
  | false, false => none

/-- A decimal `digits · 10 ^ power`. -/
structure Written where
  digits : Nat
  power : Int
  deriving DecidableEq, Repr

/-- The first of the powers `power, power - 1, …` whose grid meets the interval, among `steps` many.
-/
def Rounding.coarsest (r : Rounding) (tie : Tie) : Nat → Int → Option Written
  | 0, _ => none
  | steps + 1, power =>
    match r.onGrid tie power with
    | some digits => some ⟨digits, power⟩
    | none => r.coarsest tie steps (power - 1)

/-- The decimal of fewest digits that reads back as `mantissa · 2 ^ exponent`. The search starts at
the number of integer digits. It ends at the grid of `10 ^ -324` at the latest, because doubles are
never less than `10 ^ -324` apart. -/
def shortest (tie : Tie) (mantissa : Nat) (exponent : Int) (quarterBelow : Bool) : Written :=
  let r := Rounding.around mantissa exponent quarterBelow
  let top := (Nat.toDigits 10 (r.value / r.unit)).length
  (r.coarsest tie (top + 325) top).getD ⟨0, 0⟩

/-! ### Positional text -/

/-- The digits of a decimal with the point put in place, and zeros filled in on either side. -/
def Written.plain (d : Written) : String :=
  let digits := Nat.toDigits 10 d.digits
  let places := (-d.power).toNat
  if places = 0 then String.ofList (digits ++ List.replicate d.power.toNat '0')
  else if places < digits.length then
    String.ofList (digits.take (digits.length - places) ++ '.' ::
      digits.drop (digits.length - places))
  else String.ofList ('0' :: '.' :: (List.replicate (places - digits.length) '0' ++ digits))

/-- The text of a number in a stylesheet: the fewest digits that read back, the upper ones of two
that are equally near, in positional notation at any magnitude. Either zero is written without a
sign. -/
def plain (x : Float) : String :=
  match Binary.ofFloat x with
  | .notANumber => "NaN"
  | .infinite negative => if negative then "-inf" else "inf"
  | .finite negative mantissa exponent quarterBelow =>
    if mantissa = 0 then "0"
    else (if negative then "-" else "") ++ (shortest .upper mantissa exponent quarterBelow).plain

/-! ### Text that shows a fraction -/

/-- The power of ten of the leading digit. -/
def Written.leading (d : Written) : Int :=
  d.power + ((Nat.toDigits 10 d.digits).length - 1 : Nat)

/-- The digits with the point behind the first, if there are more, and the power of ten of that
first digit, always with its sign. -/
def Written.scientific (d : Written) : String :=
  let digits := Nat.toDigits 10 d.digits
  let fraction := if digits.length = 1 then [] else '.' :: digits.drop 1
  let sign := if d.leading < 0 then '-' else '+'
  String.ofList (digits.take 1 ++ fraction ++ 'e' :: sign :: Nat.toDigits 10 d.leading.natAbs)

/-- The digits in positional notation, with `.0` after a whole number, if the leading one stands
between the fifth place behind the point and the sixteenth before it, and else with an exponent. -/
def Written.fractional (d : Written) : String :=
  if -5 ≤ d.leading ∧ d.leading ≤ 15 then
    if d.power < 0 then d.plain else d.plain ++ ".0"
  else d.scientific

/-- The text of a number that is to be seen as a fraction: the fewest digits that read back, the
even ones of two that are equally near. A negative zero keeps its sign. -/
def fractional (x : Float) : String :=
  match Binary.ofFloat x with
  | .notANumber => "NaN"
  | .infinite negative => if negative then "-inf" else "inf"
  | .finite negative mantissa exponent quarterBelow =>
    let sign := if negative then "-" else ""
    if mantissa = 0 then sign ++ "0.0"
    else sign ++ (shortest .even mantissa exponent quarterBelow).fractional

end Stylesheet.Decimal
