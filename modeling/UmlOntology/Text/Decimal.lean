/-
Decimal text of binary floating-point numbers: the fewest digits that read back to the number, and
of those the nearest. Digits are found by exact arithmetic on naturals; how they are laid out is a
matter apart.
-/

namespace UmlOntology.Decimal

/-- A finite non-negative number, `m * 2 ^ q`. -/
structure Binary where
  m : Nat
  q : Int
  /-- The number below is half as far away as the number above. -/
  narrowBelow : Bool
deriving DecidableEq, Repr

/-- The number with these bits, less its sign. -/
def Binary.ofBits (b : UInt64) : Binary :=
  let e := ((b >>> 52) &&& 0x7ff).toNat
  let f := (b &&& 0xfffffffffffff).toNat
  if e = 0 then ⟨f, -1074, false⟩ else ⟨0x10000000000000 + f, (e : Int) - 1075, f == 0 && 1 < e⟩

/-- The decimal `digits * 10 ^ exp`. -/
structure Digits where
  digits : Nat
  exp : Int
deriving DecidableEq, Repr

/-- The power `b ^ n`; 1 if `n` is negative. -/
def power (b : Nat) (n : Int) : Nat := Nat.pow b n.toNat

/-- Compares `a * 10 ^ i` with `b * 2 ^ j`. -/
def compareScaled (a : Nat) (i : Int) (b : Nat) (j : Int) : Ordering :=
  compare (a * power 10 i * power 2 (-j)) (b * power 2 j * power 10 (-i))

/-- The decimal lies among the reals that are nearest to this number, ties going to even. -/
def Binary.admits (x : Binary) (d : Digits) : Bool :=
  let low := if x.narrowBelow then 4 * x.m - 1 else 4 * x.m - 2
  let even := x.m % 2 == 0
  let below := compareScaled d.digits d.exp low (x.q - 2)
  let above := compareScaled d.digits d.exp (4 * x.m + 2) (x.q - 2)
  (below == .gt || even && below == .eq) && (above == .lt || even && above == .eq)

/-- The least `k` with the number below `10 ^ k`, for a number that is not zero. -/
def Binary.scale (x : Binary) : Int :=
  let guess := ((x.m.log2 : Int) + x.q) * 30103 / 100000
  ([guess, guess + 1].find? fun k => compareScaled 1 k x.m x.q == .gt).getD (guess + 2)

/-- The decimal in steps of `10 ^ exp` that the number admits; the nearer of two, and the even one
of two that are equally near. -/
def Binary.onGrid? (x : Binary) (exp : Int) : Option Digits :=
  let num := x.m * power 2 x.q * power 10 (-exp)
  let den := power 2 (-x.q) * power 10 exp
  let low := num / den
  match x.admits ⟨low, exp⟩, x.admits ⟨low + 1, exp⟩ with
  | true, false => some ⟨low, exp⟩
  | false, true => some ⟨low + 1, exp⟩
  | false, false => none
  | true, true =>
    match compare (2 * num) ((2 * low + 1) * den) with
    | .lt => some ⟨low, exp⟩
    | .gt => some ⟨low + 1, exp⟩
    | .eq => some ⟨if low % 2 = 0 then low else low + 1, exp⟩

/-- The shortest decimal that a number other than zero admits. Seventeen digits always do. -/
def Binary.shortest (x : Binary) : Digits :=
  let k := x.scale
  ((List.range 17).findSome? fun n : Nat => x.onGrid? (k - (n + 1 : Nat))).getD ⟨x.m * power 2 x.q, 0⟩

/-- An exponent, always with its sign. -/
def renderExponent (e : Int) : String := if 0 ≤ e then "e+" ++ toString e else "e" ++ toString e

/-- Digits with an exponent `k`: with a point if it stands among or next to them, up to sixteen
places before it and four zeros behind it, and with an exponent otherwise. -/
def layout (digits : List Char) (k : Int) : String :=
  let length : Int := digits.length
  let before := length + k
  if 0 ≤ k ∧ before ≤ 16 then
    String.ofList (digits ++ List.replicate k.toNat '0') ++ ".0"
  else if 0 < before ∧ before ≤ 16 then
    String.ofList (digits.take before.toNat) ++ "." ++ String.ofList (digits.drop before.toNat)
  else if -5 < before ∧ before ≤ 0 then
    "0." ++ String.ofList (List.replicate (-before).toNat '0' ++ digits)
  else
    let mantissa :=
      match digits with
      | [d] => String.ofList [d]
      | ds => String.ofList (ds.take 1) ++ "." ++ String.ofList (ds.drop 1)
    mantissa ++ renderExponent (before - 1)

/-- The text of a finite number. -/
def render (x : Float) : String :=
  let b := x.toBits
  let sign := if b >>> 63 == 1 then "-" else ""
  let n := Binary.ofBits b
  if n.m = 0 then sign ++ "0.0"
  else
    let d := n.shortest
    let digits := (toString d.digits).toList
    let kept := (digits.reverse.dropWhile (· = '0')).reverse
    sign ++ layout kept (d.exp + (digits.length - kept.length : Nat))

end UmlOntology.Decimal
