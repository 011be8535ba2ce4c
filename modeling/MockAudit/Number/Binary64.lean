namespace MockAudit.Binary64

def precision : Nat := 53

def overflowBound : Nat := Nat.pow 2 1024 - Nat.pow 2 970

/-- The nearest number with at most `precision` significant bits; of two nearest ones the even one. -/
def nearest (n : Nat) : Nat :=
  let unit := Nat.pow 2 (n.log2 + 1 - precision)
  let quotient := n / unit
  let remainder := n % unit
  if 2 * remainder < unit ∨ (2 * remainder = unit ∧ quotient % 2 = 0) then quotient * unit
  else (quotient + 1) * unit

def decimalOverflows (significand digits : Nat) (exponent : Int) : Bool :=
  if significand = 0 ∨ digits + exponent < 308 then false
  else if 400 < exponent then true
  else if 0 ≤ exponent then decide (overflowBound ≤ significand * Nat.pow 10 exponent.toNat)
  else decide (overflowBound * Nat.pow 10 (-exponent).toNat ≤ significand)

def productOverflows (a b : Nat) : Bool := decide (overflowBound ≤ nearest a * nearest b)

end MockAudit.Binary64
